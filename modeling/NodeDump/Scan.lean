import NodeDump.Reader

/-!
All the tokens of a text at once, as far as there are any.
-/

namespace NodeDump

/-- The tokens in order, and what stands behind them: the end of the input or a character that starts
no token. -/
structure Scan where
  tokens : List Token
  ending : Except Fault Token

namespace Scan

/-- Reads on to the end. `seen` holds the tokens up to here, the last one first. -/
def gather (seen : List Token) (reader : Reader) : Scan :=
  match _ : reader.read with
  | .error fault _ => ⟨seen.reverse, .error fault⟩
  | .ok token after =>
    if _ : token.isEnd = false then gather (token :: seen) after
    else ⟨seen.reverse, .ok token⟩
termination_by reader.rest.length
decreasing_by exact Reader.length_of_read ‹_› ‹_›

def ofReader (reader : Reader) : Scan := gather [] reader

end Scan

def tokenise (source : String) : Except Fault (List Token) :=
  let scan := Scan.ofReader (.ofSource source {})
  scan.ending.map fun _ => scan.tokens

end NodeDump
