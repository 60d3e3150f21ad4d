import NodeDump.Text.Quoted
import NodeDump.Token

/-!
What can be wrong with a dump: a character that starts no token, a token out of place, or more open
constructs than the reader of a dump is willing to keep track of.
-/

namespace NodeDump

inductive Fault where
  | strayCharacter (c : Char) (line column : Int)
  | mismatch (expected : Token.Class) (token : Token)
  | unexpected (token : Token)
  | trailing (token : Token)
  | tooDeep (token : Token)
  deriving DecidableEq, Repr

namespace Fault

def message : Fault → String
  | strayCharacter c line column => s!"Unexpected character {Text.quoted c} at {line}:{column}"
  | mismatch expected token => s!"Expected '{expected.name}', got {token.describe}"
  | unexpected token => "Unexpected " ++ token.describe
  | trailing token => "Unexpected " ++ token.describe ++ " after end of value"
  | tooDeep token => s!"Nesting too deep at {token.line}:{token.column}"

/-- The token to blame. A character that starts no token leaves none. -/
def token? : Fault → Option Token
  | strayCharacter .. => none
  | mismatch _ token | unexpected token | trailing token | tooDeep token => some token

end Fault

end NodeDump
