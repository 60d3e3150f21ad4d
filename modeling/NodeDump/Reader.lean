import NodeDump.Fault
import NodeDump.Lexeme.Lemmas
import NodeDump.Position

/-!
Reading token by token. A reader holds the text that is still to come and its place in the source. Blanks before a
token are passed over, even where no token follows them. Every token that is read takes something off the text, so
reading reaches the end of the input or a stray character.
-/

namespace NodeDump

structure Reader where
  rest : List Char
  position : Position := {}
  deriving DecidableEq, Repr

namespace Reader

/-- Starts in the source at `position`, which may lie in the middle of a token or behind the end. -/
def ofSource (source : String) (position : Position) : Reader :=
  ⟨source.toList.drop position.index, position⟩

def skipBlanks (reader : Reader) : Reader where
  rest := reader.rest.dropWhile Char.isWhitespace
  position := reader.position.after (reader.rest.takeWhile Char.isWhitespace)

def token (reader : Reader) (kind : Kind) (text : List Char) : Token :=
  ⟨kind, reader.position.line, reader.position.column, String.ofList text⟩

def readHere (reader : Reader) : EStateM.Result Fault Reader Token :=
  match reader.rest with
  | [] => .ok (reader.token .endOfInput []) reader
  | c :: tail =>
    match Lexeme.first? (c :: tail) with
    | none => .error (.strayCharacter c reader.position.line reader.position.column) reader
    | some found =>
      .ok (reader.token found.kind found.text) ⟨found.rest, reader.position.after found.text⟩

def read : EStateM Fault Reader Token := fun reader => reader.skipBlanks.readHere

theorem length_skipBlanks_le (reader : Reader) :
    reader.skipBlanks.rest.length ≤ reader.rest.length :=
  (List.dropWhile_suffix _).length_le

theorem length_of_readHere {reader after : Reader} {token : Token}
    (took : reader.readHere = .ok token after) (more : token.isEnd = false) :
    after.rest.length < reader.rest.length := by
  unfold readHere at took
  split at took
  · simp only [EStateM.Result.ok.injEq] at took
    simp [← took.1, Reader.token, Token.isEnd] at more
  · rename_i c tail text
    split at took
    · simp at took
    · rename_i found front
      simp only [EStateM.Result.ok.injEq] at took
      rw [← took.2, text]
      exact Lexeme.length_rest_lt front

theorem length_of_read {reader after : Reader} {token : Token}
    (took : reader.read = .ok token after) (more : token.isEnd = false) :
    after.rest.length < reader.rest.length :=
  Nat.lt_of_lt_of_le (length_of_readHere took more) (length_skipBlanks_le reader)

theorem rest_of_readHere_end {reader after : Reader} {token : Token}
    (took : reader.readHere = .ok token after) (done : token.isEnd = true) : after.rest = [] := by
  unfold readHere at took
  split at took
  · rename_i text
    simp only [EStateM.Result.ok.injEq] at took
    rw [← took.2, text]
  · split at took
    · simp at took
    · rename_i found front
      simp only [EStateM.Result.ok.injEq] at took
      simp [← took.1, Reader.token, Token.isEnd, Lexeme.kind_ne_endOfInput front] at done

end Reader

end NodeDump
