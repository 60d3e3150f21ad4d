import NodeDump.Reader

/-!
A cursor stands on a token and has looked at nothing behind it, so that only a move can come upon a stray character.
A move that fails stays on its token, with the blanks behind it passed. `size` decreases with every move from a
token to the next.
-/

namespace NodeDump

structure Cursor extends Reader where
  current : Token
  deriving DecidableEq, Repr

namespace Cursor

def ofReader (reader : Reader) : Except Fault Cursor :=
  match reader.read with
  | .ok token after => .ok ⟨after, token⟩
  | .error fault _ => .error fault

def ofSource (source : String) (position : Position := {}) : Except Fault Cursor :=
  ofReader (.ofSource source position)

/-- Gives the current token and moves to the one behind it. The end of the input stays current. -/
def advance : EStateM Fault Cursor Token := fun cursor =>
  if cursor.current.isEnd then .ok cursor.current cursor
  else match cursor.toReader.read with
    | .ok token after => .ok cursor.current ⟨after, token⟩
    | .error fault after => .error fault ⟨after, cursor.current⟩

def next (expected : Token.Class) : EStateM Fault Cursor Token := fun cursor =>
  if expected.accepts cursor.current.kind then cursor.advance
  else .error (.mismatch expected cursor.current) cursor

def size (cursor : Cursor) : Nat := cursor.rest.length + if cursor.current.isEnd then 0 else 1

theorem advance_ok {cursor after : Cursor} {token : Token} (moved : cursor.advance = .ok token after) :
    token = cursor.current ∧ (cursor.current.isEnd = true ∧ after = cursor ∨
      cursor.current.isEnd = false ∧ cursor.toReader.read = .ok after.current after.toReader) := by
  unfold advance at moved
  split at moved
  · rename_i last
    cases moved
    exact ⟨rfl, Or.inl ⟨last, rfl⟩⟩
  · rename_i more
    split at moved
    · rename_i took
      cases moved
      exact ⟨rfl, Or.inr ⟨by simpa using more, took⟩⟩
    · contradiction

theorem advance_error {cursor after : Cursor} {fault : Fault} (failed : cursor.advance = .error fault after) :
    cursor.current.isEnd = false ∧ after.current = cursor.current ∧
      cursor.toReader.read = .error fault after.toReader := by
  unfold advance at failed
  split at failed
  · contradiction
  · rename_i more
    split at failed
    · contradiction
    · rename_i stuck
      cases failed
      exact ⟨by simpa using more, rfl, stuck⟩

theorem token_of_advance {cursor after : Cursor} {token : Token}
    (moved : cursor.advance = .ok token after) : token = cursor.current := (advance_ok moved).1

theorem size_of_advance {cursor after : Cursor} {token : Token}
    (moved : cursor.advance = .ok token after) (more : token.isEnd = false) :
    after.size < cursor.size := by
  obtain ⟨rfl, ⟨last, -⟩ | ⟨-, took⟩⟩ := advance_ok moved
  · rw [more] at last
    contradiction
  · simp only [size, more, Bool.false_eq_true, if_false]
    cases last : after.current.isEnd with
    | true =>
      rw [Reader.rest_of_readHere_end took last]
      simp
    | false =>
      have shorter := Reader.length_of_read took last
      simp only [Bool.false_eq_true, if_false]
      omega

end Cursor

end NodeDump
