import NodeDump.Proofs.Lexeme.Longest
import NodeDump.Proofs.Scan.Ahead

/-!
How far a reader gets. It passes over a part of the text in front of it and stands in the place behind that part,
whether it finds a token or not. A reader that finds none has passed over blanks and stands in front of a stray
character, where it fails again in the same way.
-/

namespace NodeDump
open Lexeme

namespace Reader

/-- One reader comes to stand where another one does by passing over text. -/
def Passes (before after : Reader) : Prop :=
  ∃ text, before.rest = text ++ after.rest ∧ after.position = before.position.after text

namespace Passes

variable {before middle after : Reader}

theorem refl (reader : Reader) : reader.Passes reader := ⟨[], rfl, rfl⟩

theorem trans (first : before.Passes middle) (second : middle.Passes after) : before.Passes after := by
  obtain ⟨text, rest, place⟩ := first
  obtain ⟨more, rest', place'⟩ := second
  refine ⟨text ++ more, ?_, ?_⟩
  · rw [rest, rest', List.append_assoc]
  · rw [place', place, Position.after_append]

theorem position (passes : before.Passes after) {text : List Char} (whole : before.rest = text ++ after.rest) :
    after.position = before.position.after text := by
  obtain ⟨other, rest, place⟩ := passes
  rw [rest, List.append_cancel_right_eq] at whole
  rw [place, whole]

theorem index_add_length (passes : before.Passes after) :
    after.position.index + after.rest.length = before.position.index + before.rest.length := by
  obtain ⟨text, rest, place⟩ := passes
  rw [place, rest, Position.index_after, List.length_append]
  omega

theorem index_le (passes : before.Passes after) : before.position.index ≤ after.position.index := by
  obtain ⟨text, -, place⟩ := passes
  rw [place, Position.index_after]
  omega

theorem line_le (passes : before.Passes after) : before.position.line ≤ after.position.line := by
  obtain ⟨text, -, place⟩ := passes
  rw [place, Position.line_after]
  omega

end Passes

variable {reader after : Reader} {token : Token} {fault : Fault}

theorem passes_skipBlanks (reader : Reader) : reader.Passes reader.skipBlanks :=
  ⟨_, List.takeWhile_append_dropWhile.symm, rfl⟩

theorem passes_of_readHere (took : reader.readHere = .ok token after) : reader.Passes after := by
  unfold readHere at took
  split at took
  · cases took
    exact .refl _
  · rename_i c tail text
    split at took
    · contradiction
    · rename_i found front
      cases took
      exact ⟨found.text, by rw [text, append_of_first? front], rfl⟩

theorem passes_of_read (took : reader.read = .ok token after) : reader.Passes after :=
  (passes_skipBlanks reader).trans (passes_of_readHere took)

theorem stuck_of_read (failed : reader.read = .error fault after) :
    after = reader.skipBlanks ∧ ∃ c rest, after.rest = c :: rest ∧ Stray c rest ∧
      fault = .strayCharacter c after.position.line after.position.column := by
  unfold read readHere at failed
  split at failed
  · contradiction
  · rename_i c tail behind
    split at failed
    · rename_i stuck
      cases failed
      have solid : Stops Char.isWhitespace (c :: tail) := by
        rw [← behind]
        exact stops_dropWhile reader.rest
      exact ⟨rfl, c, tail, behind, stray_iff.2 ⟨stops_cons.1 solid, stuck⟩, rfl⟩
    · contradiction

theorem blank_of_read (took : reader.read = .ok token after) (last : token.isEnd = true) :
    Run Char.isWhitespace reader.rest := by
  unfold read readHere at took
  split at took
  · rename_i behind
    exact List.dropWhile_eq_nil_iff.1 behind
  · split at took
    · contradiction
    · rename_i found front
      cases took
      simp [Reader.token, Token.isEnd, kind_ne_endOfInput front] at last

theorem passes_of_read_error (failed : reader.read = .error fault after) : reader.Passes after := by
  obtain ⟨rfl, -⟩ := stuck_of_read failed
  exact passes_skipBlanks reader

theorem skipBlanks_skipBlanks (reader : Reader) : reader.skipBlanks.skipBlanks = reader.skipBlanks := by
  have stops : Stops Char.isWhitespace reader.skipBlanks.rest := stops_dropWhile reader.rest
  have none_left := stops.takeWhile
  have whole := stops.dropWhile
  simp only [skipBlanks] at none_left whole ⊢
  rw [none_left, whole, Position.after_nil]

theorem read_end_again (took : reader.read = .ok token after) (last : token.isEnd = true) :
    after.read = .ok token after := by
  have here : after = reader.skipBlanks := by
    unfold read readHere at took
    split at took
    · cases took
      rfl
    · split at took
      · contradiction
      · rename_i found front
        cases took
        simp [Reader.token, Token.isEnd, kind_ne_endOfInput front] at last
  subst here
  rw [read, skipBlanks_skipBlanks]
  exact took

theorem read_again (failed : reader.read = .error fault after) : after.read = .error fault after := by
  obtain ⟨rfl, -⟩ := stuck_of_read failed
  rw [read, skipBlanks_skipBlanks]
  exact failed

end Reader

namespace Cursor

variable {cursor after : Cursor} {token : Token} {fault : Fault}

theorem passes_of_ofReader {reader : Reader} (begun : ofReader reader = .ok cursor) :
    reader.Passes cursor.toReader := by
  unfold ofReader at begun
  split at begun
  · rename_i took
    cases begun
    exact Reader.passes_of_read took
  · contradiction

theorem passes_of_advance (moved : cursor.advance = .ok token after) :
    cursor.toReader.Passes after.toReader := by
  obtain ⟨-, ⟨-, rfl⟩ | ⟨-, took⟩⟩ := advance_ok moved
  · exact .refl _
  · exact Reader.passes_of_read took

theorem passes_of_advance_error (failed : cursor.advance = .error fault after) :
    cursor.toReader.Passes after.toReader :=
  Reader.passes_of_read_error (advance_error failed).2.2

theorem stray_of_advance (failed : cursor.advance = .error fault after) :
    ∃ c line column, fault = .strayCharacter c line column :=
  Reader.stray_of_read (advance_error failed).2.2

/-- A move that fails leaves everything ahead as it was. -/
theorem ahead_after_error (failed : cursor.advance = .error fault after) :
    after.current = cursor.current ∧ after.ahead = cursor.ahead := by
  obtain ⟨more, same, stuck⟩ := advance_error failed
  refine ⟨same, ?_⟩
  simp [ahead, same, more, Scan.ofReader_of_error stuck, Scan.ofReader_of_error (Reader.read_again stuck)]

/-- What one move makes of a cursor, whether it succeeds or fails. -/
def MovesTo (before after : Cursor) : Prop :=
  (∃ token, before.advance = .ok token after) ∨ ∃ fault, before.advance = .error fault after

end Cursor

end NodeDump
