import NodeDump.Proofs.Scan.Passage
import NodeDump.Start

/-!
The cursors that can be come by. One is started in a source, at whatever place, and moved on from there. Whether it
begins at its place or at the front because the index is negative, it has passed over the text up to where it stands,
and its token is a word that the source has.
-/

namespace NodeDump
open Lexeme

namespace Cursor

variable {cursor : Cursor} {source : String} {start : Start}

theorem ofStart_of_index_nonneg (front : 0 ≤ start.index) :
    ofStart source start = (ofSource source start.position).mapError .unread :=
  if_pos (Or.inl front)

theorem ofStart_default_iff : ofStart source {} = .ok cursor ↔ ofSource source = .ok cursor := by
  have same : ofStart source {} = (ofSource source).mapError .unread := ofStart_of_index_nonneg (by decide)
  rw [same]
  cases ofSource source <;> simp [Except.mapError]

/-- Either the cursor is read from its place in the source, or it is put on a token right at the front. -/
theorem ofStart_cases (begun : ofStart source start = .ok cursor) :
    ofSource source start.position = .ok cursor ∨
      ∃ found, first? source.toList = some found ∧ start.index < 0 ∧
        cursor = ⟨⟨found.rest, start.position.after found.text⟩,
          ⟨found.kind, start.line, start.column, String.ofList found.text⟩⟩ := by
  unfold ofStart at begun
  split at begun
  · cases read : ofSource source start.position with
    | ok first =>
      rw [read] at begun
      cases begun
      exact Or.inl rfl
    | error fault =>
      rw [read] at begun
      contradiction
  · rename_i other
    split at begun
    · rename_i found front
      cases begun
      exact Or.inr ⟨found, front, by omega, rfl⟩
    · contradiction

theorem passes_of_ofStart (begun : ofStart source start = .ok cursor) :
    (Reader.ofSource source start.position).Passes cursor.toReader := by
  rcases ofStart_cases begun with read | ⟨found, front, negative, rfl⟩
  · exact passes_of_ofReader read
  · refine ⟨found.text, ?_, rfl⟩
    have index : start.position.index = 0 := Int.toNat_of_nonpos (by omega)
    simp [Reader.ofSource, index, append_of_first? front]

theorem lexical_of_read {reader : Reader} (took : reader.read = .ok cursor.current cursor.toReader)
    (more : cursor.current.isEnd = false) : Lexical cursor.current.word := by
  obtain ⟨-, -, -, lexical, -⟩ := Reader.word_of_read took more
  exact lexical

theorem lexical_of_ofStart (begun : ofStart source start = .ok cursor) (more : cursor.current.isEnd = false) :
    Lexical cursor.current.word := by
  rcases ofStart_cases begun with read | ⟨found, front, -, rfl⟩
  · unfold ofSource ofReader at read
    split at read
    · rename_i took
      cases read
      exact lexical_of_read took more
    · contradiction
  · exact .of_first? front

/-- The cursors there are: those that start in a source, at any place, and those that moves lead to, failed ones too. -/
def Reached (cursor : Cursor) : Prop :=
  ∃ source start first, ofStart source start = .ok first ∧ Relation.ReflTransGen MovesTo first cursor

namespace Reached

theorem of_source {position : Position} (begun : ofSource source position = .ok cursor) : cursor.Reached := by
  refine ⟨source, ⟨position.index, position.line, position.lineStart⟩, cursor, ?_, .refl⟩
  rw [ofStart_of_index_nonneg (Int.natCast_nonneg _)]
  exact congrArg (Except.mapError StartFault.unread) begun

theorem lexical (reached : cursor.Reached) (more : cursor.current.isEnd = false) : Lexical cursor.current.word := by
  obtain ⟨source, start, first, begun, moves⟩ := reached
  induction moves with
  | refl => exact lexical_of_ofStart begun more
  | tail _ move ih =>
    -- Only a move that succeeds comes to another token, which it has read.
    rcases move with ⟨token, moved⟩ | ⟨fault, failed⟩
    · obtain ⟨-, ⟨-, rfl⟩ | ⟨-, took⟩⟩ := advance_ok moved
      · exact ih more
      · exact lexical_of_read took more
    · have same := (ahead_after_error failed).1
      rw [same] at more ⊢
      exact ih more

theorem lexical_ahead (reached : cursor.Reached) : ∀ token ∈ cursor.ahead.tokens, Lexical token.word := by
  intro token member
  cases last : cursor.current.isEnd with
  | true => simp [ahead_of_end last] at member
  | false =>
    simp only [ahead, last, Bool.false_eq_true, if_false] at member
    rcases List.mem_cons.1 member with rfl | later
    · exact reached.lexical last
    · exact Scan.lexical_of_mem token later

end Reached

end Cursor

end NodeDump
