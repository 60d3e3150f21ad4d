import NodeDump.Proofs.Printer.Value
import NodeDump.Proofs.Scan.Counted
import NodeDump.Proofs.Scan.Munched

/-!
A cursor on its way through a text. Words that are munched are passed by as many moves, after which the cursor is
just the one that would be started behind them; and there is only one way to go, so a cursor is known by what it has
ahead.
-/

namespace NodeDump
open Lexeme

namespace Reader

theorem read_of_gap {gap : List Char} (blank : Run Char.isWhitespace gap) (rest : List Char) (position : Position) :
    read ⟨gap ++ rest, position⟩ = read ⟨rest, position.after gap⟩ := by
  simp only [read, skipBlanks, blank.dropWhile_append, blank.takeWhile_append, Position.after_append]

end Reader

namespace Cursor

variable {cursor after : Cursor} {last : Token}

theorem ofReader_of_gap {gap : List Char} (blank : Run Char.isWhitespace gap) (rest : List Char)
    (position : Position) : ofReader ⟨gap ++ rest, position⟩ = ofReader ⟨rest, position.after gap⟩ := by
  rw [ofReader, ofReader, Reader.read_of_gap blank]

theorem advance_of_ofReader (more : cursor.current.isEnd = false) (next : ofReader cursor.toReader = .ok after) :
    cursor.advance = .ok cursor.current after := by
  unfold ofReader at next
  split at next
  · rename_i took
    cases next
    simp [advance, more, took]
  · contradiction

theorem moves_of_munched {items : List (List Char × Word)} {rest : List Char} {reader : Reader}
    (munched : Munched rest items) (whole : reader.rest = spell items rest)
    (next : ofReader ⟨rest, reader.position.after (spell items [])⟩ = .ok after) :
    ∃ cursor, ofReader reader = .ok cursor ∧ Relation.ReflTransGen MovesTo cursor after ∧
      cursor.Coming (items.map Prod.snd) after.ahead := by
  induction items generalizing reader with
  | nil =>
    have here : reader = ⟨rest, reader.position⟩ := by rw [← show reader.rest = rest from whole]
    exact ⟨after, here ▸ next, .refl, [], rfl, rfl⟩
  | cons item items ih =>
    obtain ⟨blank, consumes, behind⟩ := munched
    have lexical : Lexical item.2 := ⟨consumes.language, consumes.solid⟩
    have ends := (first?_sound (consumes_iff.1 consumes)).2
    obtain ⟨token, left, took, word, later⟩ := Reader.read_lexical blank lexical whole ends
    have place : left.position = reader.position.after (item.1 ++ item.2.2.toList) := by
      apply (Reader.passes_of_read took).position
      rw [whole, later, List.append_assoc]
      rfl
    have there : reader.position.after (spell (item :: items) []) = left.position.after (spell items []) := by
      rw [place, ← Position.after_append, List.append_assoc]
      rfl
    obtain ⟨second, begun, moves, tokens, words, ahead⟩ := ih behind later (there ▸ next)
    have more : token.isEnd = false := (word ▸ lexical).isEnd_eq_false
    have begins : ofReader reader = .ok ⟨left, token⟩ := by rw [ofReader, took]
    have moved : (Cursor.mk left token).advance = .ok token second := advance_of_ofReader more begun
    refine ⟨⟨left, token⟩, begins, .head (Or.inl ⟨token, moved⟩) moves, token :: tokens, by simp [words, word], ?_⟩
    rw [ahead_of_advance moved more, ahead]
    rfl

theorem rightUnique_movesTo : Relator.RightUnique MovesTo := by
  intro cursor first second one other
  rcases one with ⟨token, one⟩ | ⟨fault, one⟩ <;> rcases other with ⟨token', other⟩ | ⟨fault', other⟩
  · exact (EStateM.Result.ok.inj (one.symm.trans other)).2
  · exact absurd (one.symm.trans other) (by simp)
  · exact absurd (one.symm.trans other) (by simp)
  · exact (EStateM.Result.error.inj (one.symm.trans other)).2

theorem fewer_of_moves (moves : Relation.ReflTransGen MovesTo cursor after) (ended : cursor.ahead.ending = .ok last) :
    after.ahead.ending = .ok last ∧
      (after = cursor ∨ after.ahead.tokens.length < cursor.ahead.tokens.length) := by
  induction moves with
  | refl => exact ⟨ended, Or.inl rfl⟩
  | @tail before after _ moved ih =>
    obtain ⟨ending, fewer⟩ := ih
    rcases moved with ⟨token, moved⟩ | ⟨fault, failed⟩
    · cases done : before.current.isEnd with
      | true =>
        obtain rfl := after_of_advance_end moved done
        exact ⟨ending, fewer⟩
      | false =>
        have ahead := ahead_of_advance moved done
        have count := congrArg (fun scan => scan.tokens.length) ahead
        simp only [List.length_cons] at count
        rw [ahead] at ending
        refine ⟨ending, Or.inr ?_⟩
        rcases fewer with rfl | fewer <;> omega
    · rw [(ahead_of_advance_error failed).2] at ending
      contradiction

/-- There is only one way to go, so cursors with the same ahead are the same. -/
theorem eq_of_moves {first second : Cursor} (one : Relation.ReflTransGen MovesTo cursor first)
    (other : Relation.ReflTransGen MovesTo cursor second) (ended : cursor.ahead.ending = .ok last)
    (same : first.ahead = second.ahead) : first = second := by
  rcases Relation.ReflTransGen.total_of_right_unique rightUnique_movesTo one other with on | on
  · rcases (fewer_of_moves on (fewer_of_moves one ended).1).2 with equal | fewer
    · exact equal.symm
    · rw [same] at fewer
      omega
  · rcases (fewer_of_moves on (fewer_of_moves other ended).1).2 with equal | fewer
    · exact equal
    · rw [same] at fewer
      omega

end Cursor

end NodeDump
