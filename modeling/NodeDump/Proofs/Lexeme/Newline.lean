import NodeDump.Proofs.Lexeme.Longest
import NodeDump.Text.Newline

/-!
Line breaks on the way in, and where lexemes are cut off. No class of characters tells a carriage return from a line
feed, so each cut falls at the same place. What ends a lexeme still ends it, and a stray character stays one.
-/

namespace NodeDump.Text
open Lexeme

/-- The characters of a text that starts at the beginning of a line. -/
def newlines (text : List Char) : List Char := newlinesAfter '\n' text

theorem newlines_cons_eq (c : Char) (text : List Char) :
    newlines (c :: text) = (if c = '\r' then '\n' else c) :: newlinesAfter c text := by
  rw [newlines, newlinesAfter_cons, newlineAfter]
  split
  · rfl
  · simp

/-- A line feed in front counts only if it does not belong to a carriage return. -/
theorem newlinesAfter_eq {before : Char} {text : List Char} (apart : before = '\r' → text.head? ≠ some '\n') :
    newlinesAfter before text = newlines text := by
  cases text with
  | nil => rfl
  | cons c text =>
    have other : ¬(c = '\n' ∧ before = '\r') := fun joined => apart joined.2 (by simp [joined.1])
    rw [newlines, newlinesAfter_cons, newlinesAfter_cons]
    simp [newlineAfter, other]

theorem newlines_cons {c : Char} (other : c ≠ '\r') (text : List Char) :
    newlines (c :: text) = c :: newlines text := by
  rw [newlines_cons_eq, if_neg other, newlinesAfter_eq fun same => absurd same other]

theorem newlines_eq_nil_iff {text : List Char} : newlines text = [] ↔ text = [] := by
  cases text with
  | nil => simp [newlines, newlinesAfter_nil]
  | cons c text => simp [newlines_cons_eq]

theorem head?_newlines_iff {c : Char} (solid : c.isWhitespace = false) {text : List Char} :
    (newlines text).head? = some c ↔ text.head? = some c := by
  cases text with
  | nil => exact Iff.rfl
  | cons d text =>
    rw [newlines_cons_eq, List.head?_cons, List.head?_cons, Option.some.injEq, Option.some.injEq]
    split
    · rename_i carriage
      have other (blank : Char) (white : blank.isWhitespace = true) : blank ≠ c := by
        rintro rfl
        rw [white] at solid
        contradiction
      rw [carriage]
      exact iff_of_false (other '\n' (by decide)) (other '\r' (by decide))
    · rfl

theorem newlinesAfter_append (before : Char) (first : List Char) {rest : List Char} (solid : rest.head? ≠ some '\n') :
    newlinesAfter before (first ++ rest) = newlinesAfter before first ++ newlines rest := by
  induction first generalizing before with
  | nil => exact newlinesAfter_eq fun _ => solid
  | cons c first ih => rw [List.cons_append, newlinesAfter_cons, newlinesAfter_cons, ih, List.append_assoc]

theorem newlines_append {first : List Char} (clean : '\r' ∉ first) (rest : List Char) :
    newlines (first ++ rest) = first ++ newlines rest := by
  induction first with
  | nil => rfl
  | cons c first ih =>
    have apart := List.ne_of_not_mem_cons clean
    rw [List.cons_append, newlines_cons apart.symm, ih (List.not_mem_of_not_mem_cons clean), List.cons_append]

section Class

variable {p : Char → Bool} (same : p '\r' = p '\n')
include same

theorem run_newlineAfter {c : Char} (inside : p c = true) (before : Char) : Run p (newlineAfter before c).toList := by
  intro d member
  unfold newlineAfter at member
  split at member
  · rename_i carriage
    obtain rfl : d = '\n' := by simpa using member
    rw [← same, ← carriage, inside]
  · split at member
    · contradiction
    · obtain rfl : d = c := by simpa using member
      exact inside

theorem newlineAfter_of_not {c before : Char} (outside : p c = false) (start : before = '\r' → p '\r' = true) :
    ∃ d, newlineAfter before c = some d ∧ p d = false := by
  unfold newlineAfter
  split
  · rename_i carriage
    exact ⟨'\n', rfl, by rw [← same, ← carriage, outside]⟩
  · split
    · rename_i joined
      rw [same, ← joined.1, outside] at start
      exact absurd (start joined.2) (by decide)
    · exact ⟨c, rfl, outside⟩

theorem dropWhile_newlinesAfter {before : Char} (start : before = '\r' → p '\r' = true) (text : List Char) :
    (newlinesAfter before text).dropWhile p = newlines (text.dropWhile p) := by
  induction text generalizing before with
  | nil => rfl
  | cons c text ih =>
    cases inside : p c with
    | true =>
      rw [newlinesAfter_cons, (run_newlineAfter same inside before).dropWhile_append,
        List.dropWhile_cons_of_pos inside, ih fun carriage => carriage ▸ inside]
    | false =>
      -- What stays in front does not follow a carriage return, or the class would hold it.
      have apart : before = '\r' → (c :: text).head? ≠ some '\n' := by
        intro carriage feed
        obtain rfl : c = '\n' := by simpa using feed
        rw [same, inside] at start
        exact absurd (start carriage) (by decide)
      obtain ⟨d, kept, outside⟩ := newlineAfter_of_not same inside start
      rw [List.dropWhile_cons_of_neg (by simp [inside]), ← newlinesAfter_eq apart, newlinesAfter_cons, kept]
      simp [outside]

theorem takeWhile_newlinesAfter {before : Char} (start : before = '\r' → p '\r' = true) (text : List Char) :
    (newlinesAfter before text).takeWhile p = newlinesAfter before (text.takeWhile p) := by
  induction text generalizing before with
  | nil => rfl
  | cons c text ih =>
    rw [newlinesAfter_cons]
    cases inside : p c with
    | true =>
      rw [(run_newlineAfter same inside before).takeWhile_append, List.takeWhile_cons_of_pos inside,
        newlinesAfter_cons, ih fun carriage => carriage ▸ inside]
    | false =>
      obtain ⟨d, kept, outside⟩ := newlineAfter_of_not same inside start
      simp [kept, outside, inside, newlinesAfter_nil]

theorem dropWhile_newlines (text : List Char) : (newlines text).dropWhile p = newlines (text.dropWhile p) :=
  dropWhile_newlinesAfter same (fun carriage => absurd carriage (by decide)) text

theorem takeWhile_newlines (text : List Char) : (newlines text).takeWhile p = newlines (text.takeWhile p) :=
  takeWhile_newlinesAfter same (fun carriage => absurd carriage (by decide)) text

theorem stops_newlines_iff {text : List Char} : Stops p (newlines text) ↔ Stops p text := by
  cases text with
  | nil => exact Iff.rfl
  | cons c text =>
    rw [newlines_cons_eq, stops_cons, stops_cons]
    split
    · rename_i carriage
      rw [carriage, same]
    · rfl

theorem run_newlines_iff {text : List Char} : Run p (newlines text) ↔ Run p text := by
  rw [Run, Run, ← List.dropWhile_eq_nil_iff, ← List.dropWhile_eq_nil_iff, dropWhile_newlines same,
    newlines_eq_nil_iff]

end Class

end NodeDump.Text

namespace NodeDump.NumberList
open Lexeme Text

theorem dropSign_newlines (cs : List Char) : dropSign (newlines cs) = newlines (dropSign cs) := by
  by_cases minus : cs.head? = some '-'
  · obtain ⟨rest, rfl⟩ := List.head?_eq_some_iff.1 minus
    rw [newlines_cons (by decide)]
    rfl
  · have still := (head?_newlines_iff (by decide)).not.2 minus
    rw [dropSign_of_head minus, dropSign_of_head still]

theorem dropFraction_newlines (cs : List Char) : dropFraction (newlines cs) = newlines (dropFraction cs) := by
  by_cases point : cs.head? = some '.'
  · obtain ⟨rest, rfl⟩ := List.head?_eq_some_iff.1 point
    rw [newlines_cons (by decide)]
    exact dropWhile_newlines (by decide) rest
  · have still := (head?_newlines_iff (by decide)).not.2 point
    rw [dropFraction_of_head point, dropFraction_of_head still]

theorem afterUnsigned?_newlines (cs : List Char) : afterUnsigned? (newlines cs) = (afterUnsigned? cs).map newlines := by
  cases cs with
  | nil => rfl
  | cons c cs =>
    by_cases digit : c.isDigit = true
    · have other : c ≠ '\r' := by
        rintro rfl
        contradiction
      rw [newlines_cons other]
      simp only [afterUnsigned?, digit, if_true, Option.map_some]
      rw [dropWhile_newlines (by decide), dropFraction_newlines]
    · have still : Stops Char.isDigit (newlines (c :: cs)) :=
        (stops_newlines_iff (by decide)).2 (stops_cons.2 (by simpa using digit))
      rw [newlines_cons_eq] at still ⊢
      simp [afterUnsigned?, digit, stops_cons.1 still]

theorem afterNumber?_newlines (cs : List Char) : afterNumber? (newlines cs) = (afterNumber? cs).map newlines := by
  rw [afterNumber?, afterNumber?, dropWhile_newlines (by decide), dropSign_newlines, afterUnsigned?_newlines]

theorem areNumbers_newlines (cs : List Char) : areNumbers (newlines cs) = areNumbers cs := by
  fun_induction areNumbers cs with
  | case1 cs rest found ih =>
    have taken : afterNumber? (newlines cs) = some (newlines rest) := by rw [afterNumber?_newlines, found]; rfl
    rw [areNumbers_of_some taken, ih]
  | case2 cs stuck =>
    have none_taken : afterNumber? (newlines cs) = none := by rw [afterNumber?_newlines, stuck]; rfl
    rw [areNumbers_of_none none_taken, Bool.eq_iff_iff, List.all_eq_true, List.all_eq_true]
    exact run_newlines_iff (by decide)

theorem enclosed?_newlines_eq_none_iff (cs : List Char) : enclosed? (newlines cs) = none ↔ enclosed? cs = none := by
  have inside := takeWhile_newlines (p := fun c => decide (c ≠ ']')) (by decide) cs
  have behind := dropWhile_newlines (p := fun c => decide (c ≠ ']')) (by decide) cs
  have closed : Stops (fun c => decide (c ≠ ']')) (cs.dropWhile fun c => decide (c ≠ ']')) := stops_dropWhile cs
  rw [enclosed?, enclosed?, inside, behind, areNumbers_newlines]
  cases cut : cs.dropWhile (fun c => decide (c ≠ ']')) with
  | nil => exact Iff.rfl
  | cons c rest =>
    rw [cut, stops_cons] at closed
    obtain rfl : c = ']' := by simpa using closed
    rw [newlines_cons (by decide)]
    simp only
    split <;> simp

theorem split?_newlines_eq_none_iff (cs : List Char) : split? (newlines cs) = none ↔ split? cs = none := by
  have front := dropWhile_newlines (p := Char.isWhitespace) (by decide) cs
  by_cases bracket : (cs.dropWhile Char.isWhitespace).head? = some '['
  · obtain ⟨tail, cut⟩ := List.head?_eq_some_iff.1 bracket
    rw [cut, newlines_cons (by decide)] at front
    rw [split?_of_bracket front, split?_of_bracket cut]
    exact enclosed?_newlines_eq_none_iff tail
  · have still : ((newlines cs).dropWhile Char.isWhitespace).head? ≠ some '[' := by
      rw [front]
      exact (head?_newlines_iff (by decide)).not.2 bracket
    exact iff_of_true (split?_of_head still) (split?_of_head bracket)

end NodeDump.NumberList

theorem NodeDump.Literal.close?_newlines_of_none {escaped : Bool} {seen cs : List Char}
    (none_closes : close? escaped seen cs = none) : close? escaped seen (Text.newlines cs) = none := by
  induction cs generalizing escaped seen with
  | nil => rfl
  | cons c cs ih =>
    by_cases carriage : c = '\r'
    · rw [Text.newlines_cons_eq, if_pos carriage]
      cases escaped <;> rfl
    · rw [Text.newlines_cons carriage]
      unfold close? at none_closes ⊢
      split_ifs at none_closes ⊢ with charge special quote feed
      · exact ih none_closes
      · rfl
      · rfl
      · exact ih none_closes

namespace NodeDump.Lexeme
open Text

theorem part?_newlines_eq_none_iff (cs : List Char) : Atom.part? (newlines cs) = none ↔ Atom.part? cs = none := by
  rw [Atom.part?_eq_none_iff, Atom.part?_eq_none_iff, stops_newlines_iff (by decide),
    NumberList.split?_newlines_eq_none_iff]

theorem ends_newlines_iff (kind : Kind) (text rest : List Char) :
    Ends kind text (newlines rest) ↔ Ends kind text rest := by
  cases kind with
  | nodeStart | key => exact stops_newlines_iff (by decide)
  | arrayStart => exact imp_congr_right fun _ => stops_newlines_iff (by decide)
  | atom => exact part?_newlines_eq_none_iff rest
  | nodeEnd | arrayEnd | string | endOfInput => exact Iff.rfl

theorem Stray.newlines {c : Char} {rest : List Char} (stray : Stray c rest) : Stray c (newlines rest) := by
  obtain ⟨solid, stuck⟩ := stray_iff.1 stray
  refine stray_iff.2 ⟨solid, ?_⟩
  have whole : Text.newlines (c :: rest) = c :: Text.newlines rest := by
    apply newlines_cons
    rintro rfl
    contradiction
  simp only [first?] at stuck ⊢
  split_ifs at stuck ⊢ with blank quote colon node nodeEnd array arrayEnd
  · rfl
  · subst quote
    exact Option.map_eq_none_iff.2 (Literal.close?_newlines_of_none (Option.map_eq_none_iff.1 stuck))
  · exact named?_eq_none_iff.2 ((stops_newlines_iff (by decide)).2 (named?_eq_none_iff.1 stuck))
  · exact named?_eq_none_iff.2 ((stops_newlines_iff (by decide)).2 (named?_eq_none_iff.1 stuck))
  · rw [← whole, atom?_eq_none_iff, part?_newlines_eq_none_iff]
    exact atom?_eq_none_iff.1 stuck

end NodeDump.Lexeme
