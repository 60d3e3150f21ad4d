import NodeDump.Lexeme.NumberList
import NodeDump.Proofs.Lexeme.Run

/-!
The reader of number lists against their language. Each step takes a number exactly when one stands there
and what follows cannot belong to it, so a list is read whatever stands behind its bracket.
-/

namespace NodeDump.Lexeme

theorem EndsNumber.stops {rest : List Char} (ends : EndsNumber rest) : Stops Char.isDigit rest :=
  fun c front => (ends c front).1

theorem IsNumber.closing_not_mem {number : List Char} (isNumber : IsNumber number) : ']' ∉ number := by
  obtain ⟨blanks, sign, digits, fraction, rfl, blank, minus, -, all, point⟩ := isNumber
  have no_blank := blank.not_mem (c := ']') (by decide)
  have no_digit := all.not_mem (c := ']') (by decide)
  have no_sign : ']' ∉ sign := by rcases minus with rfl | rfl <;> simp
  have no_fraction : ']' ∉ fraction := by
    rcases point with rfl | ⟨decimals, rfl, run⟩
    · simp
    · simp [run.not_mem (c := ']') (by decide)]
  simp [no_blank, no_sign, no_digit, no_fraction]

theorem Numbers.closing_not_mem {inside : List Char} (numbers : Numbers inside) : ']' ∉ inside := by
  induction numbers with
  | blanks run => exact run.not_mem (by decide)
  | cons isNumber _ _ ih => simp [isNumber.closing_not_mem, ih]

end NodeDump.Lexeme

namespace NodeDump.NumberList
open Lexeme

theorem dropFraction_decimals {decimals rest : List Char} (all : Run Char.isDigit decimals)
    (stops : Stops Char.isDigit rest) : dropFraction ('.' :: (decimals ++ rest)) = rest := by
  simp only [dropFraction]
  rw [all.dropWhile_eq stops]

theorem dropSign_of_head {cs : List Char} (other : cs.head? ≠ some '-') : dropSign cs = cs := by
  unfold dropSign
  split
  · exact absurd rfl other
  · rfl

theorem dropFraction_of_head {cs : List Char} (other : cs.head? ≠ some '.') : dropFraction cs = cs := by
  unfold dropFraction
  split
  · exact absurd rfl other
  · rfl

theorem dropFraction_of_ends {rest : List Char} (ends : EndsNumber rest) : dropFraction rest = rest :=
  dropFraction_of_head fun point => (ends '.' point).2 rfl

theorem afterUnsigned?_complete {digits fraction rest : List Char} (some_digit : digits ≠ [])
    (all : Run Char.isDigit digits)
    (point : fraction = [] ∨ ∃ decimals, fraction = '.' :: decimals ∧ Run Char.isDigit decimals)
    (ends : EndsNumber rest) : afterUnsigned? (digits ++ fraction ++ rest) = some rest := by
  obtain ⟨d, digits, rfl⟩ := List.exists_cons_of_ne_nil some_digit
  simp only [List.cons_append, afterUnsigned?, all d List.mem_cons_self, if_true, List.append_assoc,
    all.tail.dropWhile_append]
  rcases point with rfl | ⟨decimals, rfl, run⟩
  · rw [List.nil_append, ends.stops.dropWhile, dropFraction_of_ends ends]
  · have stop : Stops Char.isDigit ('.' :: decimals ++ rest) := by simp
    rw [stop.dropWhile, List.cons_append, dropFraction_decimals run ends.stops]

theorem not_isWhitespace_of_isDigit {c : Char} (digit : c.isDigit = true) : c.isWhitespace = false := by
  by_cases blank : c.isWhitespace = true
  · rcases Text.isWhitespace_iff.1 blank with rfl | rfl | rfl | rfl <;> simp at digit
  · simpa using blank

theorem dropSign_digits {digits rest : List Char} (some_digit : digits ≠ [])
    (all : Run Char.isDigit digits) : dropSign (digits ++ rest) = digits ++ rest := by
  obtain ⟨d, digits, rfl⟩ := List.exists_cons_of_ne_nil some_digit
  have digit := all d List.mem_cons_self
  apply dropSign_of_head
  intro minus
  obtain rfl : d = '-' := by simpa using minus
  contradiction

theorem afterNumber?_complete {number rest : List Char} (isNumber : IsNumber number)
    (ends : EndsNumber rest) : afterNumber? (number ++ rest) = some rest := by
  obtain ⟨blanks, sign, digits, fraction, rfl, blank, minus, some_digit, all, point⟩ := isNumber
  have unsigned := afterUnsigned?_complete some_digit all point ends
  simp only [List.append_assoc] at unsigned ⊢
  rw [afterNumber?, blank.dropWhile_append]
  rcases minus with rfl | rfl
  · have solid : Stops Char.isWhitespace (digits ++ (fraction ++ rest)) := by
      obtain ⟨d, digits, rfl⟩ := List.exists_cons_of_ne_nil some_digit
      exact stops_cons.2 (not_isWhitespace_of_isDigit (all d List.mem_cons_self))
    rw [List.nil_append, solid.dropWhile, dropSign_digits some_digit all, unsigned]
  · have solid : Stops Char.isWhitespace (['-'] ++ (digits ++ (fraction ++ rest))) := by simp
    rw [solid.dropWhile, List.singleton_append, dropSign, unsigned]

theorem afterNumber?_blanks {blanks : List Char} (run : Run Char.isWhitespace blanks) :
    afterNumber? blanks = none := by
  have none_left : blanks.dropWhile Char.isWhitespace = [] := List.dropWhile_eq_nil_iff.2 run
  rw [afterNumber?, none_left]
  rfl

theorem areNumbers_of_some {cs rest : List Char} (found : afterNumber? cs = some rest) :
    areNumbers cs = areNumbers rest := by
  rw [areNumbers]
  split
  · rename_i behind same
    rw [found] at same
    rw [Option.some.inj same]
  · rename_i stuck
    rw [found] at stuck
    contradiction

theorem areNumbers_of_none {cs : List Char} (stuck : afterNumber? cs = none) :
    areNumbers cs = cs.all Char.isWhitespace := by
  rw [areNumbers]
  split
  · rename_i behind same
    rw [stuck] at same
    contradiction
  · rfl

theorem areNumbers_complete {cs : List Char} (numbers : Numbers cs) : areNumbers cs = true := by
  induction numbers with
  | blanks run =>
    rw [areNumbers_of_none (afterNumber?_blanks run)]
    exact List.all_eq_true.2 run
  | cons isNumber ends _ ih => rw [areNumbers_of_some (afterNumber?_complete isNumber ends), ih]

theorem dropSign_split (cs : List Char) :
    ∃ sign, (sign = [] ∨ sign = ['-']) ∧ cs = sign ++ dropSign cs := by
  unfold dropSign
  split
  · exact ⟨['-'], Or.inr rfl, rfl⟩
  · exact ⟨[], Or.inl rfl, rfl⟩

theorem dropFraction_split {cs : List Char} (stops : Stops Char.isDigit cs) :
    ∃ fraction, (fraction = [] ∨ ∃ decimals, fraction = '.' :: decimals ∧ Run Char.isDigit decimals) ∧
      cs = fraction ++ dropFraction cs ∧ Stops Char.isDigit (dropFraction cs) := by
  unfold dropFraction
  split
  · rename_i behind
    exact ⟨'.' :: behind.takeWhile Char.isDigit, Or.inr ⟨_, rfl, run_takeWhile behind⟩,
      by simp, stops_dropWhile behind⟩
  · exact ⟨[], Or.inl rfl, rfl, stops⟩

theorem afterUnsigned?_sound {cs rest : List Char} (found : afterUnsigned? cs = some rest) :
    ∃ digits fraction, cs = digits ++ fraction ++ rest ∧ digits ≠ [] ∧ Run Char.isDigit digits ∧
      (fraction = [] ∨ ∃ decimals, fraction = '.' :: decimals ∧ Run Char.isDigit decimals) ∧
      Stops Char.isDigit rest := by
  cases cs with
  | nil => simp [afterUnsigned?] at found
  | cons c tail =>
    rw [afterUnsigned?] at found
    split at found
    · rename_i digit
      obtain ⟨fraction, point, split, stops⟩ := dropFraction_split (stops_dropWhile (p := Char.isDigit) tail)
      rw [Option.some.inj found] at split stops
      refine ⟨c :: tail.takeWhile Char.isDigit, fraction, ?_, by simp, ?_, point, stops⟩
      · rw [List.cons_append, List.cons_append, List.append_assoc, ← split, List.takeWhile_append_dropWhile]
      · intro d member
        rcases List.mem_cons.1 member with rfl | later
        · exact digit
        · exact run_takeWhile tail d later
    · simp at found

theorem afterNumber?_sound {cs rest : List Char} (found : afterNumber? cs = some rest) :
    ∃ number, cs = number ++ rest ∧ IsNumber number ∧ Stops Char.isDigit rest := by
  obtain ⟨digits, fraction, unsigned, some_digit, all, point, stops⟩ := afterUnsigned?_sound found
  obtain ⟨sign, minus, signed⟩ := dropSign_split (cs.dropWhile Char.isWhitespace)
  refine ⟨cs.takeWhile Char.isWhitespace ++ sign ++ digits ++ fraction, ?_,
    ⟨_, sign, digits, fraction, rfl, run_takeWhile cs, minus, some_digit, all, point⟩, stops⟩
  calc
    cs = cs.takeWhile Char.isWhitespace ++ cs.dropWhile Char.isWhitespace :=
      List.takeWhile_append_dropWhile.symm
    _ = cs.takeWhile Char.isWhitespace ++ (sign ++ (digits ++ fraction ++ rest)) := by
      rw [← unsigned, ← signed]
    _ = _ := by simp only [List.append_assoc]

theorem areNumbers_point (rest : List Char) : areNumbers ('.' :: rest) = false := by
  have stuck : afterNumber? ('.' :: rest) = none := rfl
  rw [areNumbers_of_none stuck]
  rfl

theorem areNumbers_sound (cs : List Char) (numbers : areNumbers cs = true) : Numbers cs := by
  fun_induction areNumbers cs with
  | case1 cs rest found ih =>
    obtain ⟨number, rfl, isNumber, stops⟩ := afterNumber?_sound found
    refine .cons isNumber (fun c front => ⟨stops c front, ?_⟩) (ih numbers)
    rintro rfl
    -- No list goes on with a second point, so the numbers behind this one rule it out.
    obtain ⟨behind, rfl⟩ := List.head?_eq_some_iff.1 front
    rw [areNumbers_point] at numbers
    contradiction
  | case2 cs stuck => exact .blanks (List.all_eq_true.1 numbers)

theorem enclosed?_complete {inside : List Char} (numbers : Numbers inside) (rest : List Char) :
    enclosed? (inside ++ ']' :: rest) = some (inside ++ [']'], rest) := by
  have open_run : Run (fun c => decide (c ≠ ']')) inside := by
    intro c member
    have apart : c ≠ ']' := ne_of_mem_of_not_mem member numbers.closing_not_mem
    simpa using apart
  have closed : Stops (fun c => decide (c ≠ ']')) (']' :: rest) := by simp
  simp only [enclosed?, open_run.dropWhile_eq closed, open_run.takeWhile_eq closed, areNumbers_complete numbers,
    if_true]

theorem enclosed?_sound {cs text rest : List Char} (found : enclosed? cs = some (text, rest)) :
    ∃ inside, text = inside ++ [']'] ∧ Numbers inside := by
  unfold enclosed? at found
  split at found
  · split at found
    · rename_i numbers
      simp only [Option.some.injEq, Prod.mk.injEq] at found
      exact ⟨_, found.1.symm, areNumbers_sound _ numbers⟩
    · simp at found
  · simp at found

theorem split?_complete {list : List Char} (isList : IsNumberList list) (rest : List Char) :
    split? (list ++ rest) = some (list, rest) := by
  obtain ⟨blanks, inside, rfl, blank, numbers⟩ := isList
  have solid : Stops Char.isWhitespace ('[' :: (inside ++ ']' :: rest)) := by simp
  have whole : blanks ++ '[' :: inside ++ [']'] ++ rest = blanks ++ '[' :: (inside ++ ']' :: rest) := by simp
  rw [whole]
  simp only [split?, blank.dropWhile_eq solid, blank.takeWhile_eq solid, enclosed?_complete numbers, Option.map_some,
    List.append_assoc, List.cons_append]

theorem split?_sound {cs text rest : List Char} (found : split? cs = some (text, rest)) :
    IsNumberList text := by
  unfold split? at found
  split at found
  · obtain ⟨⟨inside, behind⟩, closed, same⟩ := Option.map_eq_some_iff.1 found
    obtain ⟨numbers, rfl, areNumbers⟩ := enclosed?_sound closed
    simp only [Prod.mk.injEq] at same
    exact ⟨_, numbers, by rw [← same.1]; simp, run_takeWhile cs, areNumbers⟩
  · simp at found

theorem split?_of_bracket {cs tail : List Char} (front : cs.dropWhile Char.isWhitespace = '[' :: tail) :
    split? cs = none ↔ enclosed? tail = none := by
  rw [split?, front]
  exact Option.map_eq_none_iff

theorem split?_of_head {cs : List Char} (other : (cs.dropWhile Char.isWhitespace).head? ≠ some '[') :
    split? cs = none := by
  unfold split?
  split
  · rename_i cut
    rw [cut] at other
    exact absurd rfl other
  · rfl

theorem split?_blanks_eq_none {blanks : List Char} (run : Run Char.isWhitespace blanks) (cs : List Char) :
    split? (blanks ++ cs) = none ↔ split? cs = none := by
  simp only [split?, run.dropWhile_append]
  split <;> simp

end NodeDump.NumberList
