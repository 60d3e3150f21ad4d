import NodeDump.Proofs.Lexeme.NumberList

/-!
Lists of numbers read from left to right, each character once. A piece is as long as it can be, and the reader gives
up as soon as one does not fit. This reader finds just the lists there are.
-/

namespace NodeDump.NumberList
open Lexeme

/-- What is left once numbers, the blanks behind them and the closing bracket are taken off the front. -/
def afterNumbers? (cs : List Char) : Option (List Char) :=
  match _ : cs.dropWhile Char.isWhitespace with
  | ']' :: rest => some rest
  | solid =>
    match _ : afterUnsigned? (dropSign solid) with
    | some rest => afterNumbers? rest
    | none => none
termination_by cs.length
decreasing_by
  refine length_afterNumber?_lt ?_
  rw [afterNumber?, ‹cs.dropWhile _ = _›]
  assumption

def afterList? (cs : List Char) : Option (List Char) :=
  match cs.dropWhile Char.isWhitespace with
  | '[' :: tail => afterNumbers? tail
  | _ => none

variable {cs rest : List Char}

theorem afterNumbers?_of_bracket (closed : cs.dropWhile Char.isWhitespace = ']' :: rest) :
    afterNumbers? cs = some rest := by
  rw [afterNumbers?]
  split
  · rename_i same
    rw [closed] at same
    rw [(List.cons.inj same).2]
  · rename_i no_bracket
    exact absurd closed (no_bracket rest)

theorem afterNumbers?_of_open (no_bracket : (cs.dropWhile Char.isWhitespace).head? ≠ some ']') :
    afterNumbers? cs = (afterNumber? cs).bind afterNumbers? := by
  rw [afterNumbers?]
  split
  · rename_i closed
    rw [closed] at no_bracket
    exact absurd rfl no_bracket
  · rw [afterNumber?]
    split
    · rename_i found
      rw [found]
      rfl
    · rename_i stuck
      rw [stuck]
      rfl

theorem afterNumber?_of_bracket (closed : cs.dropWhile Char.isWhitespace = ']' :: rest) :
    afterNumber? cs = none := by
  rw [afterNumber?, closed]
  rfl

theorem open_of_number {behind : List Char} (found : afterNumber? cs = some behind) :
    (cs.dropWhile Char.isWhitespace).head? ≠ some ']' := by
  intro bracket
  obtain ⟨rest, closed⟩ := List.head?_eq_some_iff.1 bracket
  rw [afterNumber?_of_bracket closed] at found
  contradiction

theorem afterNumbers?_of_number {behind : List Char} (found : afterNumber? cs = some behind) :
    afterNumbers? cs = afterNumbers? behind := by
  rw [afterNumbers?_of_open (open_of_number found), found]
  rfl

theorem afterNumbers?_point (rest : List Char) : afterNumbers? ('.' :: rest) = none := by
  rw [afterNumbers?_of_open (by simp)]
  rfl

theorem afterNumbers?_complete {inside : List Char} (numbers : Numbers inside) (rest : List Char) :
    afterNumbers? (inside ++ ']' :: rest) = some rest := by
  induction numbers with
  | @blanks last run =>
    have solid : Stops Char.isWhitespace (']' :: rest) := stops_cons.2 rfl
    exact afterNumbers?_of_bracket (run.dropWhile_eq solid)
  | @cons number later isNumber ends _ ih =>
    have still : EndsNumber (later ++ ']' :: rest) := by
      cases later with
      | nil => simp [EndsNumber]
      | cons c later => simpa [EndsNumber] using ends
    rw [List.append_assoc, afterNumbers?_of_number (afterNumber?_complete isNumber still), ih]

theorem afterNumbers?_sound (found : afterNumbers? cs = some rest) :
    ∃ inside, cs = inside ++ ']' :: rest ∧ Numbers inside := by
  fun_induction afterNumbers? cs with
  | case1 cs behind closed =>
    obtain rfl := Option.some.inj found
    refine ⟨cs.takeWhile Char.isWhitespace, ?_, .blanks (run_takeWhile cs)⟩
    rw [← closed, List.takeWhile_append_dropWhile]
  | case2 cs behind no_bracket unsigned ih =>
    obtain ⟨number, whole, isNumber, stops⟩ := afterNumber?_sound (show afterNumber? cs = some behind from unsigned)
    obtain ⟨inside, rfl, numbers⟩ := ih found
    refine ⟨number ++ inside, by rw [whole, List.append_assoc], .cons isNumber ?_ numbers⟩
    intro c front
    obtain ⟨tail, rfl⟩ := List.head?_eq_some_iff.1 front
    refine ⟨stops c rfl, ?_⟩
    rintro rfl
    -- Behind a second point the reader has given up.
    rw [List.cons_append, afterNumbers?_point] at found
    contradiction
  | case3 cs no_bracket stuck => contradiction

theorem afterList?_eq_some_iff : afterList? cs = some rest ↔ ∃ text, IsNumberList text ∧ text ++ rest = cs := by
  constructor
  · intro found
    unfold afterList? at found
    split at found
    · rename_i tail opened
      obtain ⟨inside, rfl, numbers⟩ := afterNumbers?_sound found
      refine ⟨cs.takeWhile Char.isWhitespace ++ '[' :: inside ++ [']'], ⟨_, inside, rfl, run_takeWhile cs, numbers⟩, ?_⟩
      have whole := List.takeWhile_append_dropWhile (p := Char.isWhitespace) (l := cs)
      rw [opened] at whole
      simpa using whole
    · contradiction
  · rintro ⟨_, ⟨blanks, inside, rfl, blank, numbers⟩, rfl⟩
    have solid : Stops Char.isWhitespace ('[' :: (inside ++ ']' :: rest)) := stops_cons.2 rfl
    have whole : blanks ++ '[' :: inside ++ [']'] ++ rest = blanks ++ '[' :: (inside ++ ']' :: rest) := by simp
    rw [whole, afterList?, blank.dropWhile_eq solid]
    exact afterNumbers?_complete numbers rest

/-- The two ways to read a list come to the same end. -/
theorem afterList?_eq (cs : List Char) : afterList? cs = (split? cs).map Prod.snd := by
  apply Option.ext
  intro rest
  rw [afterList?_eq_some_iff, Option.map_eq_some_iff]
  constructor
  · rintro ⟨text, isList, rfl⟩
    exact ⟨_, split?_complete isList rest, rfl⟩
  · rintro ⟨⟨text, behind⟩, found, rfl⟩
    exact ⟨text, split?_sound found, append_of_split? found⟩

end NodeDump.NumberList
