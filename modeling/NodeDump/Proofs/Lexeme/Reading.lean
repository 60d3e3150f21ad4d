import NodeDump.Proofs.Lexeme.NumberList

/-!
Lists of numbers taken apart, down to the signs and the digits. A text can be read as a list and something behind it
in one way at most.
-/

namespace NodeDump.NumberList
open Lexeme

/-- A number in a list and the blanks in front of it. -/
@[ext]
structure Numeral where
  blanks : List Char
  sign : List Char
  digits : List Char
  fraction : List Char
  blank : Run Char.isWhitespace blanks
  minus : sign = [] ∨ sign = ['-']
  some_digit : digits ≠ []
  all_digits : Run Char.isDigit digits
  point : fraction = [] ∨ ∃ decimals, fraction = '.' :: decimals ∧ Run Char.isDigit decimals

namespace Numeral

def text (numeral : Numeral) : List Char :=
  numeral.blanks ++ numeral.sign ++ numeral.digits ++ numeral.fraction

theorem isNumber (numeral : Numeral) : IsNumber numeral.text :=
  ⟨_, _, _, _, rfl, numeral.blank, numeral.minus, numeral.some_digit, numeral.all_digits, numeral.point⟩

theorem text_eq (numeral : Numeral) :
    numeral.text = numeral.blanks ++ (numeral.sign ++ (numeral.digits ++ numeral.fraction)) := by
  simp only [text, List.append_assoc]

theorem stops_blanks (numeral : Numeral) :
    Stops Char.isWhitespace (numeral.sign ++ (numeral.digits ++ numeral.fraction)) := by
  rcases numeral.minus with none | minus
  · obtain ⟨d, digits, same⟩ := List.exists_cons_of_ne_nil numeral.some_digit
    have digit : d.isDigit = true := numeral.all_digits d (by simp [same])
    rw [none, same, List.nil_append, List.cons_append, stops_cons]
    exact not_isWhitespace_of_isDigit digit
  · rw [minus, List.singleton_append, stops_cons]
    rfl

theorem dropSign_signed (numeral : Numeral) :
    dropSign (numeral.sign ++ (numeral.digits ++ numeral.fraction)) = numeral.digits ++ numeral.fraction := by
  rcases numeral.minus with none | minus
  · rw [none, List.nil_append]
    exact dropSign_digits numeral.some_digit numeral.all_digits
  · rw [minus]
    rfl

theorem stops_digits (numeral : Numeral) : Stops Char.isDigit numeral.fraction := by
  rcases numeral.point with none | ⟨decimals, point, -⟩
  · rw [none]
    exact stops_nil
  · rw [point, stops_cons]
    rfl

theorem text_injective : Function.Injective text := by
  intro first second same
  -- Each part is cut off where the next one starts, from the front to the back.
  rw [text_eq, text_eq] at same
  have blanks := congrArg (List.takeWhile Char.isWhitespace) same
  rw [first.blank.takeWhile_eq first.stops_blanks, second.blank.takeWhile_eq second.stops_blanks] at blanks
  rw [blanks, List.append_cancel_left_eq] at same
  have unsigned := congrArg dropSign same
  rw [dropSign_signed, dropSign_signed] at unsigned
  rw [unsigned, List.append_cancel_right_eq] at same
  have digits := congrArg (List.takeWhile Char.isDigit) unsigned
  rw [first.all_digits.takeWhile_eq first.stops_digits, second.all_digits.takeWhile_eq second.stops_digits] at digits
  rw [digits, List.append_cancel_left_eq] at unsigned
  exact Numeral.ext blanks same digits unsigned

end Numeral

def inside (numerals : List Numeral) (last : List Char) : List Char := numerals.flatMap Numeral.text ++ last

theorem inside_cons (numeral : Numeral) (later : List Numeral) (last : List Char) :
    inside (numeral :: later) last = numeral.text ++ inside later last := by
  simp only [inside, List.flatMap_cons, List.append_assoc]

def Separate (last : List Char) : List Numeral → Prop
  | [] => True
  | _ :: later => EndsNumber (inside later last) ∧ Separate last later

theorem exists_inside {text : List Char} (numbers : Numbers text) :
    ∃ numerals last, text = inside numerals last ∧ Separate last numerals ∧ Run Char.isWhitespace last := by
  induction numbers with
  | @blanks last run => exact ⟨[], last, rfl, trivial, run⟩
  | cons isNumber ends _ ih =>
    obtain ⟨later, last, rfl, separate, blank⟩ := ih
    obtain ⟨blanks, sign, digits, fraction, rfl, front, minus, some_digit, all, point⟩ := isNumber
    let numeral : Numeral := ⟨blanks, sign, digits, fraction, front, minus, some_digit, all, point⟩
    exact ⟨numeral :: later, last, (inside_cons numeral later last).symm, ⟨ends, separate⟩, blank⟩

theorem inside_injective {numerals numerals' : List Numeral} {last last' : List Char}
    (separate : Separate last numerals) (separate' : Separate last' numerals')
    (blank : Run Char.isWhitespace last) (blank' : Run Char.isWhitespace last')
    (same : inside numerals last = inside numerals' last') : numerals = numerals' ∧ last = last' := by
  induction numerals generalizing numerals' with
  | nil =>
    cases numerals' with
    | nil => exact ⟨rfl, same⟩
    | cons numeral' later' =>
      have found := afterNumber?_complete numeral'.isNumber separate'.1
      rw [← inside_cons, ← same] at found
      have stuck : afterNumber? (inside [] last) = none := afterNumber?_blanks blank
      rw [stuck] at found
      contradiction
  | cons numeral later ih =>
    have found := afterNumber?_complete numeral.isNumber separate.1
    rw [← inside_cons] at found
    cases numerals' with
    | nil =>
      have stuck : afterNumber? (inside [] last') = none := afterNumber?_blanks blank'
      rw [same, stuck] at found
      contradiction
    | cons numeral' later' =>
      have found' := afterNumber?_complete numeral'.isNumber separate'.1
      rw [← inside_cons, ← same, found] at found'
      have behind := Option.some.inj found'
      -- What is behind the first numbers is the same, and so they are the same.
      obtain ⟨rest, lasts⟩ := ih separate.2 separate'.2 behind
      rw [inside_cons, inside_cons, behind, List.append_cancel_right_eq] at same
      exact ⟨by rw [Numeral.text_injective same, rest], lasts⟩

/-- A list of numbers taken apart. -/
@[ext]
structure Reading where
  blanks : List Char
  numerals : List Numeral
  last : List Char
  blank : Run Char.isWhitespace blanks
  separate : Separate last numerals
  lastBlank : Run Char.isWhitespace last

namespace Reading

def text (reading : Reading) : List Char :=
  reading.blanks ++ '[' :: inside reading.numerals reading.last ++ [']']

theorem text_injective : Function.Injective text := by
  intro first second same
  simp only [text, List.append_assoc, List.cons_append] at same
  have stops (rest : List Char) : Stops Char.isWhitespace ('[' :: rest) := stops_cons.2 rfl
  have blanks := congrArg (List.takeWhile Char.isWhitespace) same
  rw [first.blank.takeWhile_eq (stops _), second.blank.takeWhile_eq (stops _)] at blanks
  rw [blanks, List.append_cancel_left_eq, List.cons.injEq, List.append_cancel_right_eq] at same
  obtain ⟨numerals, lasts⟩ := inside_injective first.separate second.separate first.lastBlank second.lastBlank same.2
  exact Reading.ext blanks numerals lasts

end Reading

theorem existsUnique_reading {text : List Char} (isList : IsNumberList text) :
    ∃! reading : Reading, reading.text = text := by
  obtain ⟨blanks, numbers, rfl, blank, areNumbers⟩ := isList
  obtain ⟨numerals, last, rfl, separate, lastBlank⟩ := exists_inside areNumbers
  let reading : Reading := ⟨blanks, numerals, last, blank, separate, lastBlank⟩
  exact ⟨reading, rfl, fun other same => Reading.text_injective same⟩

theorem eq_of_prefix {text other cs : List Char} (isList : IsNumberList text) (isOther : IsNumberList other)
    (front : text <+: cs) (front' : other <+: cs) : other = text := by
  obtain ⟨rest, rfl⟩ := front
  obtain ⟨rest', same⟩ := front'
  have found := split?_complete isOther rest'
  rw [same, split?_complete isList rest] at found
  exact (Prod.mk.inj (Option.some.inj found)).1.symm

theorem exists_bracket {text : List Char} (isList : IsNumberList text) :
    ∃ blanks inside, text = blanks ++ '[' :: inside ++ [']'] ∧ Run Char.isWhitespace blanks ∧ ']' ∉ inside := by
  obtain ⟨blanks, inside, same, blank, numbers⟩ := isList
  exact ⟨blanks, inside, same, blank, numbers.closing_not_mem⟩

end NodeDump.NumberList
