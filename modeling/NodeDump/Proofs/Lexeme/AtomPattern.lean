import NodeDump.Proofs.Lexeme.OnePass
import NodeDump.Proofs.Lexeme.Pattern
import NodeDump.Proofs.Lexeme.Pieces
import NodeDump.Proofs.Lexeme.Reading

/-!
The rule of atoms as a regular expression. A matcher with backtracking finds no more than one way to match a list of
numbers, and its first way to match an atom is the one that is cut off piece by piece.
-/

namespace NodeDump.Pattern
open Lexeme

def blanks : Pattern := star (one Char.isWhitespace)

def fraction : Pattern := seq (char '.') (star (one Char.isDigit))

def numberEnd : Pattern := notAhead (one fun c => c.isDigit || c == '.')

def unsigned : Pattern := seq (plus (one Char.isDigit)) (seq (maybe fraction) numberEnd)

def number : Pattern := seq blanks (seq (maybe (char '-')) unsigned)

def closing : Pattern := seq blanks (char ']')

def numberList : Pattern := seq blanks (seq (char '[') (seq (star number) closing))

def word : Pattern := plus (one Text.isWordChar)

def piece : Pattern := either word numberList

def atom : Pattern := plus piece

variable {cs rest : List Char} {c : Char}

theorem rests_char : (char c).rests (c :: rest) = [rest] := by simp [char]

theorem rests_char_of_ne {d : Char} (other : c ≠ d) : (char d).rests (c :: rest) = [] := by simp [char, other]

theorem rests_char_of_blank {d : Char} (solid : d.isWhitespace = false) (blank : c.isWhitespace = true) :
    (char d).rests (c :: rest) = [] := by
  apply rests_char_of_ne
  rintro rfl
  rw [solid] at blank
  contradiction

/-- A number is no match in front of a second point. -/
def unlessPoint (rest : List Char) : List (List Char) := if rest.head? = some '.' then [] else [rest]

theorem rests_numberEnd (stops : Stops Char.isDigit cs) : numberEnd.rests cs = unlessPoint cs := by
  cases cs with
  | nil => rfl
  | cons c cs =>
    have other := stops_cons.1 stops
    by_cases point : c = '.' <;> simp [numberEnd, unlessPoint, other, point]

theorem rests_numberEnd_digit (digit : c.isDigit = true) : numberEnd.rests (c :: rest) = [] := by
  simp [numberEnd, digit]

/-- Digits behind a point are matched to the last one, and a point has to be matched if it is there. -/
theorem rests_ending (stops : Stops Char.isDigit cs) :
    (seq (maybe fraction) numberEnd).rests cs = unlessPoint (NumberList.dropFraction cs) := by
  rw [rests_seq, maybe, rests_either, List.flatMap_append, rests_empty, List.flatMap_singleton, rests_numberEnd stops,
    fraction, rests_seq]
  cases cs with
  | nil => rfl
  | cons c tail =>
    by_cases point : c = '.'
    · subst point
      have run : (seq (star (one Char.isDigit)) numberEnd).rests tail = numberEnd.rests (tail.dropWhile Char.isDigit) :=
        rests_run_seq fun c rest digit => rests_numberEnd_digit digit
      rw [rests_seq, rests_numberEnd (stops_dropWhile tail)] at run
      simp [char, run, unlessPoint, NumberList.dropFraction]
    · have whole : NumberList.dropFraction (c :: tail) = c :: tail :=
        NumberList.dropFraction_of_head (by simpa using point)
      simp [char, point, whole]

theorem rests_ending_digit (digit : c.isDigit = true) : (seq (maybe fraction) numberEnd).rests (c :: rest) = [] := by
  have other : c ≠ '.' := by
    rintro rfl
    contradiction
  simp [maybe, fraction, char, other, rests_numberEnd_digit digit]

theorem rests_unsigned : unsigned.rests cs = (NumberList.afterUnsigned? cs).toList.flatMap unlessPoint := by
  cases cs with
  | nil => rfl
  | cons c tail =>
    by_cases digit : c.isDigit = true
    · have run : (seq (star (one Char.isDigit)) (seq (maybe fraction) numberEnd)).rests tail =
          (seq (maybe fraction) numberEnd).rests (tail.dropWhile Char.isDigit) :=
        rests_run_seq fun c rest digit => rests_ending_digit digit
      rw [rests_ending (stops_dropWhile tail)] at run
      rw [unsigned, plus, rests_seq, rests_seq, rests_one_cons, if_pos digit, List.flatMap_singleton, ← rests_seq, run,
        NumberList.afterUnsigned?, if_pos digit]
      simp
    · simp [unsigned, plus, NumberList.afterUnsigned?, digit]

theorem rests_unsigned_of_not_digit (other : c.isDigit = false) : unsigned.rests (c :: rest) = [] := by
  simp [rests_unsigned, NumberList.afterUnsigned?, other]

theorem rests_signed :
    (seq (maybe (char '-')) unsigned).rests cs = unsigned.rests (NumberList.dropSign cs) := by
  rw [rests_seq, maybe, rests_either, List.flatMap_append, rests_empty, List.flatMap_singleton]
  cases cs with
  | nil => rfl
  | cons c tail =>
    by_cases minus : c = '-'
    · subst minus
      simp [char, NumberList.dropSign, rests_unsigned_of_not_digit]
    · have whole : NumberList.dropSign (c :: tail) = c :: tail := NumberList.dropSign_of_head (by simpa using minus)
      simp [char, minus, whole]

theorem rests_number : number.rests cs = (NumberList.afterNumber? cs).toList.flatMap unlessPoint := by
  rw [number, blanks, rests_run_seq, rests_signed, rests_unsigned]
  · rfl
  · intro c rest blank
    have no_sign : c ≠ '-' := by
      rintro rfl
      contradiction
    have no_digit : c.isDigit = false := by
      by_contra digit
      rw [NumberList.not_isWhitespace_of_isDigit (by simpa using digit)] at blank
      contradiction
    rw [rests_signed, NumberList.dropSign_of_head (by simpa using no_sign), rests_unsigned_of_not_digit no_digit]

theorem rests_closing : closing.rests cs = (char ']').rests (cs.dropWhile Char.isWhitespace) := by
  rw [closing, blanks, rests_run_seq]
  intro c rest blank
  exact rests_char_of_blank rfl blank

theorem rests_closing_of_open (no_bracket : (cs.dropWhile Char.isWhitespace).head? ≠ some ']') :
    closing.rests cs = [] := by
  rw [rests_closing]
  cases solid : cs.dropWhile Char.isWhitespace with
  | nil => rfl
  | cons c rest =>
    rw [solid] at no_bracket
    exact rests_char_of_ne (by simpa using no_bracket)

/-- Where a number is matched nothing else is, so there is no choice up to the closing bracket. -/
theorem rests_inside : (seq (star number) closing).rests cs = (NumberList.afterNumbers? cs).toList := by
  fun_induction NumberList.afterNumbers? cs with
  | case1 cs rest closed =>
    rw [rests_star_seq, rests_number, NumberList.afterNumber?_of_bracket closed, rests_closing, closed, rests_char]
    rfl
  | case2 cs behind no_bracket unsigned ih =>
    have found : NumberList.afterNumber? cs = some behind := unsigned
    rw [rests_star_seq, rests_number, found, rests_closing_of_open (NumberList.open_of_number found)]
    have shorter := NumberList.length_afterNumber?_lt found
    by_cases point : behind.head? = some '.'
    · -- A second point: the number is no match, and no shorter one is left to try.
      obtain ⟨rest, rfl⟩ := List.head?_eq_some_iff.1 point
      simp [unlessPoint, NumberList.afterNumbers?_point]
    · rw [Option.toList_some, List.flatMap_singleton, unlessPoint, if_neg point, List.flatMap_singleton, if_pos shorter,
        ih, List.append_nil]
  | case3 cs no_bracket stuck =>
    have none_found : NumberList.afterNumber? cs = none := stuck
    rw [rests_star_seq, rests_number, none_found, rests_closing_of_open]
    · rfl
    · intro bracket
      obtain ⟨rest, closed⟩ := List.head?_eq_some_iff.1 bracket
      exact no_bracket rest closed

theorem rests_numberList : numberList.rests cs = (NumberList.afterList? cs).toList := by
  rw [numberList, blanks, rests_run_seq, NumberList.afterList?]
  · split
    · rename_i tail opened
      rw [opened, rests_seq, rests_char, List.flatMap_singleton, rests_inside]
    · rename_i no_bracket
      cases solid : cs.dropWhile Char.isWhitespace with
      | nil => rfl
      | cons c tail =>
        have other : c ≠ '[' := by
          rintro rfl
          exact no_bracket tail solid
        rw [rests_seq, rests_char_of_ne other]
        rfl
  · intro c rest blank
    rw [rests_seq, rests_char_of_blank rfl blank]
    rfl

theorem ways_numberList (cs : List Char) : numberList.ways cs = (NumberList.split? cs).toList := by
  apply ways_eq_of_rests
  · intro way member
    exact NumberList.append_of_split? (Option.mem_toList.1 member)
  · rw [rests_numberList, NumberList.afterList?_eq]
    cases NumberList.split? cs <;> rfl

theorem ways_word_of_stops (stops : Stops Text.isWordChar cs) : word.ways cs = [] := by
  cases cs with
  | nil => rfl
  | cons c cs => simp [word, plus, ways, stops_cons.1 stops]

theorem head?_word (some_char : cs.takeWhile Text.isWordChar ≠ []) :
    (word.ways cs).head? = some (cs.takeWhile Text.isWordChar, cs.dropWhile Text.isWordChar) :=
  head?_ways (by rw [word, head?_rests_plus, if_neg some_char]) List.takeWhile_append_dropWhile

theorem head?_piece (cs : List Char) : (piece.ways cs).head? = Atom.part? cs := by
  rw [piece, ways, List.head?_append, ways_numberList, Atom.part?]
  split
  · rename_i run
    rw [ways_word_of_stops (stops_of_takeWhile run)]
    cases NumberList.split? cs <;> rfl
  · rename_i c run same
    rw [head?_word (by simp [same]), same]
    rfl

theorem ways_piece_of_none (stuck : Atom.part? cs = none) : piece.ways cs = [] := by
  rw [← List.head?_eq_none_iff, head?_piece, stuck]

theorem head?_repeats_piece (cs : List Char) : (repeats piece.ways cs).head? = some (Atom.parts cs) := by
  fun_induction Atom.parts cs with
  | case1 cs stuck =>
    rw [repeats_of_nil (ways_piece_of_none stuck)]
    rfl
  | case2 cs part behind found later rest split ih =>
    rw [split] at ih
    exact head?_repeats ((head?_piece cs).trans found) (Atom.length_part?_lt found) ih

theorem head?_atom (cs : List Char) :
    (atom.ways cs).head? = (atom? cs).map fun found => (found.text, found.rest) := by
  cases found : Atom.part? cs with
  | none =>
    rw [atom?_eq_none_iff.2 found, atom, plus, ways, ways_piece_of_none found]
    rfl
  | some cut =>
    obtain ⟨part, behind⟩ := cut
    rw [atom, head?_plus ((head?_piece cs).trans found) (head?_repeats_piece behind), atom?, Atom.parts_of_some found]
    rfl

end NodeDump.Pattern

namespace NodeDump
open Lexeme

/-- No more than one list of numbers stands in front of a text. It ends with the first bracket that closes it and can
be taken apart in one way. The reader that goes from left to right finds it if there is one, as the other reader does,
and it is the only match of the expression for lists. An atom is divided into words and lists, each word as long as it
can be, only by cutting off piece after piece, which is the first match of the expression for atoms. -/
theorem atom_read_in_one_way (cs : List Char) :
    (∀ text, IsNumberList text → text <+: cs →
      (∀ other, IsNumberList other → other <+: cs → other = text) ∧
      (∃ blanks inside, text = blanks ++ '[' :: inside ++ [']'] ∧ Run Char.isWhitespace blanks ∧ ']' ∉ inside) ∧
      ∃! reading : NumberList.Reading, reading.text = text) ∧
    (∀ rest, NumberList.afterList? cs = some rest ↔ ∃ text, IsNumberList text ∧ text ++ rest = cs) ∧
    NumberList.afterList? cs = (NumberList.split? cs).map Prod.snd ∧
    Pattern.numberList.ways cs = (NumberList.split? cs).toList ∧
    (∀ found, atom? cs = some found → Atom.Pieces found.rest (Atom.parts cs).1 ∧
      ∀ pieces, pieces.flatten = found.text ∧ Atom.Pieces [] pieces ↔ pieces = (Atom.parts cs).1) ∧
    (Pattern.repeats Pattern.piece.ways cs).head? = some (Atom.parts cs) ∧
    (Pattern.atom.ways cs).head? = (atom? cs).map fun found => (found.text, found.rest) := by
  refine ⟨?_, fun rest => NumberList.afterList?_eq_some_iff, NumberList.afterList?_eq cs,
    Pattern.ways_numberList cs, ?_, Pattern.head?_repeats_piece cs, Pattern.head?_atom cs⟩
  · intro text isList front
    refine ⟨fun other isOther front' => ?_, ?_, ?_⟩
    · exact NumberList.eq_of_prefix isList isOther front front'
    · exact NumberList.exists_bracket isList
    · exact NumberList.existsUnique_reading isList
  · intro found atom
    refine ⟨?_, fun pieces => Atom.pieces_iff atom pieces⟩
    rw [← (Atom.parts_of_atom? atom).2]
    exact Atom.pieces_parts cs

/-- Two numbers without a blank between them, a word behind the list, and a bracket that closes nothing. -/
theorem atom_read_in_one_way_pieces :
    let cs := " [1-2.]4 [ ]]".toList
    IsNumberList " [1-2.]".toList ∧
      (∀ other, IsNumberList other → other <+: cs → other = " [1-2.]".toList) ∧
      (∃! reading : NumberList.Reading, reading.text = " [1-2.]".toList) ∧
      NumberList.afterList? cs = some "4 [ ]]".toList ∧
      Pattern.numberList.ways cs = [(" [1-2.]".toList, "4 [ ]]".toList)] ∧
      (∀ pieces, pieces.flatten = " [1-2.]4 [ ]".toList ∧ Atom.Pieces [] pieces ↔
        pieces = [" [1-2.]".toList, ['4'], " [ ]".toList]) ∧
      (Pattern.atom.ways cs).head? = some (" [1-2.]4 [ ]".toList, [']']) := by
  intro cs
  have cut : NumberList.split? cs = some (" [1-2.]".toList, "4 [ ]]".toList) := by decide +kernel
  have isList : IsNumberList " [1-2.]".toList := NumberList.split?_sound cut
  have parts : Atom.parts cs = ([" [1-2.]".toList, ['4'], " [ ]".toList], [']']) := by decide +kernel
  have atom : atom? cs = some ⟨.atom, " [1-2.]4 [ ]".toList, [']']⟩ := by decide +kernel
  obtain ⟨lists, -, after, ways, pieces, -, first⟩ := atom_read_in_one_way cs
  obtain ⟨unique, -, reading⟩ := lists _ isList ⟨_, NumberList.append_of_split? cut⟩
  refine ⟨isList, unique, reading, by rw [after, cut]; rfl, by rw [ways, cut]; rfl, ?_, by rw [first, atom]; rfl⟩
  obtain ⟨-, only⟩ := pieces _ atom
  rwa [parts] at only

end NodeDump
