import Mathlib.Data.List.TakeWhile
import NodeDump.Lexeme.Language

/-!
Runs of one class of characters. A run that stands in front of a text which does not go on with the same
class is what `takeWhile` cuts off and `dropWhile` passes over.
-/

namespace NodeDump.Lexeme

/-- The text does not go on with a character of the class. -/
def Stops (p : Char → Bool) (rest : List Char) : Prop := ∀ c, rest.head? = some c → p c = false

variable {p : Char → Bool}

theorem stops_nil : Stops p [] := by simp [Stops]

@[simp] theorem stops_cons {c : Char} {rest : List Char} : Stops p (c :: rest) ↔ p c = false := by
  simp [Stops]

theorem stops_dropWhile (text : List Char) : Stops p (text.dropWhile p) := by
  intro c front
  have last := List.head?_dropWhile_not p text
  simpa [front] using last

theorem Stops.takeWhile {rest : List Char} (stops : Stops p rest) : rest.takeWhile p = [] := by
  cases rest with
  | nil => rfl
  | cons c rest => simp [stops_cons.1 stops]

theorem Stops.dropWhile {rest : List Char} (stops : Stops p rest) : rest.dropWhile p = rest := by
  cases rest with
  | nil => rfl
  | cons c rest => simp [stops_cons.1 stops]

theorem stops_of_takeWhile {text : List Char} (none : text.takeWhile p = []) : Stops p text := by
  cases text with
  | nil => exact stops_nil
  | cons c rest =>
    rw [stops_cons]
    by_cases more : p c = true
    · simp [more] at none
    · simpa using more

theorem Run.tail {c : Char} {run : List Char} (all : Run p (c :: run)) : Run p run :=
  fun d member => all d (List.mem_cons_of_mem c member)

theorem Run.append {first second : List Char} (left : Run p first) (right : Run p second) :
    Run p (first ++ second) := by
  intro c member
  rcases List.mem_append.1 member with before | after
  · exact left c before
  · exact right c after

theorem run_takeWhile (text : List Char) : Run p (text.takeWhile p) :=
  fun _ member => List.mem_takeWhile_imp member

theorem Run.dropWhile_append {run : List Char} (all : Run p run) (rest : List Char) :
    (run ++ rest).dropWhile p = rest.dropWhile p :=
  List.dropWhile_append_of_pos all

theorem Run.takeWhile_append {run : List Char} (all : Run p run) (rest : List Char) :
    (run ++ rest).takeWhile p = run ++ rest.takeWhile p :=
  List.takeWhile_append_of_pos all

theorem Run.takeWhile_eq {run rest : List Char} (all : Run p run) (stops : Stops p rest) :
    (run ++ rest).takeWhile p = run := by
  rw [all.takeWhile_append, stops.takeWhile, List.append_nil]

theorem Run.dropWhile_eq {run rest : List Char} (all : Run p run) (stops : Stops p rest) :
    (run ++ rest).dropWhile p = rest := by
  rw [all.dropWhile_append, stops.dropWhile]

theorem Run.not_mem {run : List Char} (all : Run p run) {c : Char} (outside : p c = false) :
    c ∉ run := by
  intro member
  rw [all c member] at outside
  contradiction

end NodeDump.Lexeme
