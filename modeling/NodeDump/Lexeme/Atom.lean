import NodeDump.Lexeme.NumberList
import NodeDump.Text.Character

/-!
Atoms: values without quotes, such as names, numbers, placeholders and the length of a constant together
with its bytes. An atom is cut off piece by piece, each as long as it can be.
-/

namespace NodeDump.Atom

/-- The piece at the front and the text behind it. A piece is a run of word characters, or a list of
numbers with the blanks before it. -/
def part? (cs : List Char) : Option (List Char × List Char) :=
  match cs.takeWhile Text.isWordChar with
  | [] => NumberList.split? cs
  | c :: word => some (c :: word, cs.dropWhile Text.isWordChar)

theorem append_of_part? {cs text rest : List Char} (found : part? cs = some (text, rest)) :
    text ++ rest = cs := by
  unfold part? at found
  split at found
  · exact NumberList.append_of_split? found
  · rename_i c word run
    simp only [Option.some.injEq, Prod.mk.injEq] at found
    rw [← found.1, ← found.2, ← run, List.takeWhile_append_dropWhile]

theorem ne_nil_of_part? {cs text rest : List Char} (found : part? cs = some (text, rest)) :
    text ≠ [] := by
  unfold part? at found
  split at found
  · exact NumberList.ne_nil_of_split? found
  · simp only [Option.some.injEq, Prod.mk.injEq] at found
    simp [← found.1]

theorem length_part?_lt {cs text rest : List Char} (found : part? cs = some (text, rest)) :
    rest.length < cs.length := by
  rw [← append_of_part? found, List.length_append]
  have positive := List.length_pos_iff.2 (ne_nil_of_part? found)
  omega

/-- The pieces that follow each other without a break, and the text behind them. A list joins what stands
before it even across blanks. -/
def parts (cs : List Char) : List (List Char) × List Char :=
  match _ : part? cs with
  | none => ([], cs)
  | some (part, behind) =>
    let (later, rest) := parts behind
    (part :: later, rest)
termination_by cs.length
decreasing_by exact length_part?_lt ‹_›

theorem append_of_parts (cs : List Char) : (parts cs).1.flatten ++ (parts cs).2 = cs := by
  fun_induction parts cs with
  | case1 cs stuck => rfl
  | case2 cs part behind found later rest split ih =>
    rw [split] at ih
    simpa [ih] using append_of_part? found

theorem ne_nil_of_parts {cs part rest : List Char} {later : List (List Char)}
    (split : parts cs = (part :: later, rest)) : part ≠ [] := by
  rw [parts] at split
  split at split
  · simp at split
  · rename_i found
    simp only [Prod.mk.injEq, List.cons.injEq] at split
    rw [← split.1.1]
    exact ne_nil_of_part? found

end NodeDump.Atom
