/-!
Lists of numbers between square brackets, as they follow the length of a constant. A number is an
optional minus sign, at least one digit, and possibly a point and further digits. Blanks may stand
before each number and before either bracket, but they are needed only where two numbers would
otherwise read as one.
-/

namespace NodeDump.NumberList

def dropSign : List Char → List Char
  | '-' :: rest => rest
  | rest => rest

def dropFraction : List Char → List Char
  | '.' :: rest => rest.dropWhile Char.isDigit
  | rest => rest

def afterUnsigned? : List Char → Option (List Char)
  | [] => none
  | c :: rest => if c.isDigit then some (dropFraction (rest.dropWhile Char.isDigit)) else none

def afterNumber? (cs : List Char) : Option (List Char) :=
  afterUnsigned? (dropSign (cs.dropWhile Char.isWhitespace))

theorem length_dropSign_le (cs : List Char) : (dropSign cs).length ≤ cs.length := by
  unfold dropSign
  split <;> simp

theorem length_dropFraction_le (cs : List Char) : (dropFraction cs).length ≤ cs.length := by
  unfold dropFraction
  split
  · exact Nat.le_succ_of_le (List.dropWhile_suffix _).length_le
  · exact Nat.le_refl _

theorem length_afterUnsigned?_lt {cs rest : List Char} (found : afterUnsigned? cs = some rest) :
    rest.length < cs.length := by
  cases cs with
  | nil => simp [afterUnsigned?] at found
  | cons c cs =>
    rw [afterUnsigned?] at found
    split at found
    · rw [← Option.some.inj found]
      exact Nat.lt_succ_of_le (Nat.le_trans (length_dropFraction_le _) (List.dropWhile_suffix _).length_le)
    · simp at found

theorem length_afterNumber?_lt {cs rest : List Char} (found : afterNumber? cs = some rest) :
    rest.length < cs.length :=
  Nat.lt_of_lt_of_le (length_afterUnsigned?_lt found)
    (Nat.le_trans (length_dropSign_le _) (List.dropWhile_suffix _).length_le)

/-- Nothing but numbers, and blanks behind the last one. -/
def areNumbers (cs : List Char) : Bool :=
  match _ : afterNumber? cs with
  | some rest => areNumbers rest
  | none => cs.all Char.isWhitespace
termination_by cs.length
decreasing_by exact length_afterNumber?_lt ‹_›

/-- The inside of a list with its closing bracket, and the text behind it. No number holds a bracket, so
the first closing one ends the list. -/
def enclosed? (cs : List Char) : Option (List Char × List Char) :=
  match cs.dropWhile (· ≠ ']') with
  | ']' :: rest =>
    if areNumbers (cs.takeWhile (· ≠ ']')) then some (cs.takeWhile (· ≠ ']') ++ [']'], rest) else none
  | _ => none

def split? (cs : List Char) : Option (List Char × List Char) :=
  match cs.dropWhile Char.isWhitespace with
  | '[' :: tail =>
    (enclosed? tail).map fun (inside, rest) => (cs.takeWhile Char.isWhitespace ++ '[' :: inside, rest)
  | _ => none

theorem append_of_enclosed? {cs text rest : List Char} (found : enclosed? cs = some (text, rest)) :
    text ++ rest = cs := by
  unfold enclosed? at found
  split at found
  · rename_i behind closing
    split at found
    · simp only [Option.some.injEq, Prod.mk.injEq] at found
      rw [← found.1, ← found.2, List.append_assoc, List.singleton_append, ← closing,
        List.takeWhile_append_dropWhile]
    · simp at found
  · simp at found

theorem append_of_split? {cs text rest : List Char} (found : split? cs = some (text, rest)) :
    text ++ rest = cs := by
  unfold split? at found
  split at found
  · rename_i tail opening
    obtain ⟨⟨inside, behind⟩, closed, same⟩ := Option.map_eq_some_iff.1 found
    simp only [Prod.mk.injEq] at same
    rw [← same.1, ← same.2, List.append_assoc, List.cons_append, append_of_enclosed? closed, ← opening,
      List.takeWhile_append_dropWhile]
  · simp at found

theorem ne_nil_of_split? {cs text rest : List Char} (found : split? cs = some (text, rest)) :
    text ≠ [] := by
  unfold split? at found
  split at found
  · obtain ⟨⟨inside, behind⟩, _, same⟩ := Option.map_eq_some_iff.1 found
    simp only [Prod.mk.injEq] at same
    simp [← same.1]
  · simp at found

end NodeDump.NumberList
