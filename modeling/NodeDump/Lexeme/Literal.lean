/-!
String literals. A literal stands between double quotes on one line. Inside it a backslash has to be
followed by a double quote or another backslash, and these two characters need one before them.
-/

namespace NodeDump.Literal

/-- Reads on to the closing quote. `seen` is the literal up to here, its last character first, and
`escaped` tells whether that one is a backslash in charge of the next. -/
def close? (escaped : Bool) (seen : List Char) : List Char → Option (List Char × List Char)
  | [] => none
  | c :: rest =>
    if escaped then
      if c = '"' ∨ c = '\\' then close? false (c :: seen) rest else none
    else if c = '"' then some ((c :: seen).reverse, rest)
    else if c = '\n' then none
    else close? (c = '\\') (c :: seen) rest

def split? : List Char → Option (List Char × List Char)
  | '"' :: tail => close? false ['"'] tail
  | _ => none

def escape (c : Char) : List Char :=
  if c = '"' ∨ c = '\\' then ['\\', c] else [c]

def encode (content : List Char) : List Char := '"' :: content.flatMap escape ++ ['"']

theorem append_of_close? {escaped : Bool} {seen cs text rest : List Char}
    (closed : close? escaped seen cs = some (text, rest)) : text ++ rest = seen.reverse ++ cs := by
  induction cs generalizing escaped seen with
  | nil => simp [close?] at closed
  | cons c cs ih =>
    rw [close?] at closed
    split at closed
    · split at closed
      · simpa using ih closed
      · simp at closed
    · split at closed
      · simp only [Option.some.injEq, Prod.mk.injEq] at closed
        simp [← closed.1, ← closed.2]
      · split at closed
        · simp at closed
        · simpa using ih closed

theorem append_of_split? {cs text rest : List Char} (found : split? cs = some (text, rest)) :
    text ++ rest = cs := by
  unfold split? at found
  split at found
  · simpa using append_of_close? found
  · simp at found

theorem ne_nil_of_close? {escaped : Bool} {seen cs text rest : List Char}
    (closed : close? escaped seen cs = some (text, rest)) : text ≠ [] := by
  induction cs generalizing escaped seen with
  | nil => simp [close?] at closed
  | cons c cs ih =>
    rw [close?] at closed
    split at closed
    · split at closed
      · exact ih closed
      · simp at closed
    · split at closed
      · simp only [Option.some.injEq, Prod.mk.injEq] at closed
        simp [← closed.1]
      · split at closed
        · simp at closed
        · exact ih closed

theorem ne_nil_of_split? {cs text rest : List Char} (found : split? cs = some (text, rest)) :
    text ≠ [] := by
  unfold split? at found
  split at found
  · exact ne_nil_of_close? found
  · simp at found

end NodeDump.Literal
