/-!
The characters a dump is made of. Outside string literals these classes know ASCII only. A blank is a
space, tab, carriage return or line feed, which is core's `Char.isWhitespace`.
-/

namespace NodeDump.Text

def isNameChar (c : Char) : Bool := c.isAlphanum || c == '_'

/-- Names, numbers, angle-bracketed placeholders and signs, as they stand in unquoted values. -/
def isWordChar (c : Char) : Bool :=
  isNameChar c || c == '<' || c == '>' || c == '.' || c == '?' || c == '-'

theorem isWhitespace_iff {c : Char} :
    c.isWhitespace = true ↔ c = ' ' ∨ c = '\t' ∨ c = '\r' ∨ c = '\n' := by
  simp [Char.isWhitespace, or_assoc]

theorem isWordChar_of_isWhitespace {c : Char} (blank : c.isWhitespace = true) :
    isWordChar c = false := by
  rcases isWhitespace_iff.1 blank with rfl | rfl | rfl | rfl <;> decide

end NodeDump.Text
