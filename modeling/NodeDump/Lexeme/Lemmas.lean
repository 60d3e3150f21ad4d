import NodeDump.Lexeme.Basic

/-!
What holds of every lexeme: its text and the rest are together the text it was cut from, it is neither
empty nor starts with a blank, and it is never the end of the input. Because the rest is shorter than the
text, cutting comes to an end.
-/

namespace NodeDump.Lexeme

theorem append_of_named? {kind : Kind} {opening : Char} {tail : List Char} {found : Lexeme}
    (name : named? kind opening tail = some found) : found.text ++ found.rest = opening :: tail := by
  unfold named? at name
  split at name
  · simp at name
  · rename_i c word run
    rw [← Option.some.inj name]
    simp only [List.cons_append]
    rw [← List.cons_append, ← run, List.takeWhile_append_dropWhile]

theorem append_arrayStart (tail : List Char) :
    (arrayStart tail).text ++ (arrayStart tail).rest = '(' :: tail := by
  unfold arrayStart
  split
  · rfl
  · split <;> rfl

theorem append_of_atom? {cs : List Char} {found : Lexeme} (atom : atom? cs = some found) :
    found.text ++ found.rest = cs := by
  have whole := Atom.append_of_parts cs
  unfold atom? at atom
  split at atom
  · simp at atom
  · rename_i split
    rw [split] at whole
    rw [← Option.some.inj atom]
    simpa using whole

theorem append_of_string? {cs : List Char} {found : Lexeme} (string : string? cs = some found) :
    found.text ++ found.rest = cs := by
  obtain ⟨⟨text, rest⟩, split, rfl⟩ := Option.map_eq_some_iff.1 string
  exact Literal.append_of_split? split

/-- The alternative that has cut off a lexeme, and the sign that it begins with. -/
inductive Cut : List Char → Lexeme → Prop
  | string {tail : List Char} {found : Lexeme} (closed : string? ('"' :: tail) = some found) :
      Cut ('"' :: tail) found
  | key {tail : List Char} {found : Lexeme} (name : named? .key ':' tail = some found) : Cut (':' :: tail) found
  | nodeStart {tail : List Char} {found : Lexeme} (name : named? .nodeStart '{' tail = some found) :
      Cut ('{' :: tail) found
  | nodeEnd (tail : List Char) : Cut ('}' :: tail) ⟨.nodeEnd, ['}'], tail⟩
  | arrayStart (tail : List Char) : Cut ('(' :: tail) (arrayStart tail)
  | arrayEnd (tail : List Char) : Cut (')' :: tail) ⟨.arrayEnd, [')'], tail⟩
  | atom {cs : List Char} {found : Lexeme} (atom : atom? cs = some found) : Cut cs found

theorem cut_of_first? {cs : List Char} {found : Lexeme} (front : first? cs = some found) : Cut cs found := by
  unfold first? at front
  split at front
  · contradiction
  split at front
  · contradiction
  split at front
  · rename_i quote
    subst quote
    exact .string front
  split at front
  · rename_i colon
    subst colon
    exact .key front
  split at front
  · rename_i brace
    subst brace
    exact .nodeStart front
  split at front
  · rename_i brace
    subst brace
    cases front
    exact .nodeEnd _
  split at front
  · rename_i parenthesis
    subst parenthesis
    cases front
    exact .arrayStart _
  split at front
  · rename_i parenthesis
    subst parenthesis
    cases front
    exact .arrayEnd _
  · exact .atom front

theorem append_of_first? {cs : List Char} {found : Lexeme} (front : first? cs = some found) :
    found.text ++ found.rest = cs := by
  cases cut_of_first? front with
  | string closed => exact append_of_string? closed
  | key name => exact append_of_named? name
  | nodeStart name => exact append_of_named? name
  | nodeEnd tail => rfl
  | arrayStart tail => exact append_arrayStart tail
  | arrayEnd tail => rfl
  | atom atom => exact append_of_atom? atom

theorem ne_nil_of_named? {kind : Kind} {opening : Char} {tail : List Char} {found : Lexeme}
    (name : named? kind opening tail = some found) : found.text ≠ [] := by
  unfold named? at name
  split at name
  · simp at name
  · simp [← Option.some.inj name]

theorem arrayStart_ne_nil (tail : List Char) : (arrayStart tail).text ≠ [] := by
  unfold arrayStart
  split
  · simp
  · split <;> simp

theorem ne_nil_of_atom? {cs : List Char} {found : Lexeme} (atom : atom? cs = some found) :
    found.text ≠ [] := by
  unfold atom? at atom
  split at atom
  · simp at atom
  · rename_i split
    simp [← Option.some.inj atom, Atom.ne_nil_of_parts split]

theorem ne_nil_of_string? {cs : List Char} {found : Lexeme} (string : string? cs = some found) :
    found.text ≠ [] := by
  obtain ⟨⟨text, rest⟩, split, rfl⟩ := Option.map_eq_some_iff.1 string
  exact Literal.ne_nil_of_split? split

theorem ne_nil_of_first? {cs : List Char} {found : Lexeme} (front : first? cs = some found) :
    found.text ≠ [] := by
  cases cut_of_first? front with
  | string closed => exact ne_nil_of_string? closed
  | key name => exact ne_nil_of_named? name
  | nodeStart name => exact ne_nil_of_named? name
  | nodeEnd tail => simp
  | arrayStart tail => exact arrayStart_ne_nil tail
  | arrayEnd tail => simp
  | atom atom => exact ne_nil_of_atom? atom

theorem length_rest_lt {cs : List Char} {found : Lexeme} (front : first? cs = some found) :
    found.rest.length < cs.length := by
  rw [← append_of_first? front, List.length_append]
  have positive := List.length_pos_iff.2 (ne_nil_of_first? front)
  omega

theorem not_blank_of_first? {c : Char} {tail : List Char} {found : Lexeme}
    (front : first? (c :: tail) = some found) : c.isWhitespace = false := by
  rw [first?] at front
  split at front
  · simp at front
  · rename_i solid
    simpa using solid

theorem kind_of_named? {kind : Kind} {opening : Char} {tail : List Char} {found : Lexeme}
    (name : named? kind opening tail = some found) : found.kind = kind := by
  unfold named? at name
  split at name
  · simp at name
  · simp [← Option.some.inj name]

theorem kind_arrayStart (tail : List Char) : (arrayStart tail).kind = .arrayStart := by
  unfold arrayStart
  split
  · rfl
  · split <;> rfl

theorem kind_of_atom? {cs : List Char} {found : Lexeme} (atom : atom? cs = some found) :
    found.kind = .atom := by
  unfold atom? at atom
  split at atom
  · simp at atom
  · simp [← Option.some.inj atom]

theorem kind_of_string? {cs : List Char} {found : Lexeme} (string : string? cs = some found) :
    found.kind = .string := by
  obtain ⟨split, _, rfl⟩ := Option.map_eq_some_iff.1 string
  rfl

theorem kind_ne_endOfInput {cs : List Char} {found : Lexeme} (front : first? cs = some found) :
    found.kind ≠ .endOfInput := by
  cases cut_of_first? front with
  | string closed => simp [kind_of_string? closed]
  | key name => simp [kind_of_named? name]
  | nodeStart name => simp [kind_of_named? name]
  | nodeEnd tail => simp
  | arrayStart tail => simp [kind_arrayStart]
  | arrayEnd tail => simp
  | atom atom => simp [kind_of_atom? atom]

end NodeDump.Lexeme
