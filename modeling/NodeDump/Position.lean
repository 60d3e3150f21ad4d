/-!
Places in a text, counted in characters, as reading leads to them. Lines count from one and columns from zero. Only
a line feed starts a line. Reading may have begun at a place made up by hand, so the line and the column can be
negative.
-/

namespace NodeDump

structure Position where
  index : Nat := 0
  line : Int := 1
  /-- Where the current line starts, on the scale of `index`. -/
  lineStart : Int := 0
  deriving DecidableEq, Repr, Inhabited

namespace Position

def column (p : Position) : Int := p.index - p.lineStart

def next (p : Position) (c : Char) : Position :=
  if c = '\n' then ⟨p.index + 1, p.line + 1, p.index + 1⟩
  else { p with index := p.index + 1 }

def after (p : Position) (text : List Char) : Position := text.foldl next p

@[simp] theorem after_nil (p : Position) : p.after [] = p := rfl

@[simp] theorem after_cons (p : Position) (c : Char) (text : List Char) :
    p.after (c :: text) = (p.next c).after text := rfl

theorem after_append (p : Position) (first second : List Char) :
    p.after (first ++ second) = (p.after first).after second := List.foldl_append

theorem index_next (p : Position) (c : Char) : (p.next c).index = p.index + 1 := by
  unfold next
  split <;> rfl

@[simp] theorem index_after (p : Position) (text : List Char) :
    (p.after text).index = p.index + text.length := by
  induction text generalizing p with
  | nil => rfl
  | cons c text ih =>
    rw [after_cons, ih, index_next, List.length_cons]
    omega

theorem line_after (p : Position) (text : List Char) :
    (p.after text).line = p.line + text.count '\n' := by
  induction text generalizing p with
  | nil => simp
  | cons c text ih =>
    rw [after_cons, ih, List.count_cons]
    by_cases feed : c = '\n' <;> simp [next, feed]
    omega

end Position

end NodeDump
