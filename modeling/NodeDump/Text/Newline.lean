/-!
Line breaks on the way in. A carriage return followed by a line feed, and any other carriage return,
counts as one line feed, so a text that has been read holds no carriage return.
-/

namespace NodeDump.Text

/-- What `c` becomes when it stands directly after `before`. -/
def newlineAfter (before c : Char) : Option Char :=
  if c = '\r' then some '\n'
  else if c = '\n' ∧ before = '\r' then none
  else some c

def newlinesAfter (before : Char) (text : List Char) : List Char :=
  (text.zip (before :: text)).filterMap fun (c, before) => newlineAfter before c

def unifyNewlines (text : String) : String :=
  String.ofList (newlinesAfter '\n' text.toList)

theorem newlinesAfter_nil (before : Char) : newlinesAfter before [] = [] := rfl

theorem newlinesAfter_cons (before c : Char) (text : List Char) :
    newlinesAfter before (c :: text) = (newlineAfter before c).toList ++ newlinesAfter c text := by
  cases h : newlineAfter before c <;> simp [newlinesAfter, h]

theorem not_mem_newlinesAfter (before : Char) (text : List Char) :
    '\r' ∉ newlinesAfter before text := by
  induction text generalizing before with
  | nil => simp [newlinesAfter_nil]
  | cons c text ih =>
    rw [newlinesAfter_cons, List.mem_append, not_or]
    refine ⟨?_, ih c⟩
    by_cases carriage : c = '\r' <;> by_cases joined : c = '\n' ∧ before = '\r' <;>
      simp [newlineAfter, carriage, joined, eq_comm]

theorem newlinesAfter_of_not_mem (before : Char) (text : List Char)
    (start : before ≠ '\r') (clean : '\r' ∉ text) : newlinesAfter before text = text := by
  induction text generalizing before with
  | nil => rfl
  | cons c text ih =>
    have apart := List.ne_of_not_mem_cons clean
    rw [newlinesAfter_cons, ih c apart.symm (List.not_mem_of_not_mem_cons clean)]
    simp [newlineAfter, apart.symm, start]

end NodeDump.Text
