import NodeDump.Printer.Run

/-!
Printing on a stack that may give out. Every construct that is open holds a part of the stack, so a dump can be
nested too deeply for it. Of all that a step does, nothing goes deeper than reading the token behind the one that
is taken: the stack gives out ahead of that, or in the middle of it.
-/

namespace NodeDump

instance decidableEqResult {ε σ α : Type} [DecidableEq ε] [DecidableEq σ] [DecidableEq α] :
    DecidableEq (EStateM.Result ε σ α)
  | .ok value state, .ok value' state' => decidable_of_iff (value = value' ∧ state = state') (by simp)
  | .error fault state, .error fault' state' => decidable_of_iff (fault = fault' ∧ state = state') (by simp)
  | .ok _ _, .error _ _ => isFalse (by simp)
  | .error _ _, .ok _ _ => isFalse (by simp)

/-- The state that is left once something has succeeded or failed. -/
def left {ε σ α : Type} : EStateM.Result ε σ α → σ
  | .ok _ state | .error _ state => state

inductive Breach where
  /-- Before the token is taken. -/
  | before
  /-- The reader has moved on, and the token that it has read is not yet the current one. -/
  | amid
  deriving DecidableEq, Repr

/-- The stack either lasts for all that is done or gives out after so many steps. -/
inductive Stack where
  | ample
  | upTo (steps : Nat) (breach : Breach)
  deriving DecidableEq, Repr

/-- What becomes of a cursor that was to be moved. -/
def Breach.cursor (breach : Breach) (old new : Cursor) : Cursor :=
  match breach with
  | .before => old
  | .amid => { new with current := old.current }

namespace Printer

def separated (printer : Printer) : Printer :=
  match printer.frames with
  | .array tagged _ :: _ =>
    if printer.cursor.current.kind = .arrayEnd then printer
    else if tagged then printer.write " " else printer.startLine ""
  | _ => printer

/-- The step on which the stack gives out. Of its writing only the separator is done. -/
def broken (printer : Printer) (breach : Breach) : Outcome :=
  .error (.tooDeep printer.cursor.current)
    { printer.separated with cursor := breach.cursor printer.cursor (left (printer.step none)).cursor }

def finishWithin (printer : Printer) (breach : Breach) : Nat → Outcome
  | 0 => printer.broken breach
  | steps + 1 =>
    match printer.step none with
    | .error fault after => .error fault after
    | .ok () after => if after.frames.isEmpty then .ok () after else after.finishWithin breach steps

def finishOn (printer : Printer) : Stack → Outcome
  | .ample => printer.finish none
  | .upTo steps breach => printer.finishWithin breach steps

end Printer

end NodeDump
