import NodeDump.Printer.Basic

/-!
Printing a whole value. A step that succeeds leaves fewer tokens to come, which is why printing ends.
-/

namespace NodeDump.Printer

theorem size_of_take {printer after : Printer} {use : Token → Printer → Outcome}
    (keeps : ∀ before, use printer.cursor.current before = .ok () after →
      printer.cursor.current.isEnd = false ∧ after.cursor = before.cursor)
    (took : printer.take use = .ok () after) : after.cursor.size < printer.cursor.size := by
  unfold take at took
  split at took
  · rename_i token cursor moved
    obtain rfl := Cursor.token_of_advance moved
    obtain ⟨more, same⟩ := keeps _ took
    rw [same]
    exact Cursor.size_of_advance moved more
  · simp at took

theorem size_of_enter {printer after : Printer} {limit : Option Nat} {inner : Frame}
    (more : printer.cursor.current.isEnd = false) (entered : printer.enter limit inner = .ok () after) :
    after.cursor.size < printer.cursor.size := by
  unfold enter at entered
  split at entered
  · simp at entered
  · refine size_of_take (fun before used => ⟨more, ?_⟩) entered
    cases used
    rfl

theorem size_of_value {printer after : Printer} {limit : Option Nat}
    (printed : printer.value limit = .ok () after) : after.cursor.size < printer.cursor.size := by
  have some_kind (kind : Kind) (known : printer.cursor.current.kind = kind)
      (solid : kind ≠ .endOfInput) : printer.cursor.current.isEnd = false := by
    simp [Token.isEnd, known, solid]
  unfold value at printed
  simp only at printed
  split at printed
  case h_1 kind => exact size_of_enter (some_kind _ kind (by decide)) printed
  case h_2 kind => exact size_of_enter (some_kind _ kind (by decide)) printed
  case h_3 kind =>
    refine size_of_take (fun before used => ⟨some_kind _ kind (by decide), ?_⟩) printed
    cases used
    rfl
  case h_4 kind =>
    refine size_of_take (fun before used => ⟨some_kind _ kind (by decide), ?_⟩) printed
    cases used
    rfl
  case h_5 => simp at printed

theorem size_of_keyOrEnd {printer after : Printer} {ending : NodeEnding} {outer : List Frame}
    (printed : printer.keyOrEnd ending outer = .ok () after) :
    after.cursor.size < printer.cursor.size := by
  unfold keyOrEnd at printed
  refine size_of_take (fun before used => ?_) printed
  split at used
  case h_1 kind =>
    cases used
    exact ⟨by simp [Token.isEnd, kind], rfl⟩
  case h_2 kind =>
    cases used
    exact ⟨by simp [Token.isEnd, kind], rfl⟩
  case h_3 => simp at used

theorem size_of_inNode {printer after : Printer} {limit : Option Nat} {ending : NodeEnding}
    {outer : List Frame} (printed : printer.inNode limit ending outer = .ok () after) :
    after.cursor.size < printer.cursor.size := by
  unfold inNode at printed
  simp only at printed
  split at printed
  · have shorter := size_of_value printed
    exact shorter
  · exact size_of_keyOrEnd printed

theorem size_of_inArray {printer after : Printer} {limit : Option Nat} {tagged filled : Bool}
    {outer : List Frame} (printed : printer.inArray limit tagged filled outer = .ok () after) :
    after.cursor.size < printer.cursor.size := by
  unfold inArray at printed
  split at printed
  · rename_i kind
    refine size_of_take (fun before used => ⟨by simp [Token.isEnd, kind], ?_⟩) printed
    cases used
    rfl
  · have shorter := size_of_value printed
    cases tagged <;> exact shorter

theorem size_of_step {printer after : Printer} {limit : Option Nat}
    (stepped : printer.step limit = .ok () after) : after.cursor.size < printer.cursor.size := by
  unfold step at stepped
  split at stepped
  · exact size_of_value stepped
  · exact size_of_inNode stepped
  · exact size_of_inArray stepped

def finish (printer : Printer) (limit : Option Nat) : Outcome :=
  match _ : printer.step limit with
  | .error fault after => .error fault after
  | .ok () after => if after.frames.isEmpty then .ok () after else after.finish limit
termination_by printer.cursor.size
decreasing_by exact size_of_step ‹_›

end NodeDump.Printer
