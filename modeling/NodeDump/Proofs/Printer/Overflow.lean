import NodeDump.Printer.Stack
import NodeDump.Proofs.Printer.Limit

/-!
What a stack that gives out leaves behind. Ahead of a token it leaves everything as it would be without the step, but
for a separator. In the middle of reading it leaves a reader that stands behind a token on which the cursor has not
been put. No later move comes upon that token again, unless it is the end of the input.
-/

namespace NodeDump

namespace Cursor

variable {cursor moved : Cursor} {token : Token} {fault : Fault}

@[simp] theorem current_breach (breach : Breach) : (breach.cursor cursor moved).current = cursor.current := by
  cases breach <;> rfl

/-- The end of the input cannot be lost. -/
theorem ahead_amid_of_end (moves : cursor.advance = .ok token moved) (more : cursor.current.isEnd = false)
    (last : moved.current.isEnd = true) : (Breach.amid.cursor cursor moved).ahead = cursor.ahead := by
  obtain ⟨-, ⟨ended, -⟩ | ⟨-, took⟩⟩ := advance_ok moves
  · rw [more] at ended
    contradiction
  · -- Behind all text there is only the end to read, as often as one likes.
    have again := Reader.read_end_again took last
    simp [Breach.cursor, ahead, more, Scan.ofReader_of_end took last, Scan.ofReader_of_end again last]

theorem stream_amid (moves : cursor.advance = .ok token moved) (more : cursor.current.isEnd = false)
    (found : moved.current.isEnd = false) :
    ∃ later, cursor.ahead.stream = cursor.current :: moved.current :: later ∧
      (Breach.amid.cursor cursor moved).ahead.stream = cursor.current :: later := by
  refine ⟨(Scan.ofReader moved.toReader).stream, ?_, stream_of_more more⟩
  rw [stream_of_advance moves more, stream_of_more found]

/-- The reader has got no further than a move takes it, and the cursor has the same ahead unless a token is lost. -/
theorem breaks_off (breach : Breach) (moves : Relation.ReflGen MovesTo cursor moved) :
    cursor.toReader.Passes (breach.cursor cursor moved).toReader ∧
      ((breach.cursor cursor moved).ahead = cursor.ahead ∨ breach = .amid ∧ ∃ lost later, lost.isEnd = false ∧
        cursor.ahead.stream = cursor.current :: lost :: later ∧
        (breach.cursor cursor moved).ahead.stream = cursor.current :: later) := by
  cases breach with
  | before => exact ⟨.refl _, Or.inl rfl⟩
  | amid =>
    rcases moves with _ | ⟨⟨token, moves⟩ | ⟨fault, failed⟩⟩
    · exact ⟨.refl _, Or.inl rfl⟩
    · have passes : cursor.toReader.Passes moved.toReader := passes_of_advance moves
      refine ⟨passes, ?_⟩
      cases ended : cursor.current.isEnd with
      | true =>
        obtain rfl := after_of_advance_end moves ended
        exact Or.inl rfl
      | false =>
        cases last : moved.current.isEnd with
        | true => exact Or.inl (ahead_amid_of_end moves ended last)
        | false =>
          obtain ⟨later, stream, behind⟩ := stream_amid moves ended last
          exact Or.inr ⟨rfl, _, later, last, stream, behind⟩
    · -- A move that fails has put the cursor on no other token, so there is none to be lost.
      have passes : cursor.toReader.Passes moved.toReader := passes_of_advance_error failed
      refine ⟨passes, Or.inl ?_⟩
      rw [Breach.cursor, ← (advance_error failed).2.1]
      exact (ahead_after_error failed).2

end Cursor

namespace Printer

variable {stack : Stack} {breach : Breach} {start before after : Printer} {tokens : List Token}

theorem separated_eq (printer : Printer) :
    printer.separated = { printer with page := printer.page.separate printer.frames printer.word } := by
  obtain ⟨cursor, page, frames⟩ := printer
  match frames with
  | [] | .node _ :: _ => rfl
  | .array tagged filled :: outer =>
    by_cases last : cursor.current.kind = .arrayEnd
    · simp [separated, Page.separate, word, Token.word, last]
    · cases tagged <;> simp [separated, Page.separate, word, Token.word, last, write, startLine]

theorem finishOn_induction (stack : Stack) (Keeps : Printer → Prop) (Ends : Outcome → Prop)
    (step : ∀ before after, Keeps before → before.step none = .ok () after → after.frames ≠ [] → Keeps after)
    (done : ∀ before after, Keeps before → before.step none = .ok () after → after.frames = [] → Ends (.ok () after))
    (failed : ∀ before fault after, Keeps before → before.step none = .error fault after → Ends (.error fault after))
    (broken : ∀ before breach, (∃ steps, stack = .upTo steps breach) → Keeps before → Ends (before.broken breach))
    (printer : Printer) (start : Keeps printer) : Ends (printer.finishOn stack) := by
  cases stack with
  | ample => exact finish_induction none Keeps Ends step done failed printer start
  | upTo steps breach =>
    have breaks (before : Printer) (keeps : Keeps before) : Ends (before.broken breach) :=
      broken before breach ⟨steps, rfl⟩ keeps
    -- The stack is a shorter one after each step, so the induction needs `breaks` and not `broken`.
    clear broken
    rw [finishOn]
    induction steps generalizing printer with
    | zero => exact breaks printer start
    | succ steps ih =>
      rw [finishWithin]
      split
      · exact failed _ _ _ start ‹_›
      · rename_i after stepped
        split
        · rename_i bare
          exact done _ _ start stepped (by simpa using bare)
        · rename_i inside
          exact ih after (step _ _ start stepped (by simpa using inside))

theorem moves_step (limit : Option Nat) (printer : Printer) :
    Relation.ReflGen Cursor.MovesTo printer.cursor (left (printer.step limit)).cursor := by
  have goes := goes_step limit printer
  generalize printer.step limit = outcome at goes ⊢
  cases goes with
  | printed _ _ moved => exact .single (Or.inl ⟨_, moved⟩)
  | full => exact .refl
  | hidden _ failed => exact .single (Or.inr ⟨_, failed⟩)
  | taken _ _ moved => exact .single (Or.inl ⟨_, moved⟩)
  | refused => exact .refl

/-- The stack has given out in the middle of a reading, and the token that was read is lost. The one in front of it is
the current token, and neither of the two has been written. -/
structure Loses (start : Printer) (fault : Fault) (after : Printer) (written : List Token) (lost : Token) : Prop where
  fault : fault = .tooDeep after.cursor.current
  more : lost.isEnd = false
  stream : ∃ later, start.cursor.ahead.stream = written ++ after.cursor.current :: lost :: later ∧
    after.cursor.ahead.stream = after.cursor.current :: later
  page : start.page.Adds after.page (written.map Token.word)
  passes : start.cursor.toReader.Passes after.cursor.toReader

theorem works_broken (works : start.Works before tokens tokens) (breach : Breach) :
    start.Worked (before.broken breach) ∨ breach = .amid ∧ ∃ fault after lost,
      before.broken breach = .error fault after ∧ start.Loses fault after tokens lost := by
  obtain ⟨passes, outcome⟩ := Cursor.breaks_off breach (moves_step none before)
  have page : start.page.Adds before.separated.page (tokens.map Token.word) := by
    rw [separated_eq]
    exact works.page.separate before.frames before.word
  rcases outcome with same | ⟨amid, lost, later, more, stream, behind⟩
  · refine Or.inl ⟨tokens, [], ⟨?_, page, works.passes.trans passes⟩, Nat.zero_le _⟩
    rw [List.append_nil, works.stream, ← same]
  · refine Or.inr ⟨amid, _, _, lost, rfl, ?_, more, ⟨later, ?_, ?_⟩, page, works.passes.trans passes⟩
    · rw [Cursor.current_breach]
    · rw [works.stream, stream, Cursor.current_breach]
    · rw [behind, Cursor.current_breach]

/-- However the printing ends, what has been taken has been written but for the last token, and nothing is lost unless
the stack gives out in the middle of a reading. -/
theorem worked_finishOn (stack : Stack) (printer : Printer) :
    printer.Worked (printer.finishOn stack) ∨ (∃ steps, stack = .upTo steps .amid) ∧ ∃ fault after written lost,
      printer.finishOn stack = .error fault after ∧ printer.Loses fault after written lost := by
  refine finishOn_induction stack (fun now => ∃ tokens, printer.Works now tokens tokens)
    (fun outcome => printer.Worked outcome ∨ (∃ steps, stack = .upTo steps .amid) ∧ ∃ fault after written lost,
      outcome = .error fault after ∧ printer.Loses fault after written lost)
    ?_ ?_ ?_ ?_ printer ⟨[], .refl printer⟩
  · rintro before after ⟨tokens, works⟩ stepped -
    exact ⟨_, works.step stepped⟩
  · rintro before after ⟨tokens, works⟩ stepped -
    exact Or.inl ⟨_, works.step stepped⟩
  · rintro before fault after ⟨tokens, works⟩ stepped
    exact Or.inl ⟨tokens, works.step_error stepped⟩
  · rintro before breach gives_out ⟨tokens, works⟩
    rcases works_broken works breach with worked | ⟨rfl, fault, after, lost, ended, loses⟩
    · exact Or.inl worked
    · exact Or.inr ⟨gives_out, fault, after, tokens, lost, ended, loses⟩

/-- A limit on the nesting that breaks the printing off leaves behind what a stack leaves that gives out there. -/
theorem finishOn_of_limit (bound : Nat) (printer : Printer) :
    printer.finish (some bound) = printer.finish none ∨ ∃ steps token before after,
      printer.finish (some bound) = .error (.tooDeep token) before ∧
      printer.finishOn (.upTo steps .before) = .error (.tooDeep token) after ∧
      after.cursor = before.cursor ∧ after.page = before.page := by
  have room_of_ok {printer after : Printer} (stepped : printer.step (some bound) = .ok () after) :
      ¬printer.Full bound := by
    intro full
    obtain ⟨left, -, -, broken⟩ := step_of_full full
    rw [stepped] at broken
    contradiction
  fun_induction finish printer (some bound) with
  | case1 printer fault after stepped =>
    by_cases full : printer.Full bound
    · -- The limit breaks the printing off here, and so does a stack that gives out before this step.
      obtain ⟨left, cursor, page, broken⟩ := step_of_full full
      rw [stepped] at broken
      cases broken
      refine Or.inr ⟨0, _, _, _, rfl, rfl, cursor.symm, ?_⟩
      rw [page, separated_eq]
    · rw [step_of_room full] at stepped
      exact Or.inl (finish_of_step_error stepped).symm
  | case2 printer after stepped bare =>
    rw [step_of_room (room_of_ok stepped)] at stepped
    rw [finish_of_step stepped, resume, if_pos bare]
    exact Or.inl rfl
  | case3 printer after stepped inside ih =>
    rw [step_of_room (room_of_ok stepped)] at stepped
    rw [finish_of_step stepped, resume, if_neg inside]
    refine ih.imp_right ?_
    rintro ⟨steps, token, before, last, ended, broken, cursor, page⟩
    refine ⟨steps + 1, token, before, last, ended, ?_, cursor, page⟩
    simp only [finishOn, finishWithin, stepped, inside]
    exact broken

end Printer

end NodeDump
