import NodeDump.Proofs.Printer.Limit
import NodeDump.Proofs.Session.Follows

/-!
Sessions that have come upon a stray character. A move that is refused changes nothing, a move that fails passes
over blanks at most, and from then on no operation moves the cursor and no move or printing succeeds.
-/

namespace NodeDump
open Lexeme

theorem Reader.Passes.rest_eq_drop {before after : Reader} (passes : before.Passes after) {source : List Char}
    (ahead : before.rest = source.drop before.position.index) : after.rest = source.drop after.position.index := by
  obtain ⟨text, rest, place⟩ := passes
  rw [place, Position.index_after, ← List.drop_drop, ← ahead, rest, List.drop_left]

namespace Cursor

/-- The cursor cannot leave its token, and trying to does not change it. -/
def Stuck (cursor : Cursor) (fault : Fault) : Prop := cursor.advance = .error fault cursor

/-- A move from one cursor has failed and left another. The token is the same, only blanks have been passed over,
and the fault names the stray character behind them and its place. -/
structure StopsAt (source : List Char) (before after : Cursor) (fault : Fault) : Prop where
  current : after.current = before.current
  blanks : ∃ gap, Run Char.isWhitespace gap ∧ source.drop before.position.index = gap ++ after.rest ∧
    after.position = before.position.after gap
  stray : ∃ c rest, source.drop after.position.index = c :: rest ∧ Stray c rest ∧
    fault = .strayCharacter c after.position.line after.position.column

variable {cursor after : Cursor} {fault : Fault} {source : List Char}

theorem stuck_of_advance (failed : cursor.advance = .error fault after) : after.Stuck fault := by
  obtain ⟨more, same, stuck⟩ := advance_error failed
  have still : after.current.isEnd = false := same ▸ more
  simp [Stuck, advance, still, Reader.read_again stuck]

theorem stopsAt_of_advance (ahead : cursor.rest = source.drop cursor.position.index)
    (failed : cursor.advance = .error fault after) : StopsAt source cursor after fault := by
  have behind := (passes_of_advance_error failed).rest_eq_drop ahead
  obtain ⟨-, same, stuck⟩ := advance_error failed
  obtain ⟨here, c, rest, front, stray, named⟩ := Reader.stuck_of_read stuck
  refine ⟨same, ⟨_, run_takeWhile cursor.rest, ?_, ?_⟩, c, rest, behind.symm.trans front, stray, named⟩
  · rw [← ahead, here]
    exact List.takeWhile_append_dropWhile.symm
  · rw [here]
    rfl

end Cursor

namespace Printer

variable {printer : Printer} {fault : Fault}

/-- A stuck cursor lets no printing get past its first step. -/
theorem step_of_stuck (stuck : printer.cursor.Stuck fault) (limit : Option Nat) :
    ∃ other after, printer.step limit = .error other after ∧ after.cursor = printer.cursor := by
  have goes := goes_step limit printer
  generalize printer.step limit = outcome at goes ⊢
  cases goes with
  | printed _ _ moved => exact absurd (stuck.symm.trans moved) (by simp)
  | full => exact ⟨_, _, rfl, rfl⟩
  | hidden _ failed =>
    cases stuck.symm.trans failed
    exact ⟨_, _, rfl, rfl⟩
  | taken _ _ moved => exact absurd (stuck.symm.trans moved) (by simp)
  | refused => exact ⟨_, _, rfl, rfl⟩

theorem finishOn_of_stuck (stuck : printer.cursor.Stuck fault) (stack : Stack) :
    ∃ other after, printer.finishOn stack = .error other after ∧ after.cursor = printer.cursor := by
  obtain ⟨other, after, stepped, same⟩ := step_of_stuck stuck none
  -- The stack gives out on the first step or not at all, for no other step is reached.
  match stack with
  | .ample => exact ⟨other, after, finish_of_step_error stepped, same⟩
  | .upTo 0 breach =>
    refine ⟨_, _, rfl, ?_⟩
    simp only [stepped, left]
    cases breach with
    | before => rfl
    | amid => rw [Breach.cursor, same]
  | .upTo (steps + 1) breach => exact ⟨other, after, by simp only [finishOn, finishWithin, stepped], same⟩

end Printer

namespace Session

def run (session : Session) (calls : List Call) : Session :=
  calls.foldl (fun now call => left (now.call call)) session

/-- What operations can come to when the cursor is stuck. The cursor stays as it is, and nothing is delivered but the
token it stands on. -/
inductive Blocked (session : Session) (fault : Fault) : Operation → Outcome → Prop
  | peeked : Blocked session fault .peek (.ok (some session.cursor.current) session)
  | refused {expected : Token.Class} (other : expected.accepts session.cursor.current.kind = false) :
      Blocked session fault (.next expected) (.error (.mismatch expected session.cursor.current) session)
  | stopped {expected : Token.Class} (fits : expected.accepts session.cursor.current.kind = true) :
      Blocked session fault (.next expected) (.error fault session)
  | edited {operation : Operation} {page : Page}
      (edits : (∃ text, operation = .write text) ∨ (∃ text, operation = .startLine text) ∨
        ∃ levels, operation = .shift levels) :
      Blocked session fault operation (.ok none { session with page })
  | failed {operation : Operation} {other : Fault} {page : Page}
      (prints : operation ∈ [.printValue, .printNode, .printArray]) :
      Blocked session fault operation (.error other { session with page })

variable {session : Session} {fault : Fault}

theorem next_of_not_accepts {expected : Token.Class} (other : expected.accepts session.cursor.current.kind = false) :
    session.next expected = .error (.mismatch expected session.cursor.current) session := by
  simp [next, Cursor.next, other]

theorem next_of_accepts (stuck : session.cursor.Stuck fault) {expected : Token.Class}
    (fits : expected.accepts session.cursor.current.kind = true) : session.next expected = .error fault session := by
  have stays : session.cursor.advance = .error fault session.cursor := stuck
  simp [next, Cursor.next, fits, stays]

theorem advance_of_next {expected : Token.Class} {after : Session}
    (fits : expected.accepts session.cursor.current.kind = true) (failed : session.next expected = .error fault after) :
    session.cursor.advance = .error fault after.cursor ∧ after.page = session.page := by
  unfold next Cursor.next at failed
  rw [if_pos fits] at failed
  split at failed
  · contradiction
  · rename_i moved
    cases failed
    exact ⟨moved, rfl⟩

theorem blocked_printValue (stuck : session.cursor.Stuck fault) {operation : Operation}
    (prints : operation ∈ [.printValue, .printNode, .printArray]) :
    Blocked session fault operation session.printValue := by
  have still : (Printer.mk session.cursor session.page []).cursor.Stuck fault := stuck
  obtain ⟨other, after, ended, same⟩ := Printer.finishOn_of_stuck still .ample
  rw [printValue, ended]
  simp only [same]
  exact .failed prints

theorem blocked_next (stuck : session.cursor.Stuck fault) (expected : Token.Class) :
    Blocked session fault (.next expected) (session.next expected) := by
  cases fits : expected.accepts session.cursor.current.kind with
  | false =>
    rw [next_of_not_accepts fits]
    exact .refused fits
  | true =>
    rw [next_of_accepts stuck fits]
    exact .stopped fits

theorem blocked_perform (stuck : session.cursor.Stuck fault) (operation : Operation) :
    Blocked session fault operation (session.perform operation) := by
  refine session.call_cases (motive := fun operation stack outcome =>
    stack = .ample → Blocked session fault operation outcome) ?_ ?_ ?_ ?_ ?_ ⟨operation, .ample⟩ rfl
  · exact fun _ _ => .peeked
  · rintro expected _ rfl
    exact blocked_next stuck expected
  · exact fun _ _ _ edits _ => .edited edits
  · rintro operation _ prints rfl
    exact blocked_printValue stuck prints
  · exact fun _ _ _ prints _ => .failed prints

theorem Blocked.cursor {operation : Operation} {outcome : Outcome} (blocked : Blocked session fault operation outcome) :
    (left outcome).cursor = session.cursor := by
  cases blocked <;> rfl

theorem cursor_call_of_stuck (stuck : session.cursor.Stuck fault) (call : Call) :
    (left (session.call call)).cursor = session.cursor := by
  refine session.call_cases (motive := fun _ _ outcome => (left outcome).cursor = session.cursor) ?_ ?_ ?_ ?_ ?_ call
  · exact fun _ => rfl
  · intro expected stack
    have same := (blocked_next stuck expected).cursor
    unfold nextOn
    split
    · rename_i breach
      change breach.cursor session.cursor (left (session.next expected)).cursor = session.cursor
      rw [same]
      cases breach <;> rfl
    · exact same
  · exact fun _ _ _ _ => rfl
  · intro operation stack prints
    have still : (Printer.mk session.cursor session.page []).cursor.Stuck fault := stuck
    obtain ⟨other, after, ended, same⟩ := Printer.finishOn_of_stuck still stack
    rw [left_printValue, ended]
    exact same
  · exact fun _ _ _ _ => rfl

theorem cursor_run_of_stuck (stuck : session.cursor.Stuck fault) (calls : List Call) :
    (session.run calls).cursor = session.cursor := by
  induction calls generalizing session with
  | nil => rfl
  | cons call later ih =>
    have same := cursor_call_of_stuck stuck call
    exact (ih (same ▸ stuck)).trans same

theorem passes_call (session : Session) (call : Call) :
    session.cursor.toReader.Passes (left (session.call call)).cursor.toReader := by
  have tracks : Tracks session.cursor.ahead.stream _ session 0 := ⟨List.drop_zero, rfl⟩
  obtain ⟨next, rest, leads⟩ := tracks.leads call
  exact leads.passes

theorem passes_run (session : Session) (calls : List Call) :
    session.cursor.toReader.Passes (session.run calls).cursor.toReader := by
  induction calls generalizing session with
  | nil => exact .refl _
  | cons call later ih => exact (passes_call session call).trans (ih _)

theorem rest_run {source : String} {place : Start} {page : Page}
    (started : start source place page = .ok session) (calls : List Call) :
    (session.run calls).cursor.rest = source.toList.drop (session.run calls).cursor.position.index := by
  have begun := Cursor.passes_of_ofStart (cursor_of_start started)
  exact (begun.trans (passes_run session calls)).rest_eq_drop rfl

/-- Wherever calls have led, asking for a token of another class changes nothing. A move that fails otherwise has
come upon a stray character and has passed only the blanks in front of it. After that the cursor stays as it is for
good: each move fails with the same fault or is refused again, and no operation gets any further. -/
theorem next_stuck {source : String} {place : Start} {page : Page} {first : Session}
    (started : start source place page = .ok first) (earlier : List Call) (expected : Token.Class) :
    let session := first.run earlier
    (expected.accepts session.cursor.current.kind = false → session.perform (.next expected) =
      .error (.mismatch expected session.cursor.current) session) ∧
    ∀ fault after, expected.accepts session.cursor.current.kind = true →
      session.perform (.next expected) = .error fault after →
      after.page = session.page ∧ Cursor.StopsAt source.toList session.cursor after.cursor fault ∧
      ∀ later, (after.run later).cursor = after.cursor ∧
        ∀ operation, Blocked (after.run later) fault operation ((after.run later).perform operation) := by
  intro session
  refine ⟨next_of_not_accepts, ?_⟩
  intro fault after fits failed
  obtain ⟨stopped, page⟩ := advance_of_next fits failed
  have stuck : after.cursor.Stuck fault := Cursor.stuck_of_advance stopped
  refine ⟨page, Cursor.stopsAt_of_advance (rest_run started earlier) stopped, fun later => ?_⟩
  have same := cursor_run_of_stuck stuck later
  exact ⟨same, fun operation => blocked_perform (same ▸ stuck) operation⟩

/-- The blanks in front of the stray character reach over two lines. -/
theorem next_stuck_lines :
    ∃ first after, start "1 \n\t\n ~" {} {} = .ok first ∧
      (first.run [⟨.peek, .ample⟩, ⟨.startLine "x", .ample⟩]).perform (.next (.only .key)) =
        .error (.mismatch (.only .key) ⟨.atom, 1, 0, "1"⟩) (first.run [⟨.peek, .ample⟩, ⟨.startLine "x", .ample⟩]) ∧
      (first.run [⟨.peek, .ample⟩, ⟨.startLine "x", .ample⟩]).perform (.next .scalar) =
        .error (.strayCharacter '~' 3 1) after ∧
      after.page.text = "x" ∧ after.cursor.position = ⟨6, 3, 5⟩ ∧
      Cursor.StopsAt "1 \n\t\n ~".toList first.cursor after.cursor (.strayCharacter '~' 3 1) ∧
      ∀ later, (after.run later).cursor = after.cursor ∧ ∀ operation,
        Blocked (after.run later) (.strayCharacter '~' 3 1) operation ((after.run later).perform operation) := by
  let first : Session := ⟨⟨⟨" \n\t\n ~".toList, ⟨1, 1, 0⟩⟩, ⟨.atom, 1, 0, "1"⟩⟩, {}⟩
  let after : Session := ⟨⟨⟨['~'], ⟨6, 3, 5⟩⟩, ⟨.atom, 1, 0, "1"⟩⟩, ⟨"x", 0, 2⟩⟩
  have started : start "1 \n\t\n ~" {} {} = .ok first := by decide +kernel
  have failed : (first.run [⟨.peek, .ample⟩, ⟨.startLine "x", .ample⟩]).perform (.next .scalar) =
      .error (.strayCharacter '~' 3 1) after := by
    cbv
  obtain ⟨refused, -⟩ := next_stuck started [⟨.peek, .ample⟩, ⟨.startLine "x", .ample⟩] (.only .key)
  obtain ⟨-, stopped⟩ := next_stuck started [⟨.peek, .ample⟩, ⟨.startLine "x", .ample⟩] .scalar
  obtain ⟨page, stops, stays⟩ := stopped _ _ (by rfl) failed
  exact ⟨first, after, started, refused (by rfl), failed, by rw [page]; rfl, rfl, stops, stays⟩

end Session

end NodeDump
