import NodeDump.Proofs.Scan.Counted
import NodeDump.Proofs.Session.Follows
import NodeDump.Rendering

/-!
Places along a whole run. Printing does nothing with a cursor but move it, and neither does any other operation. At
every moment of a session the cursor and its token, and all that an operation delivers or blames, stand in the line
and the column that are counted off the source.
-/

namespace NodeDump
open Lexeme

/-- A fault is put down to what stands in the source, a stray character where the cursor is left. -/
def Cursor.Blames (source : List Char) (cursor : Cursor) (fault : Fault) : Prop :=
  ∃ offset, fault.StandsAt source offset ∧ (fault.token? = none → offset = cursor.position.index)

namespace Printer

variable {limit : Option Nat} {printer after : Printer} {source : List Char} {fault : Fault}

theorem moves_finish (limit : Option Nat) (printer : Printer) :
    Relation.ReflTransGen Cursor.MovesTo printer.cursor (left (printer.finish limit)).cursor := by
  have goes_on {before : Printer} {outcome : Outcome}
      (moves : Relation.ReflTransGen Cursor.MovesTo printer.cursor before.cursor)
      (stepped : before.step limit = outcome) :
      Relation.ReflTransGen Cursor.MovesTo printer.cursor (left outcome).cursor := by
    rw [← stepped]
    exact moves.trans (moves_step limit before).to_reflTransGen
  exact finish_induction limit
    (fun now => Relation.ReflTransGen Cursor.MovesTo printer.cursor now.cursor)
    (fun outcome => Relation.ReflTransGen Cursor.MovesTo printer.cursor (left outcome).cursor)
    (fun _ _ moves stepped _ => goes_on moves stepped) (fun _ _ moves stepped _ => goes_on moves stepped)
    (fun _ _ _ moves stepped => goes_on moves stepped) printer .refl

theorem blames_step (placed : printer.cursor.Placed source)
    (stepped : printer.step limit = .error fault after) : after.cursor.Blames source fault := by
  obtain ⟨offset, stands⟩ := placed.current
  have goes := goes_step limit printer
  rw [stepped] at goes
  cases goes with
  | full => exact ⟨offset, stands, by simp [Fault.token?]⟩
  | hidden _ failed =>
    obtain ⟨-, stray, -⟩ := placed.advance_error failed
    exact ⟨_, stray, fun _ => rfl⟩
  | taken => exact ⟨offset, stands, by simp [Fault.token?]⟩
  | refused => exact ⟨offset, stands, by simp [Fault.token?]⟩

def Placed (source : List Char) : Outcome → Prop
  | .ok () after => after.cursor.Placed source
  | .error fault after => after.cursor.Placed source ∧ after.cursor.Blames source fault

theorem placed_step (placed : printer.cursor.Placed source) (limit : Option Nat) :
    Placed source (printer.step limit) := by
  have here : (left (printer.step limit)).cursor.Placed source := by
    have moves := moves_step limit printer
    generalize (left (printer.step limit)).cursor = moved at moves ⊢
    rcases moves with _ | ⟨⟨token, moves⟩ | ⟨fault, failed⟩⟩
    · exact placed
    · exact placed.advance moves
    · exact (placed.advance_error failed).1
  cases stepped : printer.step limit with
  | ok _ after =>
    rw [stepped] at here
    exact here
  | error fault after =>
    rw [stepped] at here
    exact ⟨here, blames_step placed stepped⟩

theorem placed_of_step {outcome : Outcome} (placed : printer.cursor.Placed source)
    (stepped : printer.step limit = outcome) : Placed source outcome :=
  stepped ▸ placed_step placed limit

theorem placed_finish (placed : printer.cursor.Placed source) (limit : Option Nat) :
    Placed source (printer.finish limit) :=
  finish_induction limit (fun now => now.cursor.Placed source) (Placed source)
    (fun _ _ placed stepped _ => placed_of_step placed stepped)
    (fun _ _ placed stepped _ => placed_of_step placed stepped)
    (fun _ _ _ placed stepped => placed_of_step placed stepped) printer placed

theorem placed_broken (placed : printer.cursor.Placed source) (breach : Breach) :
    Placed source (printer.broken breach) := by
  obtain ⟨passes, -⟩ := Cursor.breaks_off breach (moves_step none printer)
  obtain ⟨offset, stands⟩ := placed.current
  refine ⟨placed.passes passes (Cursor.current_breach breach), offset, stands, ?_⟩
  simp [Fault.token?]

theorem placed_finishOn (placed : printer.cursor.Placed source) (stack : Stack) :
    Placed source (printer.finishOn stack) :=
  finishOn_induction stack (fun now => now.cursor.Placed source) (Placed source)
    (fun _ _ placed stepped _ => placed_of_step placed stepped)
    (fun _ _ placed stepped _ => placed_of_step placed stepped)
    (fun _ _ _ placed stepped => placed_of_step placed stepped)
    (fun _ breach _ placed => placed_broken placed breach) printer placed

end Printer

namespace Session

def outcomes (session : Session) : List Call → List Outcome
  | [] => []
  | call :: later => session.call call :: (left (session.call call)).outcomes later

/-- All places in an outcome are counted off the source: that of the cursor and its token, and that of the token
it delivers or of what it blames. -/
def Counted (source : List Char) : Outcome → Prop
  | .ok token? session =>
    session.cursor.Counted source ∧ ∀ token ∈ token?, ∃ offset, token.StandsAt source offset
  | .error fault session => session.cursor.Counted source ∧ session.cursor.Blames source fault

def Placed (source : List Char) : Outcome → Prop
  | .ok token? session =>
    session.cursor.Placed source ∧ ∀ token ∈ token?, ∃ offset, token.StandsAt source offset
  | .error fault session => session.cursor.Placed source ∧ session.cursor.Blames source fault

variable {source : List Char} {session : Session}

theorem placed_next (placed : session.cursor.Placed source) (expected : Token.Class) :
    Placed source (session.next expected) := by
  obtain ⟨offset, stands⟩ := placed.current
  unfold Session.next Cursor.next
  split
  · rename_i token cursor moved
    split at moved
    · refine ⟨placed.advance moved, ?_⟩
      obtain rfl := Cursor.token_of_advance moved
      simpa using ⟨offset, stands⟩
    · contradiction
  · rename_i fault cursor failed
    split at failed
    · obtain ⟨here, stray, -⟩ := placed.advance_error failed
      exact ⟨here, _, stray, fun _ => rfl⟩
    · cases failed
      exact ⟨placed, offset, stands, by simp [Fault.token?]⟩

theorem placed_nextOn (placed : session.cursor.Placed source) (expected : Token.Class) (stack : Stack) :
    Placed source (session.nextOn expected stack) := by
  unfold nextOn
  split
  · rename_i breach
    obtain ⟨passes, -⟩ := Cursor.breaks_off breach (moves_next session expected)
    obtain ⟨offset, stands⟩ := placed.current
    exact ⟨placed.passes passes (Cursor.current_breach breach), offset, stands, by simp [Fault.token?]⟩
  · exact placed_next placed expected

theorem placed_printValue (placed : session.cursor.Placed source) (stack : Stack) :
    Placed source (session.printValue stack) := by
  have printed : Printer.Placed source ((Printer.mk session.cursor session.page []).finishOn stack) :=
    Printer.placed_finishOn placed stack
  unfold Session.printValue
  split
  · rename_i printer ended
    rw [ended] at printed
    exact ⟨printed, by simp⟩
  · rename_i fault printer ended
    rw [ended] at printed
    exact printed

theorem placed_call (placed : session.cursor.Placed source) (call : Call) : Placed source (session.call call) := by
  obtain ⟨offset, stands⟩ := placed.current
  refine session.call_cases (motive := fun _ _ outcome => Placed source outcome) ?_ ?_ ?_ ?_ ?_ call
  · intro stack
    exact ⟨placed, by simpa using ⟨offset, stands⟩⟩
  · intro expected stack
    exact placed_nextOn placed expected stack
  · intro operation stack page edits
    exact ⟨placed, by simp⟩
  · intro operation stack prints
    exact placed_printValue placed stack
  · intro operation stack first prints
    exact ⟨placed, offset, stands, by simp [Fault.token?]⟩

theorem Placed.left {outcome : Outcome} (placed : Placed source outcome) : (left outcome).cursor.Placed source := by
  cases outcome <;> exact placed.1

/-- With an ample stack nothing is done to a cursor but to move it. -/
theorem moves_call (session : Session) {call : Call} (ample : call.stack = .ample) :
    Relation.ReflTransGen Cursor.MovesTo session.cursor (left (session.call call)).cursor := by
  revert ample
  refine session.call_cases (motive := fun _ stack outcome => stack = .ample →
    Relation.ReflTransGen Cursor.MovesTo session.cursor (left outcome).cursor) ?_ ?_ ?_ ?_ ?_ call
  · exact fun _ _ => .refl
  · rintro expected _ rfl
    exact (moves_next session expected).to_reflTransGen
  · exact fun _ _ _ _ _ => .refl
  · rintro operation _ prints rfl
    rw [left_printValue]
    exact Printer.moves_finish none ⟨session.cursor, session.page, []⟩
  · exact fun _ _ _ _ _ => .refl

theorem counted_call (counted : session.cursor.Counted source) {call : Call} (ample : call.stack = .ample) :
    Counted source (session.call call) := by
  -- Where the token stands is known from the moves, what is delivered or blamed from the weaker invariant.
  have here := counted.moves (moves_call session ample)
  have placed := placed_call counted.placed call
  generalize session.call call = outcome at here placed ⊢
  cases outcome <;> exact ⟨here, placed.2⟩

theorem Counted.left {outcome : Outcome} (counted : Counted source outcome) :
    (left outcome).cursor.Counted source := by
  cases outcome <;> exact counted.1

theorem placed_outcomes (placed : session.cursor.Placed source) (calls : List Call) :
    ∀ outcome ∈ session.outcomes calls, Placed source outcome := by
  induction calls generalizing session with
  | nil => simp [outcomes]
  | cons call later ih =>
    have first := placed_call placed call
    exact List.forall_mem_cons.2 ⟨first, ih first.left⟩

theorem counted_outcomes (counted : session.cursor.Counted source) {calls : List Call}
    (ample : ∀ call ∈ calls, call.stack = .ample) : ∀ outcome ∈ session.outcomes calls, Counted source outcome := by
  induction calls generalizing session with
  | nil => simp [outcomes]
  | cons call later ih =>
    obtain ⟨here, behind⟩ := List.forall_mem_cons.1 ample
    have first := counted_call counted here
    exact List.forall_mem_cons.2 ⟨first, ih first.left behind⟩

end Session

theorem blames_of_format {source : String} {width : Int} {limit : Option Nat} {fault : Fault}
    (found : (format source width limit).fault? = some fault) : ∃ offset, fault.StandsAt source.toList offset := by
  unfold format at found
  split at found
  · rename_i failed
    cases found
    exact Cursor.ofSource_error failed
  · rename_i cursor begun
    have placed : Printer.Placed source.toList ((Printer.mk cursor { width } []).finish limit) :=
      Printer.placed_finish (Cursor.counted_ofSource begun).placed limit
    cases ended : (Printer.mk cursor { width } []).finish limit with
    | ok _ printer =>
      rw [ended] at placed
      rw [Rendering.ofCursor, ended, Rendering.ofOutcome, Rendering.ofPrinted] at found
      split at found
      · contradiction
      · cases found
        exact placed.current
    | error other printer =>
      rw [ended] at placed
      rw [Rendering.ofCursor, ended] at found
      cases found
      obtain ⟨-, offset, stands, -⟩ := placed
      exact ⟨offset, stands⟩

/-- Wherever a cursor is moved, and whatever is done with it, all places are those that are counted off the source.
So is the place of each token that the source is divided into, which stands behind the tokens before it, and the
place of whatever is blamed when the source cannot be divided or laid out. -/
theorem places_counted (source : String) :
    (∀ first cursor, Cursor.ofSource source = .ok first → Relation.ReflTransGen Cursor.MovesTo first cursor →
      cursor.Counted source.toList) ∧
    (∀ page calls session, Session.start source {} page = .ok session → ∀ outcome ∈ session.outcomes calls,
      Session.Placed source.toList outcome ∧
        ((∀ call ∈ calls, call.stack = .ample) → Session.Counted source.toList outcome)) ∧
    (∀ front token later, tokenise source = .ok (front ++ token :: later) →
      ∃ items gap, items.map Prod.snd = front.map Token.word ∧ (∀ item ∈ items, Run Char.isWhitespace item.1) ∧
        Run Char.isWhitespace gap ∧ spell items gap <+: source.toList ∧
        token.StandsAt source.toList (spell items gap).length) ∧
    ∀ fault, (Cursor.ofSource source = .error fault ∨ tokenise source = .error fault ∨
      ∃ width limit, (format source width limit).fault? = some fault) →
      ∃ offset, fault.StandsAt source.toList offset := by
  refine ⟨?_, ?_, ?_, ?_⟩
  · intro first cursor begun moves
    exact (Cursor.counted_ofSource begun).moves moves
  · intro page calls session started outcome among
    have counted := Cursor.counted_ofSource (Cursor.ofStart_default_iff.1 (Session.cursor_of_start started))
    exact ⟨Session.placed_outcomes counted.placed calls outcome among,
      fun ample => Session.counted_outcomes counted ample outcome among⟩
  · intro front token later scanned
    obtain ⟨tokens, -⟩ := Scan.ending_of_tokenise scanned
    obtain ⟨items, gap, words, blank, last, text, stands⟩ :=
      (Reader.counted_ofSource source).stands tokens
    exact ⟨items, gap, words, blank, last, text, by simpa [Reader.ofSource] using stands⟩
  · rintro fault (failed | failed | ⟨width, limit, found⟩)
    · exact Cursor.ofSource_error failed
    · have ending := (Reader.counted_ofSource source).ending
      rw [← Scan.ofSource, Scan.tokenise_eq_error_iff.1 failed] at ending
      exact ending
    · exact blames_of_format found

/-- An atom over two lines, a carriage return, and a cursor that a stray character has stopped behind a key. -/
theorem places_counted_stopped :
    ∃ first cursor, Cursor.ofSource "1 [\n2]\r :k\n $" = .ok first ∧
      Relation.ReflTransGen Cursor.MovesTo first cursor ∧ cursor.position = ⟨12, 3, 11⟩ ∧
      cursor.current = ⟨.key, 2, 4, ":k"⟩ ∧ cursor.Counted "1 [\n2]\r :k\n $".toList ∧
      tokenise "1 [\n2]\r :k\n $" = .error (.strayCharacter '$' 3 1) ∧
      ∃ offset, (Fault.strayCharacter '$' 3 1).StandsAt "1 [\n2]\r :k\n $".toList offset := by
  let first : Cursor := ⟨⟨"\r :k\n $".toList, ⟨6, 2, 4⟩⟩, ⟨.atom, 1, 0, "1 [\n2]"⟩⟩
  let second : Cursor := ⟨⟨"\n $".toList, ⟨10, 2, 4⟩⟩, ⟨.key, 2, 4, ":k"⟩⟩
  let last : Cursor := ⟨⟨['$'], ⟨12, 3, 11⟩⟩, ⟨.key, 2, 4, ":k"⟩⟩
  have begun : Cursor.ofSource "1 [\n2]\r :k\n $" = .ok first := by decide +kernel
  have moved : first.advance = .ok first.current second := by rfl
  have failed : second.advance = .error (.strayCharacter '$' 3 1) last := by cbv
  have moves : Relation.ReflTransGen Cursor.MovesTo first last :=
    .tail (.single (Or.inl ⟨_, moved⟩)) (Or.inr ⟨_, failed⟩)
  have stuck : tokenise "1 [\n2]\r :k\n $" = .error (.strayCharacter '$' 3 1) := by decide +kernel
  obtain ⟨cursors, -, -, faults⟩ := places_counted "1 [\n2]\r :k\n $"
  exact ⟨first, last, begun, moves, rfl, rfl, cursors first last begun moves, stuck,
    faults _ (Or.inr (Or.inl stuck))⟩

end NodeDump
