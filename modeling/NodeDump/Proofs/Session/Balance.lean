import NodeDump.Proofs.Printer.Balance
import NodeDump.Session

/-!
The depth of a session's page. An operation that prints gives the depth back when it succeeds, and when it fails the
depth tells how many of the constructs it has written are still open.
-/

namespace NodeDump

def Operation.Fits : Operation → Word → Prop
  | .printNode, word => word.1 = .nodeStart
  | .printArray, word => word.1 = .arrayStart
  | _, word => word.Starting

namespace Session

/-- From one session to another, some tokens of the stream have been written behind the text on the page, and some
have been taken without being written. -/
structure Prints (before after : Session) (written lost : List Token) : Prop where
  stream : before.cursor.ahead.stream = written ++ lost ++ after.cursor.ahead.stream
  text : ∃ more, after.page.text = before.page.text ++ more
  page : before.page.Adds after.page (written.map Token.word)

def Settled (before : Session) : Outcome → Prop
  | .ok _ after => after.page.depth = before.page.depth ∧
      ∃ written, before.Prints after written [] ∧ openWords (written.map Token.word) = []
  | .error _ after => ∃ written lost, before.Prints after written lost ∧ lost.length ≤ 1 ∧
      after.page.depth = before.page.depth + (openWords (written.map Token.word)).length ∧
      ((openWords (written.map Token.word)).length : Int) =
        (written.map Token.word).countP (·.Opening) - (written.map Token.word).countP (·.Closing)

theorem settled_printValue (session : Session) : session.Settled session.printValue := by
  let printer : Printer := ⟨session.cursor, session.page, []⟩
  have settled : printer.Settled (printer.finishOn .ample) := Printer.settled_finish none rfl
  unfold printValue
  split
  · rename_i printer ended
    rw [ended] at settled
    obtain ⟨written, works, closed, depth⟩ := settled
    refine ⟨depth, written, ⟨?_, works.page.exists_append, works.page⟩, closed⟩
    rw [List.append_nil]
    exact works.stream
  · rename_i fault printer ended
    rw [ended] at settled
    obtain ⟨written, lost, works, few, depth, levels⟩ := settled
    refine ⟨written, lost, ⟨works.stream, works.page.exists_append, works.page⟩, few, ?_, ?_⟩
    · rw [levels]
      exact depth
    · rw [levels, openLevels_eq_countP]

theorem settled_self (session : Session) (fault : Fault) : session.Settled (.error fault session) :=
  ⟨[], [], ⟨rfl, ⟨"", by simp⟩, .refl _⟩, Nat.zero_le _, by simp [openWords], by simp [openWords]⟩

theorem settled_printOnly (session : Session) (first : Kind) : session.Settled (session.printOnly first) := by
  unfold printOnly
  split
  · exact session.settled_printValue
  · exact session.settled_self _

theorem printValue_of_not_starting {session : Session} (other : ¬session.cursor.current.word.Starting) :
    session.printValue = .error (.unexpected session.cursor.current) session := by
  have stepped : (Printer.mk session.cursor session.page []).step none =
      .error (.unexpected session.cursor.current) ⟨session.cursor, session.page, []⟩ := by
    unfold Printer.step Printer.value
    simp only
    split
    · exact absurd (Or.inl (Or.inl ‹_›)) other
    · exact absurd (Or.inl (Or.inr ‹_›)) other
    · exact absurd (Or.inr (Or.inl ‹_›)) other
    · exact absurd (Or.inr (Or.inr ‹_›)) other
    · rfl
  rw [printValue, Printer.finishOn, Printer.finish_of_step_error stepped]

theorem printOnly_of_ne {session : Session} {first : Kind} (other : session.cursor.current.kind ≠ first) :
    session.printOnly first = .error (.mismatch (.only first) session.cursor.current) session :=
  if_neg other

/-- Whatever is on the page and wherever the cursor stands, printing adds to the text and gives the depth back.
If it fails, the depth has grown by the constructs that are left open, which are those opened less those closed. If
it cannot even begin with the current token, nothing is changed. -/
theorem printing_balanced (session : Session) (operation : Operation)
    (prints : operation ∈ [.printValue, .printNode, .printArray]) :
    session.Settled (session.perform operation) ∧
      (¬operation.Fits session.cursor.current.word → ∃ fault,
        fault.token? = some session.cursor.current ∧ session.perform operation = .error fault session) := by
  simp only [List.mem_cons, List.not_mem_nil, or_false] at prints
  rcases prints with rfl | rfl | rfl
  · exact ⟨session.settled_printValue, fun other => ⟨_, rfl, printValue_of_not_starting other⟩⟩
  · exact ⟨session.settled_printOnly .nodeStart, fun other => ⟨_, rfl, printOnly_of_ne other⟩⟩
  · exact ⟨session.settled_printOnly .arrayStart, fun other => ⟨_, rfl, printOnly_of_ne other⟩⟩

/-- The inner array is closed again, but the node around it and the outer array are left open. -/
theorem printing_balanced_open :
    ∃ session after, start "(o \x7bA :k (1) 2" {} ⟨"x", -1, 3⟩ = .ok session ∧
      session.perform .printArray = .error (.unexpected ⟨.atom, 1, 13, "2"⟩) after ∧
      after.page = ⟨"x(o \x7bA\n   :k (\n      1\n   )", 1, 3⟩ ∧
      session.Settled (.error (.unexpected ⟨.atom, 1, 13, "2"⟩) after) := by
  let session : Session :=
    ⟨⟨⟨" \x7bA :k (1) 2".toList, ⟨2, 1, 0⟩⟩, ⟨.arrayStart, 1, 0, "(o"⟩⟩, ⟨"x", -1, 3⟩⟩
  have started : start "(o \x7bA :k (1) 2" {} ⟨"x", -1, 3⟩ = .ok session := by decide +kernel
  have seen : (match session.perform .printArray with
      | .ok _ _ => none
      | .error fault after => some (fault, after.page)) =
      some (.unexpected ⟨.atom, 1, 13, "2"⟩, ⟨"x(o \x7bA\n   :k (\n      1\n   )", 1, 3⟩) := by decide +kernel
  have settled := (printing_balanced session .printArray (by simp)).1
  cases ended : session.perform .printArray with
  | ok token? after => simp [ended] at seen
  | error fault after =>
    rw [ended, Option.some.injEq, Prod.mk.injEq] at seen
    obtain ⟨rfl, page⟩ := seen
    rw [ended] at settled
    exact ⟨session, after, started, ended, page, settled⟩

end Session

end NodeDump
