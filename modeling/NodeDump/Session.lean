import NodeDump.Printer.Stack
import NodeDump.Start

/-!
A cursor and a page worked by hand, one operation after the other. An operation that fails keeps what it
has read and written, and the session goes on from there. No operation limits the nesting, but the stack that an
operation is performed on may give out.
-/

namespace NodeDump

inductive Operation where
  | peek
  | next (expected : Token.Class)
  | write (text : String)
  | startLine (text : String)
  | shift (levels : Int)
  | printValue
  | printNode
  | printArray
  deriving DecidableEq, Repr

structure Call where
  operation : Operation
  stack : Stack := .ample
  deriving DecidableEq, Repr

structure Session where
  cursor : Cursor
  page : Page := {}
  deriving DecidableEq, Repr

namespace Session

def start (source : String) (start : Start) (page : Page) : Except StartFault Session :=
  (Cursor.ofStart source start).map fun cursor => ⟨cursor, page⟩

/-- An operation answers with a token or with nothing. A stack that gives out is a fault, that of nesting too deep. -/
abbrev Outcome := EStateM.Result Fault Session (Option Token)

def next (session : Session) (expected : Token.Class) : Outcome :=
  match session.cursor.next expected with
  | .ok token cursor => .ok (some token) { session with cursor }
  | .error fault cursor => .error fault { session with cursor }

/-- A move is one step. -/
def nextOn (session : Session) (expected : Token.Class) : Stack → Outcome
  | .upTo 0 breach => .error (.tooDeep session.cursor.current)
      { session with cursor := breach.cursor session.cursor (left (session.next expected)).cursor }
  | _ => session.next expected

def edit (session : Session) (page : Page) : Outcome := .ok none { session with page }

def printValue (session : Session) (stack : Stack := .ample) : Outcome :=
  match (Printer.mk session.cursor session.page []).finishOn stack with
  | .ok () printer => .ok none ⟨printer.cursor, printer.page⟩
  | .error fault printer => .error fault ⟨printer.cursor, printer.page⟩

theorem left_printValue (session : Session) (stack : Stack) :
    left (session.printValue stack) =
      ⟨(left ((Printer.mk session.cursor session.page []).finishOn stack)).cursor,
        (left ((Printer.mk session.cursor session.page []).finishOn stack)).page⟩ := by
  unfold printValue
  cases (Printer.mk session.cursor session.page []).finishOn stack <;> rfl

def printOnly (session : Session) (first : Kind) (stack : Stack := .ample) : Outcome :=
  if session.cursor.current.kind = first then session.printValue stack
  else .error (.mismatch (.only first) session.cursor.current) session

/-- The stack is used by what reads. The other operations call nothing. -/
def perform (session : Session) (operation : Operation) (stack : Stack := .ample) : Outcome :=
  match operation with
  | .peek => .ok (some session.cursor.current) session
  | .next expected => session.nextOn expected stack
  | .write text => session.edit (session.page.write text)
  | .startLine text => session.edit (session.page.startLine text)
  | .shift levels => session.edit (session.page.shift levels)
  | .printValue => session.printValue stack
  | .printNode => session.printOnly .nodeStart stack
  | .printArray => session.printOnly .arrayStart stack

def call (session : Session) (call : Call) : Outcome := session.perform call.operation call.stack

/-- A call looks at the token, moves, edits the page, prints a value or refuses to because of its first token. -/
theorem call_cases (session : Session) {motive : Operation → Stack → Outcome → Prop}
    (peek : ∀ stack, motive .peek stack (.ok (some session.cursor.current) session))
    (next : ∀ expected stack, motive (.next expected) stack (session.nextOn expected stack))
    (edit : ∀ operation stack page, ((∃ text, operation = .write text) ∨ (∃ text, operation = .startLine text) ∨
      ∃ levels, operation = .shift levels) → motive operation stack (session.edit page))
    (print : ∀ operation stack, operation ∈ [.printValue, .printNode, .printArray] →
      motive operation stack (session.printValue stack))
    (refuse : ∀ operation stack first, operation ∈ [.printValue, .printNode, .printArray] →
      motive operation stack (.error (.mismatch (.only first) session.cursor.current) session))
    (call : Call) : motive call.operation call.stack (session.call call) := by
  obtain ⟨operation, stack⟩ := call
  have only (operation : Operation) (first : Kind) (prints : operation ∈ [.printValue, .printNode, .printArray]) :
      motive operation stack (session.printOnly first stack) := by
    unfold printOnly
    split
    · exact print operation stack prints
    · exact refuse operation stack first prints
  cases operation with
  | peek => exact peek stack
  | next expected => exact next expected stack
  | write text => exact edit _ stack _ (Or.inl ⟨text, rfl⟩)
  | startLine text => exact edit _ stack _ (Or.inr (Or.inl ⟨text, rfl⟩))
  | shift levels => exact edit _ stack _ (Or.inr (Or.inr ⟨levels, rfl⟩))
  | printValue => exact print _ stack (by simp)
  | printNode => exact only .printNode .nodeStart (by simp)
  | printArray => exact only .printArray .arrayStart (by simp)

end Session

end NodeDump
