import NodeDump.Cursor
import NodeDump.Page

/-!
Printing a value while it is read. The printer keeps a stack of the nodes and arrays that are open, so no
nesting is too deep for it; a limit on the stack is a matter of choice. An attribute stands on a line of
its own, and so does each element of an array without a tag. A step that succeeds takes one token. What has
been written when a fault is met stays written, and what was opened stays indented.
-/

namespace NodeDump

inductive NodeEnding where
  | start | key | value
  deriving DecidableEq, Repr

inductive Frame where
  | node (ending : NodeEnding)
  | array (tagged filled : Bool)
  deriving DecidableEq, Repr

structure Printer where
  cursor : Cursor
  page : Page
  /-- The innermost construct comes first. -/
  frames : List Frame := []
  deriving DecidableEq, Repr

namespace Printer

abbrev Outcome := EStateM.Result Fault Printer Unit

/-- Moves past the current token and goes on with what `use` makes of it. -/
def take (printer : Printer) (use : Token → Printer → Outcome) : Outcome :=
  match printer.cursor.advance with
  | .ok token cursor => use token { printer with cursor }
  | .error fault cursor => .error fault { printer with cursor }

def write (printer : Printer) (text : String) : Printer :=
  { printer with page := printer.page.write text }

def startLine (printer : Printer) (text : String) : Printer :=
  { printer with page := printer.page.startLine text }

def opening (printer : Printer) (token : Token) (inner : Frame) : Printer where
  cursor := printer.cursor
  page := (printer.page.write token.text).shift 1
  frames := inner :: printer.frames

/-- Writes the token that closes the innermost construct, on a line of its own if `broken`. -/
def closing (printer : Printer) (token : Token) (broken : Bool) (outer : List Frame) : Printer where
  cursor := printer.cursor
  page :=
    let page := printer.page.shift (-1)
    if broken then page.startLine token.text else page.write token.text
  frames := outer

/-- The limit is checked before the opening token is taken. -/
def enter (printer : Printer) (limit : Option Nat) (inner : Frame) : Outcome :=
  if limit.any (· ≤ printer.frames.length) then .error (.tooDeep printer.cursor.current) printer
  else printer.take fun token printer => .ok () (printer.opening token inner)

def value (printer : Printer) (limit : Option Nat) : Outcome :=
  let token := printer.cursor.current
  match token.kind with
  | .nodeStart => printer.enter limit (.node .start)
  | .arrayStart => printer.enter limit (.array (token.tag ≠ "") false)
  | .string | .atom => printer.take fun token printer => .ok () (printer.write token.text)
  | _ => .error (.unexpected token) printer

/-- The next key or the end of a node. The token is taken before it is checked. -/
def keyOrEnd (printer : Printer) (ending : NodeEnding) (outer : List Frame) : Outcome :=
  printer.take fun token printer =>
    match token.kind with
    | .key => .ok () { printer.startLine (token.text ++ " ") with frames := .node .key :: outer }
    | .nodeEnd => .ok () (printer.closing token (ending ≠ .start) outer)
    | _ => .error (.unexpected token) printer

/-- A key may be without a value, and one that has a value has no more than one. -/
def inNode (printer : Printer) (limit : Option Nat) (ending : NodeEnding) (outer : List Frame) :
    Outcome :=
  let kind := printer.cursor.current.kind
  if ending = .key ∧ kind ≠ .key ∧ kind ≠ .nodeEnd then
    { printer with frames := .node .value :: outer }.value limit
  else printer.keyOrEnd ending outer

def inArray (printer : Printer) (limit : Option Nat) (tagged filled : Bool) (outer : List Frame) :
    Outcome :=
  if printer.cursor.current.kind = .arrayEnd then
    printer.take fun token printer => .ok () (printer.closing token (filled && !tagged) outer)
  else
    let separated := if tagged then printer.write " " else printer.startLine ""
    { separated with frames := .array tagged true :: outer }.value limit

/-- With nothing open, a step starts a value. -/
def step (printer : Printer) (limit : Option Nat) : Outcome :=
  match printer.frames with
  | [] => printer.value limit
  | .node ending :: outer => printer.inNode limit ending outer
  | .array tagged filled :: outer => printer.inArray limit tagged filled outer

end Printer

end NodeDump
