import NodeDump.Printer.Run

/-!
The layout of a whole text, which has to be one value and nothing else. A text that is at fault is laid
out up to the fault.
-/

namespace NodeDump

structure Rendering where
  /-- Without a line break at the end. -/
  text : String
  fault? : Option Fault
  deriving DecidableEq, Repr

/-- How many nodes and arrays may be open at once. -/
def nestingLimit : Nat := 497

namespace Rendering

def ofPrinted (printer : Printer) : Rendering where
  text := printer.page.text
  fault? :=
    if printer.cursor.current.isEnd then none else some (.trailing printer.cursor.current)

def ofOutcome : Printer.Outcome → Rendering
  | .ok () printer => ofPrinted printer
  | .error fault printer => ⟨printer.page.text, some fault⟩

def ofCursor (cursor : Cursor) (width : Int) (limit : Option Nat) : Rendering :=
  ofOutcome ((Printer.mk cursor { width } []).finish limit)

end Rendering

def format (source : String) (width : Int := 2) (limit : Option Nat := some nestingLimit) :
    Rendering :=
  match Cursor.ofSource source with
  | .error fault => ⟨"", some fault⟩
  | .ok cursor => Rendering.ofCursor cursor width limit

end NodeDump
