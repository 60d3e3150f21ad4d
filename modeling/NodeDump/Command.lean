import NodeDump.Rendering
import NodeDump.Text.Newline

/-!
The command line. It takes a dump from a file or from the standard input, as text in UTF-8, and answers
with the layout and, if there is one, the problem. The dump is laid out as far as it goes either way.
-/

namespace NodeDump

structure Report where
  status : UInt8
  output : String
  messages : String
  deriving DecidableEq, Repr

inductive InputError where
  | missing (path : String)
  | notText
  deriving DecidableEq, Repr

namespace InputError

def message : InputError → String
  | missing path => s!"no such file: {path}"
  | notText => "the input is not UTF-8"

end InputError

namespace Command

def usage : String :=
  "Usage: python -m pgnodefmt [filename]\n" ++
  "Reads a node dump from the file, or stdin, and prints it indented.\n"

def report (text : String) : Report :=
  let rendering := format text
  match rendering.fault? with
  | none => ⟨0, rendering.text ++ "\n", ""⟩
  | some fault => ⟨1, rendering.text ++ "\n", "error: " ++ fault.message ++ "\n"⟩

def decode (bytes : ByteArray) : Except InputError String :=
  match String.fromUTF8? bytes with
  | none => .error .notText
  | some text => .ok (Text.unifyNewlines text)

/-- `file?` gives the content of a file that exists. -/
def run (args : List String) (standardInput : ByteArray) (file? : String → Option ByteArray) :
    Except InputError Report :=
  match args with
  | [] => (decode standardInput).map report
  | [path] =>
    match file? path with
    | none => .error (.missing path)
    | some content => (decode content).map report
  | _ => .ok ⟨2, "", usage⟩

end Command

end NodeDump
