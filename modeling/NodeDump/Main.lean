import NodeDump.Command

/-!
The program: reads the arguments and the input, runs the command and prints what it reports.
-/

namespace NodeDump

def readIfPresent (path : String) : IO (Option ByteArray) := do
  try
    return some (← IO.FS.readBinFile path)
  catch
    | .noFileOrDirectory .. => return none
    | problem => throw problem

end NodeDump

open NodeDump

def main (args : List String) : IO UInt32 := do
  let standardInput ← if args.isEmpty then (← IO.getStdin).readBinToEnd else pure .empty
  let content ← match args with
    | [path] => readIfPresent path
    | _ => pure none
  match Command.run args standardInput fun _ => content with
  | .ok report =>
    IO.print report.output
    IO.eprint report.messages
    return report.status.toUInt32
  | .error problem =>
    IO.eprintln problem.message
    return 1
