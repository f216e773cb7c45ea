import StackScheme.CommandLine

/-! The command line. The first argument names a tool, and the others are that tool's arguments.
Only the files that the arguments name are looked at, and only one that a tool has made is
written. -/
namespace StackScheme.Main

/-- Adds what the first steps of a path lead to on the file system, unless it is known. A file that
is there only to be written to is not read. -/
def look (reads : Bool) (path : Path) (directory : Directory) (count : Nat) : IO Directory := do
  let steps := path.steps.take count
  let location := { path with steps }.location directory.here
  let place := (← IO.currentDir) / ("/" ++ "/".intercalate location.reverse)
  match directory.look location with
  | .ok none =>
    if ← place.isDir then return { directory with folders := location :: directory.folders }
    else if ← place.pathExists then
      let bytes ← if reads then IO.FS.readBinFile place else pure ByteArray.empty
      return { directory with files := directory.files.insert location bytes }
    else return directory
  | _ => return directory

/-- Adds what is found on the way to a name, and at its end. -/
def observe (reads : Bool) (directory : Directory) (name : String) : IO Directory := do
  let path := Path.ofString name
  (List.range (path.steps.length + 1)).foldlM (look reads path) directory

def commit (directory : Directory) (name : String) : IO Unit := do
  if let .ok bytes := directory.readBytes name then
    IO.FS.writeBinFile ((← IO.currentDir) / name) bytes

/-- Lets bytecode run as long as it takes, and prints as it goes. -/
partial def complete : Progress → IO Report
  | .finished report => return report
  | .executing machine directory => do
    IO.print machine.output
    complete ((Progress.executing { machine with output := "" } directory).advance 100000)

def invoke (tool : Tool) (args : List String) : IO UInt32 := do
  let here := ((← IO.currentDir).components.filter (· ≠ "")).reverse
  let devices := Table.ofList Directory.commonDevices
  let directory ← (args.take 1).foldlM (observe true) { here, devices }
  let directory ← (tool.output? args).toList.foldlM (observe false) directory
  let report ← complete (tool.start args directory)
  IO.print report.stdout
  IO.eprint report.stderr
  match report.ending, tool.output? args with
  | .success, some name => commit report.directory name
  | .uncaught failure, _ => IO.eprintln failure.message
  | _, _ => pure ()
  return report.ending.status

end StackScheme.Main

open StackScheme in
def main (args : List String) : IO UInt32 := do
  match args with
  | name :: args =>
    if let some tool := Tool.ofName? name then return ← Main.invoke tool args
  | [] => pure ()
  for tool in [Tool.compiler, Tool.machine, Tool.evaluator] do
    IO.print tool.usage
  return 1
