import StackScheme.Files

/-! The three command-line tools: one compiles a file into another, one executes bytecode, and one
evaluates a source file. Faults of the program are told on standard error; every other failure is
left to whoever called the tool. -/
namespace StackScheme

inductive Tool
  | compiler
  | machine
  | evaluator
deriving DecidableEq

/-- A tool reports the status itself, unless a failure that it does not handle ends it. -/
inductive Ending
  | success
  | refusal
  | uncaught (failure : Failure)

def Ending.status : Ending → UInt32
  | .success => 0
  | .refusal | .uncaught _ => 1

/-- What a tool leaves behind. -/
structure Report where
  stdout : String
  stderr : String
  ending : Ending
  directory : Directory

/-- How far a tool has come: only bytecode may take more steps than it has been given. -/
inductive Progress
  | finished (report : Report)
  | executing (machine : Machine) (directory : Directory)

namespace Tool

def ofName? : String → Option Tool
  | "msc" => some .compiler
  | "msvm" => some .machine
  | "msrun" => some .evaluator
  | _ => none

def usage : Tool → String
  | .compiler => "Usage: msc <scheme file> <bytecode file>\n"
  | .machine => "Usage: msvm <bytecode file>\n"
  | .evaluator => "Usage: msrun <scheme file>\n"

/-- The file that a tool with these arguments writes. -/
def output? : Tool → List String → Option String
  | .compiler, _ :: output :: _ => some output
  | _, _ => none

def explain (tool : Tool) (directory : Directory) : Progress :=
  .finished ⟨tool.usage, "", .refusal, directory⟩

def succeed (stdout stderr : String) (directory : Directory) : Progress :=
  .finished ⟨stdout, stderr, .success, directory⟩

def stop (failure : Failure) (stdout stderr : String) (directory : Directory) : Progress :=
  .finished <| match failure with
    | .program _ =>
      ⟨stdout, stderr ++ "error: " ++ failure.message ++ "\n", .refusal, directory⟩
    | failure => ⟨stdout, stderr, .uncaught failure, directory⟩

/-- Remarks for debugging are not shown. -/
def shown (log : List LogRecord) : String :=
  String.join ((log.filter (·.level = .info)).map (·.text ++ "\n"))

def compile (source output : String) (directory : Directory) : Progress :=
  let shop : Workshop := { directory }
  let stderr := shown (shop.log source)
  match Workshop.build source output shop with
  | .ok _ shop => succeed "" stderr shop.directory
  | .error failure shop => stop failure "" stderr shop.directory

def load (file : String) (directory : Directory) : Progress :=
  match Machine.loadFile directory file {} with
  | .ok () loaded => .executing loaded directory
  | .error failure loaded => stop failure loaded.output "" directory

def evaluate (file : String) (directory : Directory) : Progress :=
  match Evaluator.evaluateFile directory file {} with
  | .ok () state => succeed state.output (shown state.log) directory
  | .error failure state => stop failure state.output (shown state.log) directory

/-- Surplus arguments are ignored. -/
def start : Tool → List String → Directory → Progress
  | .compiler, source :: output :: _, directory => compile source output directory
  | .machine, file :: _, directory => load file directory
  | .evaluator, file :: _, directory => evaluate file directory
  | tool, _, directory => tool.explain directory

end Tool

/-- Gives bytecode this many steps more. -/
def Progress.advance (steps : Nat) : Progress → Progress
  | .finished report => .finished report
  | .executing machine directory =>
    match Machine.run steps machine with
    | .ok .halted machine => Tool.succeed machine.output "" directory
    | .ok .paused machine => .executing machine directory
    | .error failure machine => Tool.stop failure machine.output "" directory

end StackScheme
