import StackScheme.Compiler
import StackScheme.Directory
import StackScheme.Evaluator
import StackScheme.Machine

/-! Reading, compiling, evaluating and executing what stands in files. -/
namespace StackScheme

def Directory.readText (directory : Directory) (name : String) : Except Failure String :=
  match directory.read name with
  | .ok text => .ok text
  | .error fault => .error (.file fault)

def Reader.readFile (directory : Directory) (name : String) : Except Failure Program := do
  readSource (← directory.readText name)

def Evaluator.evaluateFile (directory : Directory) (name : String) : EvalM Unit := do
  evaluateProgram (← Failure.lift (Reader.readFile directory name))

def Machine.loadFile (directory : Directory) (name : String) : MachineM Unit := do
  loadListing (← Failure.lift (directory.readText name))

def Machine.loadAndRunFile (steps : Nat) (directory : Directory) (name : String) :
    MachineM RunEnd := do
  loadFile directory name
  run steps

/-- A compiler that works on files: its registers and labels, and the files themselves. -/
structure Workshop where
  context : Context := {}
  directory : Directory := {}

abbrev WorkshopM := EStateM Failure Workshop

namespace Workshop

/-- Compiles the forms of a file. Nothing is written yet. -/
def compileFile (source : String) : WorkshopM Code := fun shop =>
  match Reader.readFile shop.directory source with
  | .error failure => .error failure shop
  | .ok forms =>
    match Compiler.compileProgram forms shop.context with
    | .ok code context => .ok code { shop with context }
    | .error failure context => .error failure { shop with context }

/-- Writes bytecode to a file, which is emptied first. -/
def writeCode (output : String) (code : Code) : WorkshopM Unit := fun shop =>
  match shop.directory.write output "" with
  | .error fault => .error (.file fault) shop
  | .ok emptied =>
    match encode code with
    | .error fault => .error (.numeral fault) { shop with directory := emptied }
    | .ok text =>
      match emptied.write output text with
      | .error fault => .error (.file fault) { shop with directory := emptied }
      | .ok directory => .ok () { shop with directory }

/-- Compiles one file into another. The output is touched only if the whole source compiles. -/
def build (source output : String) : WorkshopM Code := do
  let code ← compileFile source
  writeCode output code
  return code

/-- What compiling a file reports. -/
def log (shop : Workshop) (source : String) : List LogRecord :=
  match Reader.readFile shop.directory source with
  | .ok forms => Compiler.log forms shop.context
  | .error _ => []

end Workshop
end StackScheme
