import StackScheme.Bytecode.Decode
import StackScheme.Log
import StackScheme.Table
import StackScheme.Text.Line

/-! The stack machine. Code is loaded behind the code that is there, and execution goes on from the
program counter until that has passed the last instruction. -/
namespace StackScheme

structure Machine where
  code : Array Instr := #[]
  /-- The position of the instruction that follows each label. -/
  labels : Table String Nat := {}
  /-- The values on the stack, the top first. -/
  stack : List Int := []
  registers : Table Int Int := {}
  pc : Nat := 0
  output : String := ""

/-- What a failing operation has done to the machine before it failed is not undone. -/
abbrev MachineM := EStateM Failure Machine

/-- Whether a bounded run came to the end of the code. -/
inductive RunEnd
  | halted
  | paused
deriving DecidableEq

namespace Machine

def fail {α : Type} (fault : MachineFault) : MachineM α := fun machine =>
  .error (.ofFault (.machine fault)) machine

/-- Puts an instruction behind the code. A label that gets there cannot be executed. -/
def append (instr : Instr) : MachineM Unit := fun machine =>
  .ok () { machine with code := machine.code.push instr }

def mark (label : String) : MachineM Unit := fun machine =>
  .ok () { machine with labels := machine.labels.insert label machine.code.size }

/-- A label takes no place in the code; it marks the end of what has been loaded. -/
def place : Instr → MachineM Unit
  | .label name => mark name
  | instr => append instr

def loadLine (line : String) : MachineM Unit := fun machine =>
  match Instr.decode line with
  | .ok none => .ok () machine
  | .ok (some instr) => place instr machine
  | .error failure => .error failure machine

/-- Loads lines, the first of which has this number. The lines before a bad one stay loaded. -/
def loadLines (number : Nat) : List String → MachineM Unit
  | [] => return
  | line :: rest => do
    Failure.onLine number (loadLine line)
    loadLines (number + 1) rest

def loadListing (text : String) : MachineM Unit :=
  loadLines 1 (Text.lines text)

/-- The report of a machine that has just been loaded. -/
def loaded (machine : Machine) : LogRecord :=
  ⟨.debug, s!"loaded {machine.code.size} instructions, {machine.labels.size} labels"⟩

def push (value : Int) : MachineM Unit := fun machine =>
  .ok () { machine with stack := value :: machine.stack }

/-- The counter has already left the instruction that pops. -/
def pop : MachineM Int := fun machine =>
  match machine.stack with
  | [] => .error (.ofFault (.machine (.stackUnderflow (machine.pc - 1)))) machine
  | value :: rest => .ok value { machine with stack := rest }

def positionOf (label : String) : MachineM Nat := fun machine =>
  match machine.labels.find? label with
  | some position => .ok position machine
  | none => .error (.ofFault (.machine (.undefinedLabel label))) machine

def jumpTo (position : Nat) : MachineM Unit := fun machine =>
  .ok () { machine with pc := position }

def printLine (value : Int) : MachineM Unit := fun machine =>
  match Numeral.write value with
  | .ok text => .ok () { machine with output := machine.output ++ text ++ "\n" }
  | .error fault => .error (.numeral fault) machine

def store (register value : Int) : MachineM Unit := fun machine =>
  .ok () { machine with registers := machine.registers.insert register value }

def load (register : Int) : MachineM Int := fun machine =>
  match machine.registers.find? register with
  | some value => .ok value machine
  | none =>
    match Numeral.write register with
    | .ok _ => .error (.ofFault (.machine (.unsetRegister register))) machine
    | .error fault => .error (.numeral fault) machine

/-- The effect of an instruction once the counter has moved on. A jump looks up its label before it
looks at the stack. -/
def execute : Instr → MachineM Unit
  | .push value => push value
  | .print => do printLine (← pop)
  | .arith op => do
    let last ← pop
    let first ← pop
    push (op.apply first last)
  | .jump label => do jumpTo (← positionOf label)
  | .jumpIfZero label => do
    let position ← positionOf label
    if (← pop) = 0 then jumpTo position
  | .jumpIfNonzero label => do
    let position ← positionOf label
    if (← pop) ≠ 0 then jumpTo position
  | .store register => do store register (← pop)
  | .load register => do push (← load register)
  | .label name => fail (.notExecutable name)

def step : MachineM Unit := fun machine =>
  match machine.code[machine.pc]? with
  | none => .error .pastEnd machine
  | some instr => execute instr { machine with pc := machine.pc + 1 }

def running (machine : Machine) : Bool :=
  machine.pc < machine.code.size

/-- Runs to the end of the code, if that takes no more than this many steps. -/
def run : Nat → MachineM RunEnd
  | 0 => fun machine => .ok (if machine.running then .paused else .halted) machine
  | steps + 1 => fun machine =>
    if machine.running then
      match step machine with
      | .ok () machine => run steps machine
      | .error failure machine => .error failure machine
    else .ok .halted machine

/-- Loads a text and runs from the present counter on. -/
def loadAndRun (steps : Nat) (text : String) : MachineM RunEnd := do
  loadListing text
  run steps

end Machine
end StackScheme
