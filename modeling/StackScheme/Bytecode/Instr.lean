import StackScheme.Failure
import StackScheme.Operator

/-! The instructions of the stack machine and their text. A label is no instruction of its own: it
marks the place of the instruction that follows it. -/
namespace StackScheme

inductive Instr
  | push (value : Int)
  | print
  | arith (op : Arith)
  | jump (target : String)
  | jumpIfZero (target : String)
  | jumpIfNonzero (target : String)
  | store (register : Int)
  | load (register : Int)
  | label (name : String)
deriving DecidableEq

abbrev Code := List Instr

inductive Opcode
  | push
  | print
  | arith (op : Arith)
  | jump
  | jumpIfZero
  | jumpIfNonzero
  | store
  | load
deriving DecidableEq

def Arith.mnemonic : Arith → String
  | .add => "ADD"
  | .sub => "SUB"
  | .mul => "MUL"

def Opcode.mnemonic : Opcode → String
  | .push => "PUSH"
  | .print => "PRINT"
  | .arith op => op.mnemonic
  | .jump => "JMP"
  | .jumpIfZero => "JZ"
  | .jumpIfNonzero => "JNZ"
  | .store => "STOR"
  | .load => "LOAD"

/-- An opcode and its operand. -/
def Opcode.applied (opcode : Opcode) (operand : String) : String :=
  opcode.mnemonic ++ " " ++ operand

namespace Instr

def text : Instr → String
  | .push value => Opcode.push.applied (toString value)
  | .print => Opcode.print.mnemonic
  | .arith op => op.mnemonic
  | .jump target => Opcode.jump.applied target
  | .jumpIfZero target => Opcode.jumpIfZero.applied target
  | .jumpIfNonzero target => Opcode.jumpIfNonzero.applied target
  | .store register => Opcode.store.applied (toString register)
  | .load register => Opcode.load.applied (toString register)
  | .label name => name ++ ":"

/-- The integer operand. -/
def integers : Instr → List Int
  | .push n | .store n | .load n => [n]
  | _ => []

/-- The text of the instruction, unless its operand is too long to be written. -/
def write (instr : Instr) : Except NumeralFault String :=
  Numeral.writeAmong instr.integers instr.text

end Instr

/-- A line of bytecode: an instruction, or an opcode whose operand has been left out. -/
inductive CodeLine
  | full (instr : Instr)
  | bare (opcode : Opcode)
deriving DecidableEq

def CodeLine.write : CodeLine → Except NumeralFault String
  | .full instr => instr.write
  | .bare opcode => .ok opcode.mnemonic

/-- Bytecode text has one line for each instruction, and each line is ended. -/
def writeLines (lines : List CodeLine) : Except NumeralFault String :=
  return String.join ((← lines.mapM CodeLine.write).map (· ++ "\n"))

def encode (code : Code) : Except NumeralFault String :=
  writeLines (code.map .full)

end StackScheme
