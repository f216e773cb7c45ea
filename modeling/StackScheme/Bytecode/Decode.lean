import StackScheme.Bytecode.Instr
import StackScheme.Text.Piece
import StackScheme.Text.Word

/-! Reading a line of bytecode. An instruction is one word or two; an operand is a row of decimal
digits of any script, or the name of a label. -/
namespace StackScheme.Instr
open Text

def name? (text : List Char) : Option String :=
  if text.isEmpty || text.any (fun c => !isWord c) then none else some (String.ofList text)

def unsigned? (text : List Char) : Option (Except NumeralFault Int) :=
  if Numeral.isDigits text then some ((Numeral.read text).map Int.ofNat) else none

/-- A row of digits, perhaps after a minus sign. -/
def signed? : List Char → Option (Except NumeralFault Int)
  | '-' :: digits => (unsigned? digits).map fun number => number.map fun n => -n
  | digits => unsigned? digits

/-- A word that ends in a colon marks a place with its other characters. -/
def label? (word : List Char) : Option Instr :=
  if word.getLast? = some ':' then (name? word.dropLast).map .label else none

def plain? : String → Option Instr
  | "PRINT" => some .print
  | "ADD" => some (.arith .add)
  | "SUB" => some (.arith .sub)
  | "MUL" => some (.arith .mul)
  | _ => none

def applied? (mnemonic : String) (operand : List Char) : Option (Except NumeralFault Instr) :=
  match mnemonic with
  | "PUSH" => (signed? operand).map fun number => number.map .push
  | "STOR" => (unsigned? operand).map fun number => number.map .store
  | "LOAD" => (unsigned? operand).map fun number => number.map .load
  | "JMP" => (name? operand).map fun target => .ok (.jump target)
  | "JZ" => (name? operand).map fun target => .ok (.jumpIfZero target)
  | "JNZ" => (name? operand).map fun target => .ok (.jumpIfNonzero target)
  | _ => none

def ofWords? : List (List Char) → Option (Except NumeralFault Instr)
  | [word] => ((label? word).or (plain? (String.ofList word))).map .ok
  | [mnemonic, operand] => applied? (String.ofList mnemonic) operand
  | _ => none

/-- The instruction on a line; a blank line holds none. -/
def decode (line : String) : Except Failure (Option Instr) :=
  match words line.toList with
  | [] => .ok none
  | parts =>
    match ofWords? parts with
    | some (.ok instr) => .ok (some instr)
    | some (.error fault) => .error (.numeral fault)
    | none =>
      .error (.ofFault (.machine (.undecodable (String.ofList (trim line.toList)))))

end StackScheme.Instr
