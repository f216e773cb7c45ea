import StackScheme.Expr
import StackScheme.Operator
import StackScheme.Table
import StackScheme.Proofs.Sequence

/-! Structured execution: what the code of an expression does to the stack, the registers and the
output, told along the expression and without any code, labels or counter. -/
namespace StackScheme

/-- What instructions work on. -/
structure Memory where
  /-- The top first. -/
  stack : List Int := []
  registers : Table Int Int := {}
  output : String := ""

/-- Why structured execution stops. -/
inductive Trouble
  | underflow
  | unset (register : Nat)
  | unprintable
  /-- The expression cannot be compiled. -/
  | meaningless
deriving DecidableEq

/-- What has been done before trouble is met is not undone. -/
abbrev MemoryM := EStateM Trouble Memory

namespace Memory

def push (value : Int) : MemoryM Unit := fun memory =>
  .ok () { memory with stack := value :: memory.stack }

def pop : MemoryM Int := fun memory =>
  match memory.stack with
  | [] => .error .underflow memory
  | value :: rest => .ok value { memory with stack := rest }

def store (register : Nat) (value : Int) : MemoryM Unit := fun memory =>
  .ok () { memory with registers := memory.registers.insert register value }

def load (register : Nat) : MemoryM Int := fun memory =>
  match memory.registers.find? register with
  | some value => .ok value memory
  | none => .error (.unset register) memory

def printLine (value : Int) : MemoryM Unit := fun memory =>
  match Numeral.write value with
  | .ok text => .ok () { memory with output := memory.output ++ text ++ "\n" }
  | .error _ => .error .unprintable memory

/-- The last operand is on top. -/
def combine (op : Arith) : MemoryM Unit := do
  let last ← pop
  let first ← pop
  match op with
  | .add => push (first + last)
  | .sub => push (first - last)
  | .mul => push (first * last)

theorem combine_eq (op : Arith) :
    combine op =
      (do
        let last ← pop
        let first ← pop
        push (op.apply first last)) := by
  cases op <;> rfl

end Memory

namespace Structured
open Memory

def fail {α : Type} (trouble : Trouble) : MemoryM α := fun memory =>
  .error trouble memory

def fetch (registers : Table String Nat) (name : String) : MemoryM Unit :=
  match registers.find? name with
  | some register => do push (← load register)
  | none => fail .meaningless

def keep (registers : Table String Nat) (name : String) : MemoryM Unit :=
  match registers.find? name with
  | some register => do store register (← pop)
  | none => fail .meaningless

mutual
/-- Executes an expression, given the registers of the names. -/
def execute (registers : Table String Nat) : Expr → MemoryM Unit
  | .int value => push value
  | .bool value => push (Expr.truth value)
  | .var name => fetch registers name
  | .binding _ _ => fail .meaningless
  | .form op args =>
    match Operator.ofName op, args with
    | .println, [arg] => do
      execute registers arg
      printLine (← pop)
    | .arith f, first :: second :: rest => do
      execute registers first
      executeOperands registers f (second :: rest)
    | .letIn, .form "" members :: bodies => do
      executeBindings registers members
      executeAll registers bodies
    | .ifElse, [condition, positive, negative] => do
      execute registers condition
      if (← pop) ≠ 0 then execute registers positive
      else execute registers negative
    | .group, _ => return
    | _, _ => fail .meaningless

/-- Each further operand is combined with what is below it. -/
def executeOperands (registers : Table String Nat) (op : Arith) : List Expr → MemoryM Unit
  | [] => return
  | arg :: rest => do
    execute registers arg
    combine op
    executeOperands registers op rest

/-- Each value is popped into the register of its name before the next binding is executed. -/
def executeBindings (registers : Table String Nat) : List Expr → MemoryM Unit
  | [] => return
  | .binding name value :: rest => do
    execute registers value
    keep registers name
    executeBindings registers rest
  | _ => fail .meaningless

def executeAll (registers : Table String Nat) : List Expr → MemoryM Unit
  | [] => return
  | expr :: rest => do
    execute registers expr
    executeAll registers rest
end

@[simp] theorem execute_int (registers : Table String Nat) (value : Int) :
    execute registers (.int value) = push value := by
  rw [execute]

@[simp] theorem execute_bool (registers : Table String Nat) (value : Bool) :
    execute registers (.bool value) = push (Expr.truth value) := by
  rw [execute]

end Structured
end StackScheme
