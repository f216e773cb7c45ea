import StackScheme.Failure
import StackScheme.Table

/-! What is handed out while forms are compiled: registers to names, and numbered labels. A name
keeps its register for as long as the context lives, whatever form first bound it. -/
namespace StackScheme

structure Context where
  registers : Table String Nat := {}
  /-- The register for the next new name. -/
  next : Nat := 0
  /-- How many labels have been made from each stem. -/
  counters : Table String Nat := {}
deriving DecidableEq

/-- Compilation hands out registers and labels and may fail; what it has handed out stays. -/
abbrev CompileM := EStateM Failure Context

namespace Context

/-- The register of a name, a new one if it has none. -/
def assign (name : String) : CompileM Nat := fun context =>
  match context.registers.find? name with
  | some register => .ok register context
  | none =>
    .ok context.next
      { context with
        registers := context.registers.insert name context.next
        next := context.next + 1 }

def registerOf (name : String) : CompileM Nat := fun context =>
  match context.registers.find? name with
  | some register => .ok register context
  | none => .error (.ofFault (.compile (.undefinedVariable name))) context

/-- The next label of a stem: its counter, which moves on, is written after it. -/
def freshLabel (stem : String) : CompileM String := fun context =>
  let number := (context.counters.find? stem).getD 0
  let context := { context with counters := context.counters.insert stem (number + 1) }
  match Numeral.write number with
  | .ok digits => .ok (stem ++ digits) context
  | .error fault => .error (.numeral fault) context

end Context

/-- A state that hands out registers and labels. -/
class Supply (σ : Type) where
  /-- The register of a name that is bound. -/
  assign : String → EStateM Failure σ Nat
  /-- The register of a name that is used. -/
  registerOf : String → EStateM Failure σ Nat
  freshLabel : String → EStateM Failure σ String

instance : Supply Context where
  assign := Context.assign
  registerOf := Context.registerOf
  freshLabel := Context.freshLabel

namespace Context

@[simp] theorem supply_assign (name : String) :
    (Supply.assign name : CompileM Nat) = assign name := rfl

@[simp] theorem supply_registerOf (name : String) :
    (Supply.registerOf name : CompileM Nat) = registerOf name := rfl

@[simp] theorem supply_freshLabel (stem : String) :
    (Supply.freshLabel stem : CompileM String) = freshLabel stem := rfl

end Context
end StackScheme
