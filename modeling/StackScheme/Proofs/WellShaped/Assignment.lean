import StackScheme.Expr
import StackScheme.Operator
import Mathlib.Data.Finset.Basic

/-! Which expressions surely have a value, and which names surely have one. Names are followed in
the order of evaluation; after an `if`, only those count that both branches agree on. -/
namespace StackScheme.Expr

mutual
/-- A literal, a variable, arithmetic, or a `let` or `if` that ends in nothing else. -/
def yields : Expr → Bool
  | .int _ | .bool _ | .var _ => true
  | .binding _ _ => false
  | .form op args =>
    match Operator.ofName op, args with
    | .arith _, _ => true
    | .letIn, _ :: bodies => lastYields bodies
    | .ifElse, [_, positive, negative] => positive.yields && negative.yields
    | _, _ => false

/-- There is a last expression, and it surely has a value. -/
def lastYields : List Expr → Bool
  | [] => false
  | [expr] => expr.yields
  | _ :: rest => lastYields rest
end

mutual
/-- The names that surely have a value after the expression, if these have one before it. -/
def assigned (known : Finset String) : Expr → Finset String
  | .int _ | .bool _ | .var _ | .binding _ _ => known
  | .form op args =>
    match Operator.ofName op, args with
    | .println, args | .arith _, args => allAssigned known args
    | .letIn, .form "" members :: bodies => allAssigned (bindingsAssigned known members) bodies
    | .ifElse, [condition, positive, negative] =>
      assigned (assigned known condition) positive ∩ assigned (assigned known condition) negative
    | _, _ => known

/-- A name has its value once that has been evaluated. -/
def bindingsAssigned (known : Finset String) : List Expr → Finset String
  | .binding name value :: rest => bindingsAssigned (insert name (assigned known value)) rest
  | _ => known

def allAssigned (known : Finset String) : List Expr → Finset String
  | [] => known
  | expr :: rest => allAssigned (assigned known expr) rest
end

mutual
/-- What is printed, calculated with, bound or tested surely has a value, and variables are read
only where their names surely have one. -/
def wellShaped (known : Finset String) : Expr → Bool
  | .int _ | .bool _ | .binding _ _ => true
  | .var name => name ∈ known
  | .form op args =>
    match Operator.ofName op, args with
    | .println, args | .arith _, args => operandsWellShaped known args
    | .letIn, .form "" members :: bodies =>
      bindingsWellShaped known members && allWellShaped (bindingsAssigned known members) bodies
    | .ifElse, [condition, positive, negative] =>
      condition.yields && condition.wellShaped known &&
        positive.wellShaped (condition.assigned known) &&
        negative.wellShaped (condition.assigned known)
    | _, _ => true

def operandsWellShaped (known : Finset String) : List Expr → Bool
  | [] => true
  | arg :: rest =>
    arg.yields && arg.wellShaped known && operandsWellShaped (arg.assigned known) rest

def bindingsWellShaped (known : Finset String) : List Expr → Bool
  | .binding name value :: rest =>
    value.yields && value.wellShaped known &&
      bindingsWellShaped (insert name (value.assigned known)) rest
  | _ => true

def allWellShaped (known : Finset String) : List Expr → Bool
  | [] => true
  | expr :: rest => expr.wellShaped known && allWellShaped (expr.assigned known) rest
end

theorem lastYields_cons {expr : Expr} {rest : List Expr}
    (yields : lastYields (expr :: rest) = true) :
    rest = [] ∧ expr.yields = true ∨ lastYields rest = true := by
  cases rest with
  | nil => exact Or.inl ⟨rfl, yields⟩
  | cons next rest => exact Or.inr yields

theorem toNat_lastYields_cons (expr : Expr) (rest : List Expr) :
    (lastYields (expr :: rest)).toNat ≤ expr.yields.toNat + (lastYields rest).toNat := by
  cases rest with
  | nil => exact Nat.le_add_right _ _
  | cons next rest => exact Nat.le_add_left _ _

end StackScheme.Expr
