import StackScheme.Compiler
import StackScheme.Evaluator
import StackScheme.Proofs.Sequence
import Mathlib.Data.List.Basic
import Mathlib.Logic.Function.Basic

/-! Programs under other names. Every name of a variable or a binding is replaced, operators are
not. What a failure shows of a program it shows under the other names. -/
namespace StackScheme

namespace Expr

mutual
/-- The expression with other names. -/
def rename (ρ : String → String) : Expr → Expr
  | .int value => .int value
  | .bool value => .bool value
  | .var name => .var (ρ name)
  | .binding name value => .binding (ρ name) (value.rename ρ)
  | .form op args => .form op (renameAll ρ args)

def renameAll (ρ : String → String) : List Expr → List Expr
  | [] => []
  | expr :: rest => expr.rename ρ :: renameAll ρ rest
end

variable {ρ : String → String}

@[simp] theorem length_renameAll (exprs : List Expr) :
    (renameAll ρ exprs).length = exprs.length := by
  induction exprs with
  | nil => rfl
  | cons expr rest ih => simp [renameAll, ih]

@[simp] theorem isEmpty_renameAll (exprs : List Expr) :
    (renameAll ρ exprs).isEmpty = exprs.isEmpty := by
  cases exprs <;> rfl

/-- A row does not become a row of one by renaming. -/
theorem renameAll_ne_one {exprs : List Expr} (other : ∀ expr, exprs = [expr] → False) :
    ∀ expr, renameAll ρ exprs = [expr] → False := by
  intro expr same
  have count : exprs.length = 1 := by simpa using congrArg List.length same
  obtain ⟨single, rfl⟩ := List.length_eq_one_iff.mp count
  exact other single rfl

theorem renameAll_ne_three {exprs : List Expr}
    (other : ∀ first second third, exprs = [first, second, third] → False) :
    ∀ first second third, renameAll ρ exprs = [first, second, third] → False := by
  intro first second third same
  have count : exprs.length = 3 := by simpa using congrArg List.length same
  obtain ⟨first, second, third, rfl⟩ := List.length_eq_three.mp count
  exact other first second third rfl

theorem renameAll_ne_more {exprs : List Expr}
    (other : ∀ first second rest, exprs = first :: second :: rest → False) :
    ∀ first second rest, renameAll ρ exprs = first :: second :: rest → False := by
  intro first second rest same
  match exprs with
  | [] => simp [renameAll] at same
  | [_] => simp [renameAll] at same
  | first :: second :: rest => exact other first second rest rfl

/-- What is no group does not become one by renaming. -/
theorem rename_ne_group {expr : Expr} (other : ∀ members, expr = .form "" members → False) :
    ∀ members, expr.rename ρ = .form "" members → False := by
  intro members same
  cases expr with
  | form op args =>
    obtain ⟨rfl, _⟩ : op = "" ∧ renameAll ρ args = members := by simpa [rename] using same
    exact other args rfl
  | int | bool | var | binding => simp [rename] at same

theorem rename_ne_binding {expr : Expr} (other : ∀ name value, expr = .binding name value → False) :
    ∀ name value, expr.rename ρ = .binding name value → False := by
  intro name value same
  cases expr with
  | binding name value => exact other name value rfl
  | int | bool | var | form => simp [rename] at same

theorem renameAll_ne_group {exprs : List Expr}
    (other : ∀ members rest, exprs = .form "" members :: rest → False) :
    ∀ members rest, renameAll ρ exprs = .form "" members :: rest → False := by
  intro members rest same
  cases exprs with
  | nil => simp [renameAll] at same
  | cons head others =>
    obtain ⟨group, _⟩ := List.cons.inj same
    refine rename_ne_group ?_ members group
    rintro members rfl
    exact other members others rfl

theorem renameAll_ne_binding {exprs : List Expr}
    (other : ∀ name value rest, exprs = .binding name value :: rest → False) :
    ∀ name value rest, renameAll ρ exprs = .binding name value :: rest → False := by
  intro name value rest same
  cases exprs with
  | nil => simp [renameAll] at same
  | cons head others =>
    obtain ⟨binding, _⟩ := List.cons.inj same
    refine rename_ne_binding ?_ name value binding
    rintro name value rfl
    exact other name value others rfl

/-- Literals are no names. -/
theorem integers_rename : (∀ expr, (rename ρ expr).integers = expr.integers) ∧
    ∀ exprs, allIntegers (renameAll ρ exprs) = allIntegers exprs := by
  refine rename.mutual_induct _ _ ?int ?bool ?var ?binding ?form ?nil ?cons
  case int | bool | var =>
    intros
    rfl
  case binding =>
    intro name value ih
    rw [rename, integers, integers, ih]
  case form =>
    intro op args ih
    rw [rename, integers, integers, ih]
  case nil => rfl
  case cons =>
    intro expr rest ih ihs
    rw [renameAll, allIntegers, allIntegers, ih, ihs]

end Expr

def Form.rename (ρ : String → String) (form : Form) : Form :=
  ⟨form.op, Expr.renameAll ρ form.args⟩

/-- The forms with other names, on the same lines. -/
def Program.rename (ρ : String → String) (program : Program) : Program :=
  program.map fun numbered => ⟨numbered.line, numbered.form.rename ρ⟩

theorem Form.toExpr_rename (ρ : String → String) (form : Form) :
    (form.rename ρ).toExpr = form.toExpr.rename ρ := by
  rw [toExpr, toExpr, Expr.rename, Form.rename]

/-- The same fault of the program with other names. -/
inductive FormFault.Renamed (ρ : String → String) : FormFault → FormFault → Prop
  | undefinedVariable (name : String) : Renamed ρ (.undefinedVariable name)
      (.undefinedVariable (ρ name))
  | bindingOutsideLet (expr : Expr) : Renamed ρ (.bindingOutsideLet expr.text)
      (.bindingOutsideLet (expr.rename ρ).text)
  | wrongCount (op : String) (expected found : Nat) : Renamed ρ (.wrongCount op expected found)
      (.wrongCount op expected found)
  | tooFew (op : String) (found : Nat) : Renamed ρ (.tooFew op found) (.tooFew op found)
  | notBindingList (expr : Option Expr) : Renamed ρ (.notBindingList (expr.map Expr.text))
      (.notBindingList ((expr.map (Expr.rename ρ)).map Expr.text))
  | notBinding (expr : Expr) : Renamed ρ (.notBinding expr.text) (.notBinding (expr.rename ρ).text)
  | unknownOperator (op : String) : Renamed ρ (.unknownOperator op) (.unknownOperator op)

inductive Fault.Renamed (ρ : String → String) : Fault → Fault → Prop
  | compile {fault other} (same : FormFault.Renamed ρ fault other) :
      Renamed ρ (.compile fault) (.compile other)
  | evaluate {fault other} (same : FormFault.Renamed ρ fault other) :
      Renamed ρ (.evaluate fault) (.evaluate other)
  | noValue (expr : Expr) : Renamed ρ (.noValue expr.text) (.noValue (expr.rename ρ).text)

/-- The same failure of the program with other names: of the same kind, and on the same line. -/
inductive Failure.Renamed (ρ : String → String) : Failure → Failure → Prop
  | program {fault other line} (same : Fault.Renamed ρ fault other) :
      Renamed ρ (.program ⟨fault, line⟩) (.program ⟨other, line⟩)
  | numeral (fault : NumeralFault) : Renamed ρ (.numeral fault) (.numeral fault)

namespace Failure.Renamed
variable {ρ : String → String}

theorem showing {expr : Expr} {fault other : String → Fault}
    (same : Fault.Renamed ρ (fault expr.text) (other (expr.rename ρ).text)) :
    Renamed ρ (.showing expr fault) (.showing (expr.rename ρ) other) := by
  unfold Failure.showing Expr.write Numeral.writeAmong
  rw [Expr.integers_rename.1]
  by_cases fits : ∀ n ∈ expr.integers, Numeral.Fits n
  · rw [if_pos fits, if_pos fits]
    exact .program same
  · rw [if_neg fits, if_neg fits]
    exact .numeral _

theorem withLine {failure other : Failure} (same : Renamed ρ failure other) (line : Int) :
    Renamed ρ (failure.withLine line) (other.withLine line) := by
  cases same with
  | program same => exact .program same
  | numeral fault => exact .numeral fault

end Failure.Renamed

namespace Table
variable {κ ν : Type}

/-- The same values under other keys. -/
def mapKeys (ρ : κ → κ) (table : Table κ ν) : Table κ ν :=
  ⟨table.entries.map (Prod.map ρ id)⟩

variable [DecidableEq κ] {ρ : κ → κ}

theorem lookup_map (injective : Function.Injective ρ) (key : κ) (entries : List (κ × ν)) :
    lookup (ρ key) (entries.map (Prod.map ρ id)) = lookup key entries := by
  induction entries with
  | nil => rfl
  | cons entry rest ih =>
    obtain ⟨other, value⟩ := entry
    simp [lookup, ih, injective.eq_iff]

theorem find?_mapKeys (injective : Function.Injective ρ) (table : Table κ ν) (key : κ) :
    (table.mapKeys ρ).find? (ρ key) = table.find? key :=
  lookup_map injective key table.entries

theorem set_map (injective : Function.Injective ρ) (key : κ) (value : ν)
    (entries : List (κ × ν)) : set (ρ key) value (entries.map (Prod.map ρ id)) =
      (set key value entries).map (Prod.map ρ id) := by
  induction entries with
  | nil => rfl
  | cons entry rest ih =>
    obtain ⟨other, old⟩ := entry
    by_cases same : other = key
    · simp [set, same]
    · simp [set, same, injective.ne same, ih]

theorem insert_mapKeys (injective : Function.Injective ρ) (table : Table κ ν) (key : κ)
    (value : ν) : (table.mapKeys ρ).insert (ρ key) value = (table.insert key value).mapKeys ρ :=
  congrArg Table.mk (set_map injective key value table.entries)

end Table

namespace Failure
open Stateful
variable {ρ : String → String} {σ τ α : Type} {states : σ → τ → Prop}
  {action : EStateM Failure σ α} {other : EStateM Failure τ α}

theorem parallel_onLine (same : Parallel states (Renamed ρ) action other) (line : Nat) :
    Parallel states (Renamed ρ) (onLine line action) (onLine line other) := by
  intro state state' start
  have ended := same state state' start
  unfold onLine
  generalize action state = result, other state' = result' at ended
  cases ended with
  | ok same => exact .ok same
  | error alike same => exact .error (alike.withLine line) same

end Failure
end StackScheme
