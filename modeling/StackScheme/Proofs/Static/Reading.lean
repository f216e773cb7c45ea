import StackScheme.Expr
import StackScheme.Operator
import Mathlib.Data.List.Basic

/-! What can be said of a form without running it. Read from left to right, a form has expressions
one after the other and, at the end of the value of each binding, a name that is bound from there
on. A group is read at the head of a `let` only. -/
namespace StackScheme

/-- What one comes upon in reading. -/
inductive Occurrence
  | reached (expr : Expr)
  | bound (name : String)

namespace Expr

def IsBinding (expr : Expr) : Prop :=
  ∃ name value, expr = .binding name value

/-- The expression has the parts that it needs where it is reached. -/
def WellMade : Expr → Prop
  | .int _ | .bool _ | .var _ => True
  | .binding _ _ => False
  | .form op args =>
    match Operator.ofName op with
    | .println => args.length = 1
    | .arith _ => 2 ≤ args.length
    | .letIn => ∃ members bodies, args = .form "" members :: bodies ∧
        ∀ member ∈ members, member.IsBinding
    | .ifElse => args.length = 3
    | .group => True
    | .unknown => False

mutual
/-- The occurrences in an expression that is reached. -/
def reading : Expr → List Occurrence
  | .int value => [.reached (.int value)]
  | .bool value => [.reached (.bool value)]
  | .var name => [.reached (.var name)]
  | .binding name value => [.reached (.binding name value)]
  | .form op args =>
    .reached (.form op args) ::
      match Operator.ofName op, args with
      | .group, _ => []
      | .letIn, .form "" members :: bodies => headReading members ++ allReading bodies
      | _, args => allReading args

def allReading : List Expr → List Occurrence
  | [] => []
  | expr :: rest => expr.reading ++ allReading rest

/-- The occurrences in the members of a head. -/
def headReading : List Expr → List Occurrence
  | [] => []
  | .binding name value :: rest => value.reading ++ [.bound name] ++ headReading rest
  | _ :: rest => headReading rest
end

variable {op : String} {args : List Expr}

@[simp] theorem allReading_append (exprs others : List Expr) :
    allReading (exprs ++ others) = allReading exprs ++ allReading others := by
  induction exprs with
  | nil => simp [allReading]
  | cons expr rest ih => simp [allReading, ih]

/-- What holds of the literals of a row holds of those of its first member and of the rest. -/
theorem fits_cons {expr : Expr} {rest : List Expr} {Fits : Int → Prop} :
    (∀ n ∈ allIntegers (expr :: rest), Fits n) ↔
      (∀ n ∈ expr.integers, Fits n) ∧ ∀ n ∈ allIntegers rest, Fits n := by
  rw [allIntegers, List.forall_mem_append]

/-- The arguments of a form that is no `let` and no group are read one after the other. -/
theorem reading_form (binds : Operator.ofName op ≠ .letIn) (groups : Operator.ofName op ≠ .group) :
    reading (.form op args) = .reached (.form op args) :: allReading args :=
  reading.eq_7 op args groups fun _ _ operator => (binds operator).elim

/-- Whatever is read in a form, the form is reached first. -/
theorem reading_head (op : String) (args : List Expr) :
    ∃ rest, reading (.form op args) = .reached (.form op args) :: rest := by
  unfold reading
  split <;> exact ⟨_, rfl⟩

theorem flawed_println (operator : Operator.ofName op = .println)
    (other : ∀ arg, args = [arg] → False) : ¬WellMade (.form op args) := by
  simp only [WellMade, operator, List.length_eq_one_iff]
  rintro ⟨arg, same⟩
  exact other arg same

theorem flawed_arith {f : Arith} (operator : Operator.ofName op = .arith f)
    (other : ∀ first second rest, args = first :: second :: rest → False) :
    ¬WellMade (.form op args) := by
  simp only [WellMade, operator]
  intro enough
  match args, enough with
  | first :: second :: rest, _ => exact other first second rest rfl

theorem flawed_ifElse (operator : Operator.ofName op = .ifElse)
    (other : ∀ condition positive negative, args = [condition, positive, negative] → False) :
    ¬WellMade (.form op args) := by
  simp only [WellMade, operator, List.length_eq_three]
  rintro ⟨condition, positive, negative, same⟩
  exact other condition positive negative same

theorem flawed_letIn (operator : Operator.ofName op = .letIn)
    (other : ∀ members bodies, args = .form "" members :: bodies → False) :
    ¬WellMade (.form op args) := by
  simp only [WellMade, operator]
  rintro ⟨members, bodies, same, _⟩
  exact other members bodies same

theorem flawed_unknown (operator : Operator.ofName op = .unknown) : ¬WellMade (.form op args) := by
  simp [WellMade, operator]

theorem wellMade_letIn {members bodies : List Expr} (operator : Operator.ofName op = .letIn) :
    WellMade (.form op (.form "" members :: bodies)) ↔ ∀ member ∈ members, member.IsBinding := by
  simp [WellMade, operator]

end Expr

@[simp] theorem Program.exprs_append (first second : Program) :
    Program.exprs (first ++ second) = first.exprs ++ second.exprs :=
  List.map_append

@[simp] theorem Program.exprs_cons (numbered : NumberedForm) (rest : Program) :
    Program.exprs (numbered :: rest) = numbered.form.toExpr :: rest.exprs :=
  rfl

/-- The literals of a form are literals of the program. -/
theorem Program.fits_of_mem {program : Program} {Fits : Int → Prop}
    (fits : ∀ n ∈ Expr.allIntegers program.exprs, Fits n) :
    ∀ numbered ∈ program, ∀ n ∈ numbered.form.toExpr.integers, Fits n := by
  induction program with
  | nil => simp
  | cons numbered rest ih =>
    rw [Program.exprs_cons, Expr.fits_cons] at fits
    exact List.forall_mem_cons.mpr ⟨fits.1, ih fits.2⟩

/-- Everything that is reached is well made, and every name is known or bound before it is used. -/
structure Acceptable (known : List String) (occurrences : List Occurrence) : Prop where
  wellMade : ∀ expr, .reached expr ∈ occurrences → expr.WellMade
  preceded : ∀ before name after, occurrences = before ++ .reached (.var name) :: after →
    name ∈ known ∨ .bound name ∈ before

namespace Acceptable
variable {known middle : List String} {first second occurrences : List Occurrence}

theorem nil : Acceptable known [] := by
  constructor
  · simp
  · simp

theorem single_iff {occurrence : Occurrence} : Acceptable known [occurrence] ↔
    ∀ expr, occurrence = .reached expr →
      expr.WellMade ∧ ∀ name, expr = .var name → name ∈ known := by
  constructor
  · rintro acceptable expr rfl
    refine ⟨acceptable.wellMade expr (by simp), ?_⟩
    rintro name rfl
    simpa using acceptable.preceded [] name [] rfl
  · intro allowed
    constructor
    · intro expr member
      exact (allowed expr (List.mem_singleton.mp member).symm).1
    · intro before name after split
      cases before with
      | nil => exact .inl ((allowed _ (List.cons.inj split).1).2 name rfl)
      | cons _ _ => simp at split

theorem var_iff {name : String} : Acceptable known [.reached (.var name)] ↔ name ∈ known := by
  simp [single_iff, Expr.WellMade]

theorem bound (name : String) : Acceptable known [.bound name] := by
  simp [single_iff]

theorem left (acceptable : Acceptable known (first ++ second)) : Acceptable known first := by
  constructor
  · intro expr member
    exact acceptable.wellMade expr (List.mem_append_left _ member)
  · intro before name after split
    exact acceptable.preceded before name (after ++ second) (by simp [split])

/-- The second part is read with the names that the first part has bound. -/
theorem append_iff (names : ∀ name, name ∈ middle ↔ name ∈ known ∨ .bound name ∈ first) :
    Acceptable known (first ++ second) ↔ Acceptable known first ∧ Acceptable middle second := by
  constructor
  · intro acceptable
    refine ⟨acceptable.left, ⟨?_, ?_⟩⟩
    · intro expr member
      exact acceptable.wellMade expr (List.mem_append_right _ member)
    · intro before name after split
      have earlier := acceptable.preceded (first ++ before) name after (by simp [split])
      rw [names, or_assoc]
      simpa [List.mem_append] using earlier
  · rintro ⟨ahead, following⟩
    constructor
    · intro expr member
      rcases List.mem_append.mp member with member | member
      · exact ahead.wellMade expr member
      · exact following.wellMade expr member
    · intro before name after split
      rcases List.append_eq_append_iff.mp split with ⟨between, rfl, rest⟩ | ⟨between, rfl, rest⟩
      · have earlier := following.preceded between name after rest
        rw [names, or_assoc] at earlier
        simpa [List.mem_append] using earlier
      · cases between with
        | nil =>
          have earlier := following.preceded [] name after (by simpa using rest.symm)
          rw [names] at earlier
          simpa using earlier
        | cons occurrence between =>
          obtain ⟨rfl, _⟩ := List.cons.inj rest
          exact ahead.preceded before name between rfl

/-- An expression that is no name asks for nothing but to be well made. -/
theorem cons_iff {expr : Expr} (other : ∀ name, expr ≠ .var name) :
    Acceptable known (.reached expr :: occurrences) ↔
      expr.WellMade ∧ Acceptable known occurrences := by
  have alone : Acceptable known [.reached expr] ↔ expr.WellMade := by
    simp [single_iff, other]
  have none : ∀ name, name ∈ known ↔ name ∈ known ∨ .bound name ∈ [Occurrence.reached expr] := by
    simp
  rw [← List.singleton_append, append_iff none, alone]

end Acceptable

/-- How many branches one comes upon. -/
def branches (occurrences : List Occurrence) : Nat :=
  occurrences.countP fun
    | .reached (.form op _) => Operator.ofName op = .ifElse
    | _ => false

@[simp] theorem branches_nil : branches [] = 0 := rfl

theorem branches_form (op : String) (args : List Expr) (occurrences : List Occurrence) :
    branches (.reached (.form op args) :: occurrences) =
      (if Operator.ofName op = .ifElse then 1 else 0) + branches occurrences := by
  simp [branches, List.countP_cons, Nat.add_comm]

@[simp] theorem branches_append (first second : List Occurrence) :
    branches (first ++ second) = branches first + branches second :=
  List.countP_append

end StackScheme
