import StackScheme.Expr
import StackScheme.Operator

/-! Which expressions can be seen to have no value, and which can be seen to leave nothing but their
value on a stack. Only a `let` leaves more: the values of all its bodies but the last. -/
namespace StackScheme.Expr

mutual
/-- The expression and everything inside it. -/
def subexpressions : Expr → List Expr
  | .int value => [.int value]
  | .bool value => [.bool value]
  | .var name => [.var name]
  | .binding name value => .binding name value :: value.subexpressions
  | .form op args => .form op args :: allSubexpressions args

def allSubexpressions : List Expr → List Expr
  | [] => []
  | arg :: rest => arg.subexpressions ++ allSubexpressions rest
end

theorem mem_allSubexpressions {exprs : List Expr} {inner : Expr} :
    inner ∈ allSubexpressions exprs ↔ ∃ expr ∈ exprs, inner ∈ expr.subexpressions := by
  induction exprs with
  | nil => simp [allSubexpressions]
  | cons expr rest ih => simp [allSubexpressions, ih]

mutual
/-- Printing, groups, and a `let` or `if` that ends in nothing else. -/
def valueless : Expr → Bool
  | .form op args =>
    match Operator.ofName op, args with
    | .println, _ | .group, _ => true
    | .letIn, _ :: bodies => allValueless bodies
    | .ifElse, [_, positive, negative] => positive.valueless && negative.valueless
    | _, _ => false
  | .int _ | .bool _ | .var _ | .binding _ _ => false

def allValueless : List Expr → Bool
  | [] => true
  | expr :: rest => expr.valueless && allValueless rest
end

/-- Whether a body is not the last one shows in what comes after it. -/
theorem leading_cons {body : Expr} {rest : List Expr}
    (leading : ∀ other ∈ (body :: rest).dropLast, other.valueless = true) :
    (rest ≠ [] → body.valueless = true) ∧ ∀ other ∈ rest.dropLast, other.valueless = true := by
  cases rest with
  | nil => simp
  | cons next rest =>
    rw [List.dropLast_cons_of_ne_nil (List.cons_ne_nil next rest)] at leading
    obtain ⟨first, others⟩ := List.forall_mem_cons.mp leading
    exact ⟨fun _ => first, others⟩

/-- If this is a `let`, no body but the last can have a value. -/
def tidyBodies : Expr → Bool
  | .form op (_ :: bodies) => Operator.ofName op ≠ .letIn || bodies.dropLast.all valueless
  | _ => true

/-- Nowhere inside does a `let` leave the value of a body behind. -/
def Tidy (expr : Expr) : Prop :=
  ∀ inner ∈ expr.subexpressions, inner.tidyBodies = true

instance (expr : Expr) : Decidable expr.Tidy :=
  inferInstanceAs (Decidable (∀ inner ∈ expr.subexpressions, inner.tidyBodies = true))

/-- The operands of arithmetic other than the first. -/
def furtherOperands : Expr → List Expr
  | .form op args =>
    match Operator.ofName op with
    | .arith _ => args.tail
    | _ => []
  | _ => []

/-- Wherever the expressions do arithmetic, every operand but the first is tidy. -/
def Orderly (exprs : List Expr) : Prop :=
  ∀ inner ∈ allSubexpressions exprs, ∀ operand ∈ inner.furtherOperands, operand.Tidy

instance (exprs : List Expr) : Decidable (Orderly exprs) :=
  inferInstanceAs (Decidable (∀ inner ∈ allSubexpressions exprs, ∀ operand ∈ inner.furtherOperands,
    operand.Tidy))

theorem tidy_form {op : String} {args : List Expr} (tidy : Tidy (.form op args)) :
    ∀ arg ∈ args, arg.Tidy := by
  intro arg member inner inside
  refine tidy inner (List.mem_cons_of_mem _ ?_)
  exact mem_allSubexpressions.mpr ⟨arg, member, inside⟩

theorem tidy_binding {name : String} {value : Expr} (tidy : Tidy (.binding name value)) :
    value.Tidy :=
  fun inner inside => tidy inner (List.mem_cons_of_mem _ inside)

theorem tidy_bodies {op : String} {head : Expr} {bodies : List Expr}
    (operator : Operator.ofName op = .letIn) (tidy : Tidy (.form op (head :: bodies))) :
    ∀ body ∈ bodies.dropLast, body.valueless = true := by
  have here := tidy (.form op (head :: bodies)) (by simp [subexpressions])
  simpa [tidyBodies, operator] using here

mutual
theorem tidy_inner {inner : Expr} : ∀ {expr : Expr}, expr.Tidy → inner ∈ expr.subexpressions →
    inner.Tidy
  | .int _, tidy, inside | .bool _, tidy, inside | .var _, tidy, inside => by
    obtain rfl := List.mem_singleton.mp inside
    exact tidy
  | .binding _ value, tidy, inside => by
    rcases List.mem_cons.mp inside with rfl | inside
    · exact tidy
    · exact tidy_inner (tidy_binding tidy) inside
  | .form _ args, tidy, inside => by
    rcases List.mem_cons.mp inside with rfl | inside
    · exact tidy
    · exact tidy_allInner (tidy_form tidy) inside

theorem tidy_allInner {inner : Expr} : ∀ {exprs : List Expr}, (∀ expr ∈ exprs, expr.Tidy) →
    inner ∈ allSubexpressions exprs → inner.Tidy
  | [], _, inside => by contradiction
  | expr :: rest, tidy, inside => by
    obtain ⟨first, others⟩ := List.forall_mem_cons.mp tidy
    rcases List.mem_append.mp inside with inside | inside
    · exact tidy_inner first inside
    · exact tidy_allInner others inside
end

theorem orderly_of_tidy {exprs : List Expr} (tidy : ∀ expr ∈ exprs, expr.Tidy) :
    Orderly exprs := by
  intro inner inside operand member
  have whole := tidy_allInner tidy inside
  unfold furtherOperands at member
  split at member
  · split at member
    · exact tidy_form whole operand (List.mem_of_mem_tail member)
    · contradiction
  · contradiction

theorem orderly_cons {expr : Expr} {rest : List Expr} :
    Orderly (expr :: rest) ↔ Orderly [expr] ∧ Orderly rest := by
  simp only [Orderly, allSubexpressions, List.append_nil, List.mem_append, or_imp, forall_and]

theorem orderly_form {op : String} {args : List Expr} (orderly : Orderly [.form op args]) :
    Orderly args := by
  intro inner inside
  apply orderly inner
  simp [allSubexpressions, subexpressions, inside]

theorem orderly_binding {name : String} {value : Expr}
    (orderly : Orderly [.binding name value]) : Orderly [value] := by
  intro inner inside
  apply orderly inner
  simp only [allSubexpressions, subexpressions, List.append_nil] at inside ⊢
  exact List.mem_cons_of_mem _ inside

theorem orderly_operands {op : String} {f : Arith} {first : Expr} {rest : List Expr}
    (operator : Operator.ofName op = .arith f) (orderly : Orderly [.form op (first :: rest)]) :
    ∀ operand ∈ rest, operand.Tidy := by
  have here := orderly (.form op (first :: rest)) (by simp [allSubexpressions, subexpressions])
  simpa [furtherOperands, operator] using here

end StackScheme.Expr
