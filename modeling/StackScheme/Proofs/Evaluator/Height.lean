import StackScheme.Proofs.Evaluator.Refinement

/-! How high the stack can get. Where nothing is left behind, an expression adds at most its value,
whatever the stack has come from, and what takes values off needs them to be there. -/
namespace StackScheme

namespace Expr

/-- How many values the expression adds to a stack at most, if it leaves nothing behind. -/
def room (expr : Expr) : Nat :=
  if expr.valueless then 0 else 1

def allRoom (exprs : List Expr) : Nat :=
  if allValueless exprs then 0 else 1

theorem room_le_one (expr : Expr) : expr.room ≤ 1 := by
  unfold room
  split <;> omega

theorem room_arith {op : String} {f : Arith} {args : List Expr}
    (operator : Operator.ofName op = .arith f) : room (.form op args) = 1 := by
  simp [room, valueless, operator]

theorem room_letIn {op : String} {head : Expr} {bodies : List Expr}
    (operator : Operator.ofName op = .letIn) :
    room (.form op (head :: bodies)) = allRoom bodies := by
  simp [room, allRoom, valueless, operator]

theorem room_branch {op : String} {condition positive negative branch : Expr}
    (operator : Operator.ofName op = .ifElse) (member : branch ∈ [positive, negative]) :
    branch.room ≤ room (.form op [condition, positive, negative]) := by
  by_cases both : positive.valueless && negative.valueless
  · have none : branch.valueless = true := by
      simp only [List.mem_cons, List.not_mem_nil, or_false] at member
      simp only [Bool.and_eq_true] at both
      rcases member with rfl | rfl
      · exact both.1
      · exact both.2
    simp [room, none]
  · have some : room (.form op [condition, positive, negative]) = 1 := by
      simp [room, valueless, operator, both]
    rw [some]
    exact room_le_one branch

/-- A body and those after it add the value of the last one, if no other has a value. -/
theorem room_body {body : Expr} {rest : List Expr}
    (leading : ∀ other ∈ (body :: rest).dropLast, other.valueless = true) :
    body.room + allRoom rest = allRoom (body :: rest) := by
  by_cases last : rest = []
  · simp [last, room, allRoom, allValueless]
  · have none := (leading_cons leading).1 last
    simp [room, allRoom, allValueless, none]

end Expr

namespace Structured
open Stateful Memory Compiler
open Evaluator (exprsOf)

/-- There are fewer values on the stack than that. -/
def Below (limit : Nat) (memory : Memory) : Prop :=
  memory.stack.length < limit

/-- The stack is lower than it should be, so it was not empty to begin with. -/
structure Short (height room : Nat) (memory : Memory) : Prop where
  low : Below (height + room) memory
  based : 0 < height

/-- From one condition the action leads to the other, unless it fails. -/
abbrev Leads {α : Type} (before : Memory → Prop) (action : MemoryM α) (after : Memory → Prop) :
    Prop :=
  Ensures (fun _ => True) before action fun _ => after

theorem Short.weaken {height room more : Nat} {memory : Memory} (short : Short height room memory)
    (larger : room ≤ more) : Short height more memory :=
  ⟨Nat.lt_of_lt_of_le short.low (Nat.add_le_add_left larger height), short.based⟩

theorem Leads.short {height room more : Nat} {action : MemoryM Unit}
    (leads : Leads (Below (height + room)) action (Below (height + more))) :
    Leads (Short height room) action (Short height more) := by
  intro memory short
  have ended := leads memory short.low
  cases result : action memory with
  | ok done after =>
    simp only [result] at ended
    exact ⟨ended, short.based⟩
  | error trouble after => trivial

section Rules
variable {limit last : Nat}

theorem Leads.higher {more : Nat} {before : Memory → Prop} {action : MemoryM Unit}
    (leads : Leads before action (Below last)) (higher : last ≤ more) :
    Leads before action (Below more) :=
  Ensures.weaken leads fun _ _ low => Nat.lt_of_lt_of_le low higher

theorem below_push (value : Int) : Leads (Below limit) (push value) (Below (limit + 1)) :=
  fun _ low => Nat.succ_lt_succ low

/-- Unless it fails, a value has been there to be taken. -/
theorem short_pop : Leads (Below (limit + 1)) pop (Short limit 0) := by
  rintro ⟨_ | ⟨value, stack⟩, registers, output⟩ low
  · trivial
  · have lower : stack.length < limit := Nat.lt_of_succ_lt_succ low
    exact ⟨lower, Nat.zero_lt_of_lt lower⟩

theorem below_pop {next : Int → MemoryM Unit} {after : Memory → Prop}
    (rest : ∀ value, Leads (Below limit) (next value) after) :
    Leads (Below (limit + 1)) (pop >>= next) after :=
  short_pop.bind fun value memory short => rest value memory short.low

theorem below_printLine (value : Int) : Leads (Below limit) (printLine value) (Below limit) := by
  intro memory low
  cases written : Numeral.write value with
  | ok text =>
    simp only [printLine, written]
    exact low
  | error fault =>
    simp only [printLine, written]

/-- Unless it fails, two values have been there to be combined. -/
theorem short_combine (op : Arith) : Leads (Below (limit + 2)) (combine op) (Short limit 1) := by
  rw [combine_eq]
  exact below_pop fun last => short_pop.bind fun first => (below_push (op.apply first last)).short

theorem below_load (register : Nat) : Leads (Below limit) (load register) (Below limit) := by
  intro memory low
  cases found : memory.registers.find? register with
  | some value =>
    simp only [load, found]
    exact low
  | none =>
    simp only [load, found]

theorem below_fetch (names : Table String Nat) (name : String) :
    Leads (Below limit) (fetch names name) (Below (limit + 1)) := by
  unfold fetch
  split
  · exact (below_load _).bind below_push
  · exact fun _ _ => trivial

theorem short_keep (names : Table String Nat) (name : String) :
    Leads (Below (limit + 1)) (keep names name) (Short limit 0) := by
  unfold keep
  split
  · exact short_pop.bind fun value memory short => ⟨short.low, short.based⟩
  · exact fun _ _ => trivial

end Rules

/-- However low the stack is, the phrase adds no more to it than there is room for. -/
def Bounded (names : Table String Nat) : Phrase → Prop
  | .expr expr => ∀ limit, Leads (Below limit) (execute names expr) (Below (limit + expr.room))
  | .operands op args => ∀ limit, Leads (Below (limit + 1)) (executeOperands names op args)
      fun memory => Below (limit + 1) memory ∧ (args ≠ [] → 0 < limit)
  | .bindings members => ∀ limit, Leads (Below limit) (executeBindings names members) (Below limit)
  | .bodies bodies => (∀ body ∈ bodies.dropLast, body.valueless = true) →
      ∀ limit, Leads (Below limit) (executeAll names bodies) (Below (limit + Expr.allRoom bodies))

section Valued
variable {names : Table String Nat} {limit : Nat}

/-- Where a value is needed, at most one has been added. -/
theorem below_valued {expr : Expr} {following : MemoryM Unit} {after : Memory → Prop}
    (bounded : Bounded names (.expr expr)) (rest : Leads (Below (limit + 1)) following after) :
    Leads (Below limit) (execute names expr >>= fun _ => following) after :=
  ((bounded limit).higher (Nat.add_le_add_left expr.room_le_one limit)).bind fun _ => rest

theorem short_combined {op : Arith} {rest : List Expr}
    (bounded : Bounded names (.operands op rest)) :
    Leads (Below (limit + 2)) (combine op >>= fun _ => executeOperands names op rest)
      (Short limit 1) :=
  (short_combine op).bind fun _ =>
    Leads.short ((bounded limit).weaken fun _ _ ended => ended.1)

end Valued

theorem bounded_execution {context after : Context} {phrase : Phrase} {code : Code}
    (emitted : Emits context phrase code after) (names : Table String Nat)
    (tidy : ∀ expr ∈ exprsOf phrase, expr.Tidy) : Bounded names phrase := by
  induction emitted with
  | int | bool =>
    intro limit
    rw [execute]
    exact below_push _
  | var =>
    intro limit
    rw [execute]
    exact below_fetch names _
  | println operator _ ih =>
    have parts := Expr.tidy_form (tidy _ List.mem_cons_self)
    intro limit
    rw [execute.eq_5 _ _ _ operator]
    refine below_valued (ih parts) (below_pop fun value => ?_)
    exact (below_printLine value).higher (Nat.le_add_right _ _)
  | arith operator _ _ ih ihs =>
    have parts := Expr.tidy_form (tidy _ List.mem_cons_self)
    obtain ⟨first, others⟩ := List.forall_mem_cons.mp parts
    intro limit
    rw [execute.eq_6 _ _ _ _ _ _ operator, Expr.room_arith operator]
    exact below_valued (ih (List.forall_mem_singleton.mpr first))
      ((ihs others limit).weaken fun _ _ ended => ended.1)
  | letIn operator _ _ ih ihs =>
    have form := tidy _ List.mem_cons_self
    obtain ⟨head, bodies⟩ := List.forall_mem_cons.mp (Expr.tidy_form form)
    intro limit
    rw [execute.eq_7 _ _ _ _ operator, Expr.room_letIn operator]
    exact (ih (Expr.tidy_form head) limit).bind fun _ =>
      ihs bodies (Expr.tidy_bodies operator form) limit
  | ifElse operator _ _ _ _ _ _ ihTest ihTrue ihFalse =>
    have parts := Expr.tidy_form (tidy _ List.mem_cons_self)
    simp only [List.forall_mem_cons] at parts
    obtain ⟨test, positive, negative, _⟩ := parts
    intro limit
    rw [execute.eq_8 _ _ _ _ _ operator]
    refine below_valued (ihTest (List.forall_mem_singleton.mpr test)) (below_pop fun value => ?_)
    split
    · exact (ihTrue (List.forall_mem_singleton.mpr positive) limit).higher
        (Nat.add_le_add_left (Expr.room_branch operator (by simp)) limit)
    · exact (ihFalse (List.forall_mem_singleton.mpr negative) limit).higher
        (Nat.add_le_add_left (Expr.room_branch operator (by simp)) limit)
  | group operator =>
    intro limit
    rw [execute.eq_9 _ _ _ operator]
    exact .pure fun memory low => Nat.lt_add_right _ low
  | noOperands =>
    intro limit
    rw [executeOperands]
    exact .pure fun memory low => ⟨low, fun some => absurd rfl some⟩
  | operand _ _ ih ihs =>
    obtain ⟨argument, others⟩ := List.forall_mem_cons.mp tidy
    intro limit
    rw [executeOperands]
    exact below_valued (ih (List.forall_mem_singleton.mpr argument))
      ((short_combined (ihs others)).weaken fun _ memory short => ⟨short.low, fun _ => short.based⟩)
  | noBindings =>
    intro limit
    rw [executeBindings]
    exact .pure fun memory low => low
  | binding _ _ _ ih ihs =>
    obtain ⟨bound, others⟩ := List.forall_mem_cons.mp tidy
    intro limit
    rw [executeBindings]
    refine below_valued (ih (List.forall_mem_singleton.mpr (Expr.tidy_binding bound))) ?_
    exact (short_keep names _).bind fun _ =>
      (ihs others limit).strengthen fun memory short => short.low
  | noBodies =>
    intro _ limit
    rw [executeAll]
    exact .pure fun memory low => low
  | body _ _ ih ihs =>
    obtain ⟨head, others⟩ := List.forall_mem_cons.mp tidy
    intro leading limit
    rw [executeAll, ← Expr.room_body leading, ← Nat.add_assoc]
    exact (ih (List.forall_mem_singleton.mpr head) limit).bind fun _ =>
      ihs others (Expr.leading_cons leading).2 _

end Structured
end StackScheme
