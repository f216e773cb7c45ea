import StackScheme.Proofs.Evaluator.Height

/-! What becomes of an execution whose evaluation stops for the lack of a value. What takes the
value off the stack takes something else, if there is anything, and then the stack is lower than it
should be. Where nothing has been left behind, there is nothing to make up for that. -/
namespace StackScheme.Evaluator
open Stateful Compiler Structured

/-- From this stack, the evaluation stops for the lack of a value only if the action fails or leaves
the stack short. -/
def Starves {α : Type} (names : Table String Nat) (stack : List Int) (evaluation : EvalM α)
    (action : MemoryM Unit) (short : Memory → Prop) : Prop :=
  ∀ state memory, Matches names state memory → memory.stack = stack →
    ∀ failure last, evaluation state = .error failure last → Lacks failure →
      ∀ after, action memory = .ok () after → short after

namespace Starves
variable {α β : Type} {names : Table String Nat} {stack middle : List Int} {evaluation : EvalM α}
  {action following : MemoryM Unit} {short shorter : Memory → Prop}

/-- The evaluation does not stop for the lack of a value. -/
theorem never (supplied : ∀ state failure last, evaluation state = .error failure last →
    ¬ Lacks failure) : Starves names stack evaluation action short :=
  fun state _ _ _ failure last failed lacks => absurd lacks (supplied state failure last failed)

theorem nothing {value : α} : Starves names stack (pure value) action short :=
  never fun _ _ _ failed => by cases failed

theorem bindName {name : String} {value : Int} :
    Starves names stack (bindName name value) action short :=
  never fun _ _ _ failed => by cases failed

theorem printLine {value : Int} : Starves names stack (printLine value) action short := by
  refine never fun state failure last failed lacks => ?_
  obtain ⟨shown, line, rfl⟩ := lacks
  unfold Evaluator.printLine at failed
  split at failed <;> cases failed

theorem lookup {name : String} : Starves names stack (lookup name) action short := by
  refine never fun state failure last failed lacks => ?_
  obtain ⟨shown, line, rfl⟩ := lacks
  unfold Evaluator.lookup at failed
  split at failed <;> cases failed

theorem bind {next : α → EvalM β} {post : α → List Int → Prop}
    (tracks : Tracks names stack evaluation action post)
    (early : Starves names stack evaluation action shorter)
    (resumed : Leads shorter following short)
    (later : ∀ value middle, post value middle →
      Starves names middle (next value) following short) :
    Starves names stack (evaluation >>= next) (action >>= fun _ => following) short := by
  intro state memory same start failure last failed lacks after done
  obtain ⟨_, between, begun, finished⟩ := bind_eq_ok.mp done
  have ended := tracks state memory same start
  rw [bind_apply] at failed
  cases result : evaluation state with
  | ok value state =>
    simp only [result] at ended failed
    obtain ⟨_, reached, same, holds⟩ := ended
    obtain ⟨_, rfl⟩ := EStateM.Result.ok.inj (begun.symm.trans reached)
    exact later value _ holds state between same rfl failure last failed lacks after finished
  | error fault state =>
    simp only [result] at failed
    obtain ⟨rfl, rfl⟩ := EStateM.Result.error.inj failed
    exact resumed.ok (early _ memory same start _ _ result lacks between begun) finished

theorem map {f : α → β} (starves : Starves names stack evaluation action short) :
    Starves names stack (evaluation >>= fun value => pure (f value)) action short := by
  intro state memory same start failure last failed
  rw [bind_apply] at failed
  cases result : evaluation state with
  | ok value state =>
    rw [result] at failed
    contradiction
  | error fault state =>
    simp only [result] at failed
    obtain ⟨rfl, rfl⟩ := EStateM.Result.error.inj failed
    exact starves _ memory same start _ _ result

theorem weaken (starves : Starves names stack evaluation action shorter)
    (weaker : ∀ memory, shorter memory → short memory) :
    Starves names stack evaluation action short :=
  fun state memory same start failure last failed lacks after done =>
    weaker after (starves state memory same start failure last failed lacks after done)

theorem remark {expr : Expr} {bodies : List Expr} {next : EvalM β}
    (starves : Starves names stack next action short) :
    Starves names stack (remark expr bodies >>= fun _ => next) action short := by
  intro state memory same start failure last failed
  obtain ⟨log, done⟩ := remark_done expr bodies state
  rw [bind_ok done] at failed
  have noted : Matches names { state with log } memory := ⟨same.output, same.values⟩
  exact starves _ memory noted start failure last failed

/-- What only the execution does. -/
theorem ahead
    (done : ∀ memory : Memory, memory.stack = stack → action memory = .ok () { memory with
      stack := middle })
    (starves : Starves names middle evaluation following short) :
    Starves names stack evaluation (action >>= fun _ => following) short := by
  intro state memory same start
  rw [bind_ok (done memory start)]
  exact starves state _ ⟨same.output, same.values⟩ rfl

theorem pop {value : Int} {next : Int → MemoryM Unit}
    (starves : Starves names stack evaluation (next value) short) :
    Starves names (value :: stack) evaluation (Memory.pop >>= next) short := by
  intro state memory same start
  rw [bind_ok (pop_done start)]
  exact starves state _ ⟨same.output, same.values⟩ rfl

theorem onLine (starves : Starves names stack evaluation action short) (line : Nat) :
    Starves names stack (Failure.onLine line evaluation) action short := by
  intro state memory same start failure last failed lacks
  unfold Failure.onLine at failed
  cases result : evaluation state with
  | ok value state =>
    rw [result] at failed
    contradiction
  | error fault state =>
    simp only [result] at failed
    obtain ⟨rfl, rfl⟩ := EStateM.Result.error.inj failed
    obtain ⟨shown, _, lacks⟩ := lacks
    cases fault with
    | program located =>
      have cause : located.cause = .noValue shown :=
        congrArg Located.cause (Failure.program.inj lacks)
      exact starves _ memory same start _ _ result ⟨shown, located.line, by rw [← cause]⟩
    | _ => contradiction

end Starves

/-- If evaluating the phrase stops for the lack of a value, executing it leaves the stack short. -/
def Starving (names : Table String Nat) : Phrase → Prop
  | .expr expr => ∀ stack, Starves names stack (evaluate expr) (Structured.execute names expr)
      (Short stack.length expr.room)
  | .operands op args => ∀ soFar stack, Starves names (soFar :: stack)
      (evaluateOperands op soFar args) (Structured.executeOperands names op args)
      (Short stack.length 1)
  | .bindings members => ∀ stack, Starves names stack (evaluateBindings members)
      (Structured.executeBindings names members) (Short stack.length 0)
  | .bodies bodies => (∀ body ∈ bodies.dropLast, body.valueless = true) → ∀ last stack,
      Starves names stack (evaluateBodies last bodies) (Structured.executeAll names bodies)
        (Short stack.length (Expr.allRoom bodies))

/-- What is known of a phrase when the phrases around it are considered. -/
structure Traced (names : Table String Nat) (phrase : Phrase) : Prop where
  follows : Follows names phrase
  bounded : Bounded names phrase
  starving : Starving names phrase

section Rules
variable {names : Table String Nat} {op : String}

/-- Without the value that is needed, what comes next starts with too few. -/
theorem starves_valued {α : Type} {expr : Expr} {next : Int → EvalM α} {following : MemoryM Unit}
    {stack : List Int} {short : Memory → Prop} (tidy : expr.Tidy)
    (evaluated : Traced names (.expr expr))
    (without : Leads (Below (stack.length + 1)) following short)
    (present : ∀ number, Starves names (number :: stack) (next number) following short) :
    Starves names stack (evaluate expr >>= fun value => demand expr value >>= next)
      (Structured.execute names expr >>= fun _ => following) short := by
  refine .bind (evaluated.follows stack) (evaluated.starving stack) ?_ fun value middle leaves => ?_
  · refine without.strengthen fun memory short => ?_
    exact Nat.lt_of_lt_of_le short.low (Nat.add_le_add_left expr.room_le_one _)
  · obtain ⟨junk, rfl, clean, _⟩ := leaves
    obtain rfl := clean tidy
    cases value with
    | none =>
      intro state memory same start failure last _ _ after done
      have low : Below (stack.length + 1) memory := by simp [Below, start]
      exact without.ok low done
    | some number => exact present number

theorem starving_println {arg : Expr} (operator : Operator.ofName op = .println) (tidy : arg.Tidy)
    (argument : Traced names (.expr arg)) : Starving names (.expr (.form op [arg])) := by
  intro stack
  rw [evaluate.eq_5 _ _ operator, Structured.execute.eq_5 _ _ _ operator]
  refine starves_valued tidy argument ?_ fun number => .pop (.map .printLine)
  refine short_pop.bind fun value => Leads.short ?_
  exact (below_printLine value).higher (Nat.le_add_right _ _)

theorem starving_arith {f : Arith} {first second : Expr} {rest : List Expr}
    (operator : Operator.ofName op = .arith f) (tidy : first.Tidy)
    (start : Traced names (.expr first)) (further : Traced names (.operands f (second :: rest))) :
    Starving names (.expr (.form op (first :: second :: rest))) := by
  intro stack
  rw [evaluate.eq_7 _ _ _ _ _ operator, Structured.execute.eq_6 _ _ _ _ _ _ operator,
    Expr.room_arith operator]
  refine starves_valued tidy start ?_ fun number => .map (further.starving number stack)
  exact (further.bounded stack.length).weaken fun _ memory ended =>
    ⟨ended.1, ended.2 (List.cons_ne_nil second rest)⟩

theorem starving_operand {f : Arith} {arg : Expr} {rest : List Expr} (tidy : arg.Tidy)
    (argument : Traced names (.expr arg)) (further : Traced names (.operands f rest)) :
    Starving names (.operands f (arg :: rest)) := by
  intro soFar stack
  rw [evaluateOperands, Structured.executeOperands]
  refine starves_valued tidy argument (short_combined further.bounded) fun number => ?_
  refine .ahead (fun memory start => ?_) (further.starving (f.apply soFar number) stack)
  simp only [Memory.combine_eq, Memory.push, Memory.pop, bind_apply, start]

theorem starving_letIn {members bodies : List Expr} (operator : Operator.ofName op = .letIn)
    (tidy : Expr.Tidy (.form op (.form "" members :: bodies)))
    (bound : Traced names (.bindings members)) (inside : Traced names (.bodies bodies)) :
    Starving names (.expr (.form op (.form "" members :: bodies))) := by
  have head := Expr.tidy_form tidy (.form "" members) List.mem_cons_self
  have leading := Expr.tidy_bodies operator tidy
  intro stack
  rw [evaluate.eq_9 _ _ _ operator, Structured.execute.eq_7 _ _ _ _ operator,
    Expr.room_letIn operator]
  refine .bind (bound.follows stack) (bound.starving stack) (inside.bounded leading _).short
    fun _ middle left => .remark ?_
  obtain ⟨junk, rfl, clean⟩ := left
  obtain rfl := clean (Expr.tidy_form head)
  exact inside.starving leading none stack

theorem starving_ifElse {condition positive negative : Expr}
    (operator : Operator.ofName op = .ifElse) (tidy : condition.Tidy)
    (test : Traced names (.expr condition)) (whenTrue : Traced names (.expr positive))
    (whenFalse : Traced names (.expr negative)) :
    Starving names (.expr (.form op [condition, positive, negative])) := by
  have room {branch : Expr} (member : branch ∈ [positive, negative]) :
      branch.room ≤ Expr.room (.form op [condition, positive, negative]) :=
    Expr.room_branch operator member
  intro stack
  rw [evaluate.eq_12 _ _ _ _ operator, Structured.execute.eq_8 _ _ _ _ _ operator]
  refine starves_valued tidy test (short_pop.bind fun value => ?_) fun number => .pop ?_
  · split
    · exact ((whenTrue.bounded _).higher (Nat.add_le_add_left (room (by simp)) _)).short
    · exact ((whenFalse.bounded _).higher (Nat.add_le_add_left (room (by simp)) _)).short
  · split
    · exact (whenTrue.starving stack).weaken fun memory short => short.weaken (room (by simp))
    · exact (whenFalse.starving stack).weaken fun memory short => short.weaken (room (by simp))

theorem starving_binding {name : String} {value : Expr} {rest : List Expr} {register : Nat}
    (assigned : names.find? name = some register) (distinct : Distinct names) (tidy : value.Tidy)
    (evaluated : Traced names (.expr value)) (further : Traced names (.bindings rest)) :
    Starving names (.bindings (.binding name value :: rest)) := by
  intro stack
  rw [evaluateBindings, Structured.executeBindings]
  refine starves_valued tidy evaluated ?_ fun number => ?_
  · exact (short_keep names name).bind fun _ => (further.bounded _).short
  · have bound : Starves names (number :: stack) (bindName name number)
        (Structured.keep names name) fun _ => False := .bindName
    refine .bind (.keep assigned distinct number) bound (fun _ short => short.elim) ?_
    rintro _ middle rfl
    exact further.starving middle

theorem starving_body {body : Expr} {rest : List Expr} (tidy : body.Tidy)
    (head : Traced names (.expr body)) (further : Traced names (.bodies rest)) :
    Starving names (.bodies (body :: rest)) := by
  intro leading last stack
  obtain ⟨before, others⟩ := Expr.leading_cons leading
  rw [evaluateBodies, Structured.executeAll, ← Expr.room_body leading]
  refine .bind (head.follows stack) (head.starving stack) ?_ fun value middle leaves => ?_
  · refine Leads.short ?_
    rw [← Nat.add_assoc]
    exact further.bounded others _
  · obtain ⟨junk, rfl, clean, none⟩ := leaves
    obtain rfl := clean tidy
    cases rest with
    | nil =>
      rw [evaluateBodies]
      exact .nothing
    | cons next rest =>
      -- a body that is not the last one has no value
      obtain rfl := none (before (List.cons_ne_nil next rest))
      exact (further.starving others Option.none stack).weaken fun memory short =>
        short.weaken (Nat.le_add_left _ _)

end Rules

/-- Where nothing is left behind, compiled phrases are short of the values they lack. -/
theorem starving {context after : Context} {phrase : Phrase} {code : Code}
    (emitted : Emits context phrase code after) {names : Table String Nat}
    (knows : Knows names after) (distinct : Distinct names)
    (literals : ∀ n ∈ phrase.integers, Numeral.Fits n)
    (tidy : ∀ expr ∈ exprsOf phrase, expr.Tidy) : Starving names phrase := by
  have traced {context after : Context} {phrase : Phrase} {code : Code}
      (emitted : Emits context phrase code after) (knows : Knows names after)
      (literals : ∀ n ∈ phrase.integers, Numeral.Fits n)
      (tidy : ∀ expr ∈ exprsOf phrase, expr.Tidy) (starving : Starving names phrase) :
      Traced names phrase :=
    ⟨follows emitted knows distinct literals (Expr.orderly_of_tidy tidy),
      bounded_execution emitted names tidy, starving⟩
  induction emitted with
  | int | bool =>
    intro stack
    rw [evaluate]
    exact .nothing
  | var =>
    intro stack
    rw [evaluate]
    exact .map .lookup
  | println operator argument ih =>
    have parts := Expr.tidy_form (tidy _ List.mem_cons_self)
    simp only [Phrase.integers, Expr.integers, Expr.allIntegers, List.append_nil] at literals
    exact starving_println operator (parts _ List.mem_cons_self)
      (traced argument knows literals parts (ih knows literals parts))
  | arith operator start further ih ihs =>
    obtain ⟨fits, further_fit⟩ := List.forall_mem_append.mp literals
    obtain ⟨first, others⟩ := List.forall_mem_cons.mp (Expr.tidy_form (tidy _ List.mem_cons_self))
    have alone := List.forall_mem_singleton.mpr first
    have earlier := knows.earlier further
    exact starving_arith operator first
      (traced start earlier fits alone (ih earlier fits alone))
      (traced further knows further_fit others (ihs knows further_fit others))
  | letIn operator bound inside ih ihs =>
    obtain ⟨fits, further_fit⟩ := List.forall_mem_append.mp literals
    have form := tidy _ List.mem_cons_self
    obtain ⟨head, bodies⟩ := List.forall_mem_cons.mp (Expr.tidy_form form)
    have members := Expr.tidy_form head
    have earlier := knows.earlier inside
    exact starving_letIn operator form
      (traced bound earlier fits members (ih earlier fits members))
      (traced inside knows further_fit bodies (ihs knows further_fit bodies))
  | ifElse operator test first second third whenTrue whenFalse ihTest ihTrue ihFalse =>
    obtain ⟨fits, branches⟩ := List.forall_mem_append.mp literals
    obtain ⟨fitsTrue, branches⟩ := List.forall_mem_append.mp branches
    obtain ⟨fitsFalse, _⟩ := List.forall_mem_append.mp branches
    have parts := Expr.tidy_form (tidy _ List.mem_cons_self)
    simp only [List.forall_mem_cons] at parts
    obtain ⟨condition, positive, negative, _⟩ := parts
    have tested := List.forall_mem_singleton.mpr condition
    have positive := List.forall_mem_singleton.mpr positive
    have negative := List.forall_mem_singleton.mpr negative
    have knowsTrue := knows.earlier whenFalse
    have earlier :=
      (knowsTrue.earlier whenTrue).of_same (Context.registers_drawn first second third)
    exact starving_ifElse operator condition
      (traced test earlier fits tested (ihTest earlier fits tested))
      (traced whenTrue knowsTrue fitsTrue positive (ihTrue knowsTrue fitsTrue positive))
      (traced whenFalse knows fitsFalse negative (ihFalse knows fitsFalse negative))
  | group operator =>
    intro stack
    rw [evaluate.eq_14 _ _ operator]
    exact .nothing
  | noOperands =>
    intro soFar stack
    rw [evaluateOperands]
    exact .nothing
  | operand argument further ih ihs =>
    obtain ⟨fits, further_fit⟩ := List.forall_mem_append.mp literals
    obtain ⟨first, others⟩ := List.forall_mem_cons.mp tidy
    have alone := List.forall_mem_singleton.mpr first
    have earlier := knows.earlier further
    exact starving_operand first (traced argument earlier fits alone (ih earlier fits alone))
      (traced further knows further_fit others (ihs knows further_fit others))
  | noBindings =>
    intro stack
    rw [evaluateBindings]
    exact .nothing
  | binding evaluated stored further ih ihs =>
    obtain ⟨fits, further_fit⟩ := List.forall_mem_append.mp literals
    obtain ⟨bound, others⟩ := List.forall_mem_cons.mp tidy
    have value := Expr.tidy_binding bound
    have alone := List.forall_mem_singleton.mpr value
    have assigned := knows.earlier further
    have earlier : Knows names _ := fun name register found =>
      assigned name register (Context.assign_kept stored found)
    exact starving_binding (assigned _ _ (Context.assign_found stored)) distinct value
      (traced evaluated earlier fits alone (ih earlier fits alone))
      (traced further knows further_fit others (ihs knows further_fit others))
  | noBodies =>
    intro _ last stack
    rw [evaluateBodies]
    exact .nothing
  | body head further ih ihs =>
    obtain ⟨fits, further_fit⟩ := List.forall_mem_append.mp literals
    obtain ⟨first, others⟩ := List.forall_mem_cons.mp tidy
    have alone := List.forall_mem_singleton.mpr first
    have earlier := knows.earlier further
    exact starving_body first (traced head earlier fits alone (ih earlier fits alone))
      (traced further knows further_fit others (ihs knows further_fit others))

end StackScheme.Evaluator
