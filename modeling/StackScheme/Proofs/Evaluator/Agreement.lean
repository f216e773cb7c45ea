import StackScheme.Proofs.Evaluator.Shortage

/-! Whether running the bytecode of a source ends where evaluating the source ends, and prints the
same. It does where nothing is left on the stack. What is left there can be taken for an operand, or
for a value that something lacks. -/
namespace StackScheme.Evaluator
open Stateful Compiler Structured

/-- Both come to the end, with the same output, or both fail. -/
def Agree : EStateM.Result Failure Evaluation Unit → EStateM.Result Failure Machine RunEnd → Prop
  | .ok () state, .ok ending machine => ending = .halted ∧ state.output = machine.output
  | .error _ _, .error _ _ => True
  | _, _ => False

theorem Corresponds.agree {names : Table String Nat}
    {evaluation : EStateM.Result Failure Evaluation Unit}
    {run : EStateM.Result Failure Machine RunEnd} (same : Corresponds names evaluation run) :
    Agree evaluation run := by
  cases evaluation with
  | ok done state =>
    cases run with
    | ok ending machine => exact ⟨same.1, same.2.output⟩
    | error fault machine => exact same.elim
  | error failure state =>
    cases run with
    | ok ending machine => exact same.elim
    | error fault machine => trivial

/-- Neither a `let` nor a form leaves a value behind that comes in the way of what follows. -/
def Tight (exprs : List Expr) : Prop :=
  (∀ expr ∈ exprs, expr.Tidy) ∧ ∀ expr ∈ exprs.dropLast, expr.valueless = true

instance (exprs : List Expr) : Decidable (Tight exprs) :=
  inferInstanceAs (Decidable ((∀ expr ∈ exprs, expr.Tidy) ∧
    ∀ expr ∈ exprs.dropLast, expr.valueless = true))

/-- A form that lacks a value cannot be executed on the empty stack that the forms before it have
left. -/
theorem program_starves {program : Program} {context after : Context} {code : Code}
    (emitted : Emits context (.bodies program.exprs) code after) {names : Table String Nat}
    (knows : Knows names after) (distinct : Distinct names)
    (literals : ∀ n ∈ Expr.allIntegers program.exprs, Numeral.Fits n)
    (tight : Tight program.exprs) :
    Starves names [] (evaluateProgram program) (Structured.executeAll names program.exprs)
      fun _ => False := by
  induction program generalizing context code with
  | nil => exact .nothing
  | cons numbered rest ih =>
    obtain ⟨line, form⟩ := numbered
    cases emitted with
    | body head further =>
      obtain ⟨fits, others_fit⟩ := List.forall_mem_append.mp literals
      obtain ⟨tidy, leading⟩ := tight
      obtain ⟨first, others⟩ := List.forall_mem_cons.mp tidy
      obtain ⟨before, leading⟩ := Expr.leading_cons leading
      have alone := List.forall_mem_singleton.mpr first
      have earlier := knows.earlier further
      have tracks := follows head earlier distinct fits (Expr.orderly_of_tidy alone) []
      have starves := starving head earlier distinct fits alone []
      rw [evaluateProgram]
      refine .bind (tracks.onLine line) (starves.onLine line) ?_ fun value middle leaves => ?_
      · exact fun memory short => absurd short.based (Nat.lt_irrefl 0)
      · obtain ⟨junk, rfl, clean, none⟩ := leaves
        obtain rfl := clean first
        cases rest with
        | nil => exact .nothing
        | cons next rest =>
          obtain rfl := none (before (List.cons_ne_nil _ _))
          exact ih further others_fit ⟨others, leading⟩

theorem Starves.agree {names : Table String Nat} {evaluation : EvalM Unit} {action : MemoryM Unit}
    {run : EStateM.Result Failure Machine RunEnd}
    (starves : Starves names [] evaluation action fun _ => False)
    (stops : StopsForValue (evaluation {})) (agrees : Agrees (action {}) run) :
    Agree (evaluation {}) run := by
  cases result : evaluation {} with
  | ok done state =>
    rw [result] at stops
    exact stops.elim
  | error failure state =>
    rw [result] at stops
    cases run with
    | error fault machine => trivial
    | ok ending machine =>
      cases executed : action {} with
      | ok done after =>
        exact (starves {} {} ⟨rfl, fun name => by simp⟩ rfl _ _ result stops after executed).elim
      | error trouble after =>
        rw [executed] at agrees
        exact agrees.elim

/-- Running the bytecode of a source does what evaluating the source does, if operands are tidy and
nothing lacks a value, or if nothing is left behind at all. -/
theorem bytecode_agrees {source text : String} {program : Program}
    (compiled : bytecode source = .ok text) (read : Reader.readSource source = .ok program)
    (accounted : Expr.Orderly program.exprs ∧ ¬ StopsForValue (evaluateSource source {}) ∨
      Tight program.exprs) :
    ∀ steps, (Text.lines text).length ≤ steps →
      Agree (evaluateSource source {}) (Machine.loadAndRun steps text {}) := by
  intro steps enough
  obtain ⟨_, code, after, same, done, encoded⟩ := bytecode_eq_ok_iff.mp compiled
  obtain rfl := Except.ok.inj (read.symm.trans same)
  have emitted := compileProgram_emits done
  have literals := Reader.fits_of_readSource read
  have extent := (emitted.extent_le encoded).trans enough
  rw [evaluateSource_read read] at accounted ⊢
  have orderly : Expr.Orderly program.exprs := by
    rcases accounted with ⟨orderly, _⟩ | tight
    · exact orderly
    · exact Expr.orderly_of_tidy tight.1
  rcases emitted_corresponds emitted encoded literals orderly extent with stops | same
  · have tight := accounted.resolve_left fun supplied => supplied.2 stops
    have distinct : Distinct after.registers :=
      fun _ _ _ => (emitted.dense Context.dense_empty).injective
    have starves := program_starves emitted (.self after) distinct literals tight
    exact starves.agree stops (emitted.agrees encoded extent)
  · exact same.agree

/-- The operand that is missing here is not there for the compiled program either. -/
theorem bytecode_agrees_missing :
    let source := "(println (+ 1 (println 5)))"
    ∃ text, bytecode source = .ok text ∧ ∀ steps, (Text.lines text).length ≤ steps →
      Agree (evaluateSource source {}) (Machine.loadAndRun steps text {}) := by
  intro source
  have compiled : bytecode source = .ok "PUSH 1\nPUSH 5\nPRINT\nADD\nPRINT\n" := by
    decide +kernel
  have tight : (Reader.readSource source).map (fun program => decide (Tight program.exprs)) =
      .ok true := by
    decide +kernel
  cases read : Reader.readSource source with
  | error failure =>
    rw [read] at tight
    contradiction
  | ok program =>
    rw [read] at tight
    have agrees :=
      bytecode_agrees compiled read (Or.inr (of_decide_eq_true (Except.ok.inj tight)))
    exact ⟨_, compiled, agrees⟩

/-- The value of the first body is taken for an operand: evaluated, this prints 4, and compiled it
prints 5. -/
theorem bytecode_disagrees_leftover :
    let source := "(println (+ 1 (let ([x 1]) 2 3)))"
    ∃ text state machine, bytecode source = .ok text ∧
      evaluateSource source {} = .ok () state ∧ state.output = "4\n" ∧
      Machine.loadAndRun (Text.lines text).length text {} = .ok .halted machine ∧
      machine.output = "5\n" := by
  intro source
  have compiled : bytecode source =
      .ok "PUSH 1\nPUSH 1\nSTOR 0\nPUSH 2\nPUSH 3\nADD\nPRINT\n" := by
    decide +kernel
  have evaluated : passes (fun _ state => state.output = "4\n") (evaluateSource source {}) := by
    decide +kernel
  have run : passes (fun ending machine => ending = .halted ∧ machine.output = "5\n")
      (Machine.loadAndRun 7 "PUSH 1\nPUSH 1\nSTOR 0\nPUSH 2\nPUSH 3\nADD\nPRINT\n" {}) := by
    decide +kernel
  obtain ⟨_, state, ended, four⟩ := passes_iff.mp evaluated
  obtain ⟨_, machine, halted, five⟩ := passes_iff.mp run
  simp only [decide_eq_true_eq] at four five
  obtain ⟨rfl, five⟩ := five
  exact ⟨_, state, machine, compiled, ended, four, halted, five⟩

end StackScheme.Evaluator
