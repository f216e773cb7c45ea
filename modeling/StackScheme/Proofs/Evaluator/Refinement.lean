import StackScheme.Proofs.Compiler.Simulation
import StackScheme.Proofs.Evaluator.Shape
import StackScheme.Proofs.Evaluator.Tracking
import StackScheme.Proofs.Reader.Soundness

/-! Compiled programs do what evaluating them does. An evaluation leaves its value on top of the
stack; what a `let` has left below that does no harm where operands are tidy. -/
namespace StackScheme.Evaluator
open Stateful Compiler

/-- What an expression with this value has put on the stack. -/
def Leaves (expr : Expr) (stack : List Int) (value : Option Int) (after : List Int) : Prop :=
  ∃ junk, after = value.toList ++ (junk ++ stack) ∧ (expr.Tidy → junk = []) ∧
    (expr.valueless = true → value = none)

/-- What further bodies have put on the stack, on which the value of the body before them lies. -/
def LeaveAll (bodies : List Expr) (last : Option Int) (stack : List Int) (value : Option Int)
    (after : List Int) : Prop :=
  ∃ junk, after = value.toList ++ (junk ++ stack) ∧
    ((∀ body ∈ bodies, body.Tidy) → (∀ body ∈ bodies.dropLast, body.valueless = true) →
      (bodies ≠ [] → last = none) → junk = []) ∧
    (Expr.allValueless bodies = true → last = none → value = none)

/-- Execution of the phrase goes along with its evaluation. -/
def Follows (names : Table String Nat) : Phrase → Prop
  | .expr expr => ∀ stack, Tracks names stack (evaluate expr) (Structured.execute names expr)
      (Leaves expr stack)
  | .operands op args => (∀ arg ∈ args, arg.Tidy) → ∀ soFar stack,
      Tracks names (soFar :: stack) (evaluateOperands op soFar args)
        (Structured.executeOperands names op args) fun value after => after = value :: stack
  | .bindings members => ∀ stack, Tracks names stack (evaluateBindings members)
      (Structured.executeBindings names members) fun _ after =>
        ∃ junk, after = junk ++ stack ∧ ((∀ member ∈ members, member.Tidy) → junk = [])
  | .bodies bodies => ∀ last stack, Tracks names (last.toList ++ stack)
      (evaluateBodies last bodies) (Structured.executeAll names bodies)
      (LeaveAll bodies last stack)

/-- The expressions of a phrase. -/
@[simp] def exprsOf : Phrase → List Expr
  | .expr expr => [expr]
  | .operands _ exprs | .bindings exprs | .bodies exprs => exprs

section Rules
variable {names : Table String Nat} {op : String}

theorem follows_println {arg : Expr} (operator : Operator.ofName op = .println)
    (fits : ∀ n ∈ arg.integers, Numeral.Fits n) (argument : Follows names (.expr arg)) :
    Follows names (.expr (.form op [arg])) := by
  intro stack
  rw [evaluate.eq_5 _ _ operator, Structured.execute.eq_5 _ _ _ operator]
  refine (argument stack).bind fun value middle leaves => .demand fits fun number same => ?_
  obtain ⟨junk, rfl, tidy, _⟩ := leaves
  subst same
  refine .pop ((Tracks.printLine number).map fun _ after same => ?_)
  refine ⟨junk, same, ?_, fun _ => rfl⟩
  exact fun tidyForm => tidy (Expr.tidy_form tidyForm arg (by simp))

theorem follows_arith {f : Arith} {first second : Expr} {rest : List Expr}
    (operator : Operator.ofName op = .arith f) (fits : ∀ n ∈ first.integers, Numeral.Fits n)
    (operands : ∀ arg ∈ second :: rest, arg.Tidy) (start : Follows names (.expr first))
    (further : Follows names (.operands f (second :: rest))) :
    Follows names (.expr (.form op (first :: second :: rest))) := by
  intro stack
  rw [evaluate.eq_7 _ _ _ _ _ operator, Structured.execute.eq_6 _ _ _ _ _ _ operator]
  refine (start stack).bind fun value middle leaves => .demand fits fun number same => ?_
  obtain ⟨junk, rfl, tidy, _⟩ := leaves
  subst same
  refine (further operands number (junk ++ stack)).map fun result after same => ?_
  refine ⟨junk, same, fun tidyForm => tidy (Expr.tidy_form tidyForm first (by simp)), ?_⟩
  simp [Expr.valueless, operator]

theorem follows_operand {f : Arith} {arg : Expr} {rest : List Expr}
    (fits : ∀ n ∈ arg.integers, Numeral.Fits n) (argument : Follows names (.expr arg))
    (further : Follows names (.operands f rest)) : Follows names (.operands f (arg :: rest)) := by
  intro operands soFar stack
  rw [evaluateOperands, Structured.executeOperands]
  refine (argument (soFar :: stack)).bind fun value middle leaves =>
    .demand fits fun number same => ?_
  obtain ⟨junk, rfl, tidy, _⟩ := leaves
  subst same
  -- nothing lies between the operand and what the operands before it have come to
  obtain rfl := tidy (operands arg (by simp))
  have others : ∀ other ∈ rest, other.Tidy :=
    fun other member => operands other (List.mem_cons_of_mem _ member)
  refine .ahead (fun memory start => ?_) (further others (f.apply soFar number) stack)
  simp only [Memory.combine_eq, Memory.push, Memory.pop, bind_apply, start, Option.toList_some,
    List.nil_append, List.cons_append]

theorem follows_letIn {members bodies : List Expr} (operator : Operator.ofName op = .letIn)
    (bound : Follows names (.bindings members)) (inside : Follows names (.bodies bodies)) :
    Follows names (.expr (.form op (.form "" members :: bodies))) := by
  intro stack
  rw [evaluate.eq_9 _ _ _ operator, Structured.execute.eq_7 _ _ _ _ operator]
  refine (bound stack).bind fun _ middle left => .remark ?_
  obtain ⟨junk, rfl, clean⟩ := left
  refine (inside none (junk ++ stack)).weaken fun value after left => ?_
  obtain ⟨more, rfl, tidy, none⟩ := left
  refine ⟨more ++ junk, by simp, ?_, ?_⟩
  · intro tidyForm
    have parts := Expr.tidy_form tidyForm
    have values := Expr.tidy_form (parts (.form "" members) (by simp))
    have leading := Expr.tidy_bodies operator tidyForm
    rw [clean values, tidy (fun body member => parts body (by simp [member])) leading fun _ => rfl]
    rfl
  · intro valueless
    exact none (by simpa [Expr.valueless, operator] using valueless) rfl

theorem follows_ifElse {condition positive negative : Expr}
    (operator : Operator.ofName op = .ifElse) (fits : ∀ n ∈ condition.integers, Numeral.Fits n)
    (test : Follows names (.expr condition)) (whenTrue : Follows names (.expr positive))
    (whenFalse : Follows names (.expr negative)) :
    Follows names (.expr (.form op [condition, positive, negative])) := by
  intro stack
  rw [evaluate.eq_12 _ _ _ _ operator, Structured.execute.eq_8 _ _ _ _ _ operator]
  refine (test stack).bind fun value middle leaves => .demand fits fun number same => ?_
  obtain ⟨junk, rfl, tidy, _⟩ := leaves
  subst same
  refine .pop ?_
  -- either branch runs on what the condition has left below its value
  have either {branch : Expr} (member : branch ∈ [positive, negative])
      (branches : Follows names (.expr branch)) :
      Tracks names (junk ++ stack) (evaluate branch) (Structured.execute names branch)
        (Leaves (.form op [condition, positive, negative]) stack) := by
    refine (branches (junk ++ stack)).weaken fun result after leaves => ?_
    obtain ⟨more, rfl, tidyBranch, none⟩ := leaves
    refine ⟨more ++ junk, by simp, ?_, ?_⟩
    · intro tidyForm
      have parts := Expr.tidy_form tidyForm
      rw [tidy (parts condition (by simp)), tidyBranch (parts branch (by simp_all))]
      rfl
    · intro valueless
      have both : ∀ other ∈ [positive, negative], other.valueless = true := by
        simpa [Expr.valueless, operator] using valueless
      exact none (both branch member)
  split
  · exact either (by simp) whenTrue
  · exact either (by simp) whenFalse

theorem follows_binding {name : String} {value : Expr} {rest : List Expr} {register : Nat}
    (assigned : names.find? name = some register) (distinct : Distinct names)
    (fits : ∀ n ∈ value.integers, Numeral.Fits n) (evaluated : Follows names (.expr value))
    (further : Follows names (.bindings rest)) :
    Follows names (.bindings (.binding name value :: rest)) := by
  intro stack
  rw [evaluateBindings, Structured.executeBindings]
  refine (evaluated stack).bind fun result middle leaves => .demand fits fun number same => ?_
  obtain ⟨junk, rfl, tidy, _⟩ := leaves
  subst same
  refine (Tracks.keep assigned distinct number).bind fun _ middle same => ?_
  subst same
  refine (further (junk ++ stack)).weaken fun _ after left => ?_
  obtain ⟨more, rfl, clean⟩ := left
  refine ⟨more ++ junk, by simp, fun members => ?_⟩
  rw [clean fun member inside => members member (by simp [inside]),
    tidy (Expr.tidy_binding (members (.binding name value) (by simp)))]
  rfl

theorem follows_body {body : Expr} {rest : List Expr} (head : Follows names (.expr body))
    (further : Follows names (.bodies rest)) : Follows names (.bodies (body :: rest)) := by
  intro last stack
  rw [evaluateBodies, Structured.executeAll]
  refine (head (last.toList ++ stack)).bind fun value middle leaves => ?_
  obtain ⟨junk, rfl, tidy, none⟩ := leaves
  refine (further value (junk ++ (last.toList ++ stack))).weaken fun result after left => ?_
  obtain ⟨more, rfl, clean, ended⟩ := left
  refine ⟨more ++ (junk ++ last.toList), by simp, ?_, ?_⟩
  · intro bodies leading before
    -- a body that is not the last one has no value
    obtain ⟨valueless, later⟩ := Expr.leading_cons leading
    rw [clean (fun other member => bodies other (by simp [member])) later
        fun nonempty => none (valueless nonempty),
      tidy (bodies body (by simp)), before (by simp)]
    rfl
  · intro valueless _
    simp only [Expr.allValueless, Bool.and_eq_true] at valueless
    exact ended valueless.2 (none valueless.1)

theorem follows_atom {expr : Expr} {value : Int} (plain : expr.valueless = false)
    (evaluated : evaluate expr = pure (some value))
    (executed : Structured.execute names expr = Memory.push value) :
    Follows names (.expr expr) := by
  intro stack
  rw [evaluated, executed]
  exact .push ⟨[], rfl, fun _ => rfl, by simp [plain]⟩

theorem follows_var {name : String} {register : Nat}
    (assigned : names.find? name = some register) : Follows names (.expr (.var name)) := by
  intro stack
  rw [evaluate, Structured.execute]
  refine (Tracks.fetch assigned).map fun value after same => ?_
  exact ⟨[], same, fun _ => rfl, by simp [Expr.valueless]⟩

theorem follows_group {args : List Expr} (operator : Operator.ofName op = .group) :
    Follows names (.expr (.form op args)) := by
  intro stack
  rw [evaluate.eq_14 _ _ operator, Structured.execute.eq_9 _ _ _ operator]
  exact .nothing ⟨[], rfl, fun _ => rfl, fun _ => rfl⟩

end Rules

/-- Execution of compiled phrases goes along with their evaluation. -/
theorem follows {context after : Context} {phrase : Phrase} {code : Code}
    (emitted : Emits context phrase code after) {names : Table String Nat}
    (knows : Knows names after) (distinct : Distinct names)
    (literals : ∀ n ∈ phrase.integers, Numeral.Fits n) (orderly : Expr.Orderly (exprsOf phrase)) :
    Follows names phrase := by
  induction emitted with
  | int => exact follows_atom rfl (evaluate_int _) (Structured.execute_int _ _)
  | bool => exact follows_atom rfl (evaluate_bool _) (Structured.execute_bool _ _)
  | var assigned => exact follows_var (knows _ _ assigned)
  | println operator _ ih =>
    have fits := literals
    simp only [Phrase.integers, Expr.integers, Expr.allIntegers, List.append_nil] at fits
    exact follows_println operator fits (ih knows fits (Expr.orderly_form orderly))
  | arith operator _ further ih ihs =>
    simp only [Phrase.integers, Expr.integers, Expr.allIntegers, List.mem_append, or_imp,
      forall_and] at literals
    obtain ⟨first, rest⟩ := Expr.orderly_cons.mp (Expr.orderly_form orderly)
    have operands := Expr.orderly_operands operator orderly
    refine follows_arith operator literals.1 operands (ih (knows.earlier further) literals.1 first)
      (ihs knows ?_ rest)
    simpa [Expr.allIntegers, or_imp, forall_and] using literals.2
  | letIn operator _ inside ih ihs =>
    simp only [Phrase.integers, Expr.integers, Expr.allIntegers, List.mem_append, or_imp,
      forall_and] at literals
    obtain ⟨head, bodies⟩ := Expr.orderly_cons.mp (Expr.orderly_form orderly)
    exact follows_letIn operator
      (ih (knows.earlier inside) literals.1 (Expr.orderly_form head)) (ihs knows literals.2 bodies)
  | ifElse operator _ first second third whenTrue whenFalse ihTest ihTrue ihFalse =>
    simp only [Phrase.integers, Expr.integers, Expr.allIntegers, List.mem_append, or_imp,
      forall_and] at literals
    obtain ⟨test, branches⟩ := Expr.orderly_cons.mp (Expr.orderly_form orderly)
    obtain ⟨positive, negative⟩ := Expr.orderly_cons.mp branches
    have knowsTrue := knows.earlier whenFalse
    have knowsTest :=
      (knowsTrue.earlier whenTrue).of_same (Context.registers_drawn first second third)
    exact follows_ifElse operator literals.1 (ihTest knowsTest literals.1 test)
      (ihTrue knowsTrue literals.2.1 positive) (ihFalse knows literals.2.2.1 negative)
  | group operator => exact follows_group operator
  | noOperands => exact fun _ soFar stack => .nothing rfl
  | operand _ further ih ihs =>
    simp only [Phrase.integers, Expr.allIntegers, List.mem_append, or_imp, forall_and] at literals
    obtain ⟨argument, rest⟩ := Expr.orderly_cons.mp orderly
    exact follows_operand literals.1 (ih (knows.earlier further) literals.1 argument)
      (ihs knows literals.2 rest)
  | noBindings => exact fun stack => .nothing ⟨[], rfl, fun _ => rfl⟩
  | binding _ stored further ih ihs =>
    simp only [Phrase.integers, Expr.integers, Expr.allIntegers, List.mem_append, or_imp,
      forall_and] at literals
    obtain ⟨bound, rest⟩ := Expr.orderly_cons.mp orderly
    have assigned := knows.earlier further
    have earlier : Knows names _ := fun name register found =>
      assigned name register (Context.assign_kept stored found)
    exact follows_binding (assigned _ _ (Context.assign_found stored)) distinct literals.1
      (ih earlier literals.1 (Expr.orderly_binding bound)) (ihs knows literals.2 rest)
  | noBodies =>
    exact fun last stack => .nothing ⟨[], rfl, fun _ _ _ => rfl, fun _ none => none⟩
  | body _ further ih ihs =>
    simp only [Phrase.integers, Expr.allIntegers, List.mem_append, or_imp, forall_and] at literals
    obtain ⟨head, rest⟩ := Expr.orderly_cons.mp orderly
    exact follows_body (ih (knows.earlier further) literals.1 head) (ihs knows literals.2 rest)

/-- Execution of a compiled program goes along with its evaluation. -/
theorem program_tracks {program : Program} {context after : Context} {code : Code}
    (emitted : Emits context (.bodies program.exprs) code after) {names : Table String Nat}
    (knows : Knows names after) (distinct : Distinct names)
    (literals : ∀ n ∈ Expr.allIntegers program.exprs, Numeral.Fits n)
    (orderly : Expr.Orderly program.exprs) (stack : List Int) :
    Tracks names stack (evaluateProgram program) (Structured.executeAll names program.exprs)
      fun _ _ => True := by
  induction program generalizing context code stack with
  | nil => exact .nothing trivial
  | cons numbered rest ih =>
    obtain ⟨line, form⟩ := numbered
    cases emitted with
    | body head further =>
      simp only [Program.exprs, List.map_cons, Expr.allIntegers, List.mem_append, or_imp,
        forall_and] at literals orderly
      obtain ⟨first, others⟩ := Expr.orderly_cons.mp orderly
      have here := follows head (knows.earlier further) distinct literals.1 first stack
      rw [evaluateProgram]
      exact (here.onLine line).bind fun _ middle _ => ih further literals.2 others middle

/-- The failure of a run that goes with the failure of an evaluation. -/
inductive SameFailure (names : Table String Nat) : Failure → Failure → Prop
  | undefined {name register line} (assigned : names.find? name = some register) :
      SameFailure names (.program ⟨.evaluate (.undefinedVariable name), line⟩)
        (.ofFault (.machine (.unsetRegister register)))
  | unprintable : SameFailure names (.numeral .tooLongToWrite) (.numeral .tooLongToWrite)

/-- An evaluation and a run of a machine have come to the same: the end or the same failure, with
the same output, and with the same values under the names and in their registers. -/
def Corresponds (names : Table String Nat) :
    EStateM.Result Failure Evaluation Unit → EStateM.Result Failure Machine RunEnd → Prop
  | .ok () state, .ok ending machine => ending = .halted ∧ Matches names state machine.memory
  | .error failure state, .error fault machine =>
    Matches names state machine.memory ∧ SameFailure names failure fault
  | _, _ => False

/-- An evaluation has come to something that has no value where one is needed. -/
def StopsForValue : EStateM.Result Failure Evaluation Unit → Prop
  | .ok _ _ => False
  | .error failure _ => Lacks failure

theorem corresponds {names : Table String Nat} {evaluation : EvalM Unit} {action : MemoryM Unit}
    {run : EStateM.Result Failure Machine RunEnd}
    (tracks : Tracks names [] evaluation action fun _ _ => True)
    (agrees : Agrees (action {}) run) :
    StopsForValue (evaluation {}) ∨ Corresponds names (evaluation {}) run := by
  have ended := tracks {} {} ⟨rfl, fun name => by simp⟩ rfl
  cases result : evaluation {} with
  | ok value state =>
    simp only [result] at ended
    obtain ⟨after, done, same, _⟩ := ended
    rw [done] at agrees
    cases run with
    | error fault machine => exact agrees.elim
    | ok ending machine =>
      obtain ⟨halted, rfl⟩ := agrees
      exact Or.inr ⟨halted, same⟩
  | error failure state =>
    simp only [result] at ended
    obtain lacks | ⟨trouble, after, failed, same, answers⟩ := ended
    · exact Or.inl lacks
    · rw [failed] at agrees
      cases run with
      | ok ending machine => exact agrees.elim
      | error fault machine =>
        obtain ⟨rfl, reported⟩ := agrees
        refine Or.inr ⟨same, ?_⟩
        cases answers with
        | undefined assigned =>
          cases reported with
          | unset => exact .undefined assigned
        | unprintable =>
          cases reported with
          | unprintable => exact .unprintable

theorem emitted_corresponds {program : Program} {code : Code} {after : Context} {text : String}
    (emitted : Emits {} (.bodies program.exprs) code after) (encoded : encode code = .ok text)
    (literals : ∀ n ∈ Expr.allIntegers program.exprs, Numeral.Fits n)
    (orderly : Expr.Orderly program.exprs) {steps : Nat} (enough : code.extent ≤ steps) :
    StopsForValue (evaluateProgram program {}) ∨
      Corresponds after.registers (evaluateProgram program {})
        (Machine.loadAndRun steps text {}) := by
  have dense := emitted.dense Context.dense_empty
  have tracks :=
    program_tracks emitted (.self after) (fun _ _ _ => dense.injective) literals orderly []
  exact corresponds tracks (emitted.agrees encoded enough)

/-- Running the bytecode of a source in which operands are tidy does what evaluating the source
does. -/
theorem bytecode_corresponds {source text : String} (compiled : bytecode source = .ok text) :
    ∃ program code after, Reader.readSource source = .ok program ∧
      compileProgram program {} = .ok code after ∧ encode code = .ok text ∧
      (Expr.Orderly program.exprs → ∀ steps, code.extent ≤ steps →
        StopsForValue (evaluateSource source {}) ∨
          Corresponds after.registers (evaluateSource source {})
            (Machine.loadAndRun steps text {})) := by
  obtain ⟨program, code, after, read, done, encoded⟩ := bytecode_eq_ok_iff.mp compiled
  have literals := Reader.fits_of_readSource read
  refine ⟨program, code, after, read, done, encoded, fun orderly steps enough => ?_⟩
  rw [evaluateSource_read read]
  exact emitted_corresponds (compileProgram_emits done) encoded literals orderly enough

/-- The text of a compiled program in which operands are tidy, loaded into a fresh machine and run,
does what evaluating the program does, unless that stops for the lack of a value. -/
theorem compiled_refines_evaluation {program : Program} {code : Code} {after : Context}
    (compiled : compileProgram program {} = .ok code after)
    (literals : ∀ n ∈ Expr.allIntegers program.exprs, Numeral.Fits n)
    (few : (Expr.allBoundNames program.exprs).dedup.length < Numeral.ceiling)
    (orderly : Expr.Orderly program.exprs) :
    ∃ text, encode code = .ok text ∧ ∀ steps, code.extent ≤ steps →
      StopsForValue (evaluateProgram program {}) ∨
        Corresponds after.registers (evaluateProgram program {})
          (Machine.loadAndRun steps text {}) := by
  have emitted := compileProgram_emits compiled
  obtain ⟨text, encoded⟩ := emitted.encodes literals few
  exact ⟨text, encoded, fun steps enough =>
    emitted_corresponds emitted encoded literals orderly enough⟩

/-- A first operand that leaves a value behind, and a branch that has none and is not taken. -/
theorem compiled_refines_evaluation_leftover :
    let start : Expr := .form "let" [.form "" [.binding "x" (.int 3)], .int 7, .var "x"]
    let choice : Expr := .form "if" [.var "x", .int 1, .form "println" [.int 0]]
    let program : Program := [⟨1, ⟨"println", [.form "+" [start, choice]]⟩⟩]
    ∃ code after, compileProgram program {} = .ok code after ∧
      ∃ text, encode code = .ok text ∧ ∀ steps, code.extent ≤ steps →
        StopsForValue (evaluateProgram program {}) ∨
          Corresponds after.registers (evaluateProgram program {})
            (Machine.loadAndRun steps text {}) := by
  intro start choice program
  have compiled : compileProgram program {} =
      .ok [.push 3, .store 0, .push 7, .load 0, .load 0, .jumpIfZero "fls0", .label "tru0", .push 1,
        .jump "done0", .label "fls0", .push 0, .print, .label "done0", .arith .add, .print]
        ⟨⟨[("x", 0)]⟩, 1, ⟨[("fls", 1), ("tru", 1), ("done", 1)]⟩⟩ := by
    decide +kernel
  exact ⟨_, _, compiled, compiled_refines_evaluation compiled (by decide +kernel)
    (by decide +kernel) (by decide +kernel)⟩

end StackScheme.Evaluator
