import StackScheme.Proofs.Compiler.Safety
import StackScheme.Proofs.Structured

/-! Wherever emitted code stands in a machine, running it does what structured execution of its
phrase does: it comes to the end of the code with the same memory, or it fails in the same way. -/
namespace StackScheme

namespace Machine
open Stateful

def memory (machine : Machine) : Memory :=
  ⟨machine.stack, machine.registers, machine.output⟩

/-- The program of the machine at this counter with this memory. -/
def state (machine : Machine) (pc : Nat) (memory : Memory) : Machine :=
  { machine with
    stack := memory.stack
    registers := memory.registers
    output := memory.output
    pc }

/-- How a machine reports trouble that it meets at this counter. -/
inductive Reports (pc : Int) : Trouble → Failure → Prop
  | underflow : Reports pc .underflow (.ofFault (.machine (.stackUnderflow pc)))
  | unset {register : Nat} :
      Reports pc (.unset register) (.ofFault (.machine (.unsetRegister register)))
  | unprintable : Reports pc .unprintable (.numeral .tooLongToWrite)

/-- The operation of the machine does what the action does to the memory, and nothing else. -/
def Mirrors {α : Type} (operation : MachineM α) (action : MemoryM α) : Prop :=
  ∀ (machine : Machine) pc memory,
    match action memory with
    | .ok value after => operation (machine.state pc memory) = .ok value (machine.state pc after)
    | .error trouble after => ∃ failure,
      operation (machine.state pc memory) = .error failure (machine.state pc after) ∧
        Reports (pc - 1) trouble failure

namespace Mirrors

theorem bind {α β : Type} {operation : MachineM α} {action : MemoryM α} {next : α → MachineM β}
    {following : α → MemoryM β} (first : Mirrors operation action)
    (second : ∀ value, Mirrors (next value) (following value)) :
    Mirrors (operation >>= next) (action >>= following) := by
  intro machine pc memory
  have begun := first machine pc memory
  rw [bind_apply]
  cases result : action memory with
  | ok value middle =>
    simp only [result] at begun
    rw [bind_ok begun]
    exact second value machine pc middle
  | error trouble after =>
    simp only [result] at begun
    obtain ⟨failure, failed, reported⟩ := begun
    exact ⟨failure, bind_error failed, reported⟩

theorem push (value : Int) : Mirrors (push value) (Memory.push value) := by
  intro machine pc memory
  rfl

theorem pop : Mirrors pop Memory.pop := by
  rintro machine pc ⟨_ | ⟨value, rest⟩, registers, output⟩
  · exact ⟨_, rfl, .underflow⟩
  · rfl

theorem store (register : Nat) (value : Int) :
    Mirrors (store register value) (Memory.store register value) := by
  intro machine pc memory
  rfl

theorem printLine (value : Int) : Mirrors (printLine value) (Memory.printLine value) := by
  intro machine pc memory
  by_cases fits : Numeral.Fits value
  · simp only [Memory.printLine, Machine.printLine, Numeral.write, fits, if_true]
    rfl
  · simp only [Memory.printLine, Machine.printLine, Numeral.write, fits, if_false]
    exact ⟨_, rfl, .unprintable⟩

theorem load {register : Nat} (fits : Numeral.Fits register) :
    Mirrors (load register) (Memory.load register) := by
  intro machine pc memory
  cases found : memory.registers.find? register with
  | none =>
    simp only [Memory.load, Machine.load, state, found, Numeral.write, fits, if_true]
    exact ⟨_, rfl, .unset⟩
  | some value => simp only [Memory.load, Machine.load, state, found]

theorem combine (op : Arith) : Mirrors (execute (.arith op)) (Memory.combine op) := by
  rw [Memory.combine_eq]
  exact pop.bind fun last => pop.bind fun first => push (op.apply first last)

end Mirrors

/-- From this state the machine comes to the place with the memory of the result, or it fails as the
result does. -/
def Comes (machine start : Machine) (goal : Nat) : EStateM.Result Trouble Memory Unit → Prop
  | .ok () after => Reaches start (machine.state goal after)
  | .error trouble after => ∃ last pc failure, Reaches start last ∧ last.running = true ∧
    step last = .error failure (machine.state pc after) ∧ Reports (pc - 1) trouble failure

theorem Comes.head {machine start middle : Machine} {goal : Nat}
    {result : EStateM.Result Trouble Memory Unit} (reaches : Reaches start middle)
    (comes : Comes machine middle goal result) : Comes machine start goal result := by
  cases result with
  | ok done after => exact reaches.trans comes
  | error trouble after =>
    obtain ⟨last, pc, failure, further, rest⟩ := comes
    exact ⟨last, pc, failure, reaches.trans further, rest⟩

/-- The code, wherever it stands in a machine, does what the action does. -/
def Performs (code : Code) (action : MemoryM Unit) : Prop :=
  ∀ (machine : Machine) position, Placed machine position code → ∀ memory,
    Comes machine (machine.state position memory) (position + code.extent) (action memory)

theorem step_state {machine : Machine} {position : Nat} {instr : Instr}
    (found : machine.code[position]? = some instr) (memory : Memory) :
    step (machine.state position memory) = execute instr (machine.state (position + 1) memory) :=
  step_at found

theorem positionOf_state {machine : Machine} {label : String} {position : Nat}
    (found : machine.labels.find? label = some position) (pc : Nat) (memory : Memory) :
    positionOf label (machine.state pc memory) = .ok position (machine.state pc memory) :=
  positionOf_ok found

theorem reaches_jump {machine : Machine} {position target : Nat} {label : String}
    (found : machine.code[position]? = some (.jump label))
    (leads : machine.labels.find? label = some target) (memory : Memory) :
    Reaches (machine.state position memory) (machine.state target memory) := by
  apply Reaches.single
  rw [step_state found, execute, bind_ok (positionOf_state leads _ _)]
  rfl

/-- A conditional jump pops a value, and what follows at either place depends on it. -/
theorem comes_jumpIfZero {machine : Machine} {position target goal : Nat} {label : String}
    (found : machine.code[position]? = some (.jumpIfZero label))
    (leads : machine.labels.find? label = some target) {next : Int → MemoryM Unit}
    (continues : ∀ value rest, Comes machine
      (machine.state (if value = 0 then target else position + 1) rest) goal (next value rest))
    (memory : Memory) :
    Comes machine (machine.state position memory) goal ((Memory.pop >>= next) memory) := by
  obtain ⟨_ | ⟨value, rest⟩, registers, output⟩ := memory
  · refine ⟨_, position + 1, _, .refl, running_of_found found, ?_, .underflow⟩
    rw [step_state found, execute, bind_ok (positionOf_state leads _ _), bind_error (pop_nil rfl)]
    rfl
  · have tested : step (machine.state position ⟨value :: rest, registers, output⟩) =
        .ok () (machine.state (if value = 0 then target else position + 1)
          ⟨rest, registers, output⟩) := by
      rw [step_state found, execute, bind_ok (positionOf_state leads _ _), bind_ok (pop_cons rfl),
        jump_if]
      rfl
    exact .head (.single tested) (continues value _)

theorem mirrors_single {instr : Instr} {action : MemoryM Unit}
    (mirrors : Mirrors (execute instr) action) {machine : Machine} {position : Nat}
    (found : machine.code[position]? = some instr) (memory : Memory) :
    Comes machine (machine.state position memory) (position + 1) (action memory) := by
  have outcome := mirrors machine (position + 1) memory
  rw [← step_state found] at outcome
  cases result : action memory with
  | ok done after =>
    simp only [result] at outcome
    exact .single outcome
  | error trouble after =>
    simp only [result] at outcome
    obtain ⟨failure, failed, reported⟩ := outcome
    exact ⟨_, _, failure, .refl, running_of_found found, failed, reported⟩

namespace Performs

theorem single {instr : Instr} {action : MemoryM Unit} (plain : instr.mark? = none)
    (mirrors : Mirrors (execute instr) action) : Performs [instr] action := by
  intro machine position placed memory
  have found := ((placed_executable plain).mp placed).1
  rw [Code.extent_cons, plain]
  exact mirrors_single mirrors found memory

theorem skip : Performs [] (pure ()) := by
  intro machine position _ memory
  exact .refl

theorem append {first second : Code} {action following : MemoryM Unit}
    (ahead : Performs first action) (behind : Performs second following) :
    Performs (first ++ second) (action >>= fun _ => following) := by
  intro machine position placed memory
  obtain ⟨placedFirst, placedSecond⟩ := placed_append.mp placed
  have begun := ahead machine position placedFirst memory
  rw [bind_apply, Code.extent_append, ← Nat.add_assoc]
  cases result : action memory with
  | ok done middle =>
    rw [result] at begun
    exact .head begun (behind machine _ placedSecond middle)
  | error trouble after =>
    rw [result] at begun
    exact begun

/-- A branch: the code for zero stands behind the code for all other values. -/
theorem branch {taken other : Code} {positive negative : MemoryM Unit}
    (onFalse onTrue done : String) (whenTrue : Performs taken positive)
    (whenFalse : Performs other negative) :
    Performs ([.jumpIfZero onFalse, .label onTrue] ++ taken ++ [.jump done, .label onFalse] ++
      other ++ [.label done])
      (Memory.pop >>= fun value => if value ≠ 0 then positive else negative) := by
  intro machine position placed memory
  simp only [List.append_assoc, List.cons_append, List.nil_append] at placed
  obtain ⟨jumps, _, placed⟩ := placed
  obtain ⟨placedTrue, leaves, atFalse, placed⟩ := placed_append.mp placed
  obtain ⟨placedFalse, atEnd, _⟩ := placed_append.mp placed
  have length : position + Code.extent ([.jumpIfZero onFalse, .label onTrue] ++ taken ++
      [.jump done, .label onFalse] ++ other ++ [.label done]) =
      position + 1 + taken.extent + 1 + other.extent := by
    simp
    omega
  rw [length]
  refine comes_jumpIfZero jumps atFalse (fun value rest => ?_) memory
  by_cases zero : value = 0
  · rw [if_pos zero, if_neg (by simpa using zero)]
    exact whenFalse machine _ placedFalse rest
  · rw [if_neg zero, if_pos zero]
    have begun := whenTrue machine _ placedTrue rest
    cases result : positive rest with
    | ok ended after =>
      rw [result] at begun
      exact begun.trans (reaches_jump leaves atEnd after)
    | error trouble after =>
      rw [result] at begun
      exact begun

end Performs

end Machine

namespace Compiler
open Stateful Machine Performs Context

/-- Structured execution of a phrase. -/
@[simp] def Phrase.execute (registers : Table String Nat) : Phrase → MemoryM Unit
  | .expr single => Structured.execute registers single
  | .operands op args => Structured.executeOperands registers op args
  | .bindings members => Structured.executeBindings registers members
  | .bodies exprs => Structured.executeAll registers exprs

/-- The table knows every name that has a register in the context. -/
def Knows (registers : Table String Nat) (context : Context) : Prop :=
  ∀ name register, context.registers.find? name = some register →
    registers.find? name = some register

theorem Knows.self (context : Context) : Knows context.registers context :=
  fun _ _ found => found

theorem Knows.earlier {registers : Table String Nat} {context after : Context} {phrase : Phrase}
    {code : Code} (emitted : Emits context phrase code after) (knows : Knows registers after) :
    Knows registers context :=
  fun name register found => knows name register (emitted.kept found)

theorem Knows.of_same {registers : Table String Nat} {context after : Context}
    (knows : Knows registers after) (same : SameRegisters context after) :
    Knows registers context := by
  rw [Knows, ← same.1]
  exact knows

theorem performs_fetch {registers : Table String Nat} {name : String} {register : Nat}
    (found : registers.find? name = some register) (fits : Numeral.Fits register) :
    Performs [.load register] (Structured.fetch registers name) := by
  rw [Structured.fetch, found]
  exact .single rfl ((Mirrors.load fits).bind Mirrors.push)

theorem performs_keep {registers : Table String Nat} {name : String} {register : Nat}
    (found : registers.find? name = some register) :
    Performs [.store register] (Structured.keep registers name) := by
  rw [Structured.keep, found]
  exact .single rfl (Mirrors.pop.bind (Mirrors.store register))

/-- Emitted code performs its phrase. -/
theorem Emits.performs {context after : Context} {phrase : Phrase} {code : Code}
    (emitted : Emits context phrase code after) {registers : Table String Nat}
    (knows : Knows registers after)
    (fits : ∀ instr ∈ code, ∀ n ∈ instr.integers, Numeral.Fits n) :
    Performs code (phrase.execute registers) := by
  induction emitted with
  | @int _ value =>
    rw [Phrase.execute, Structured.execute]
    exact .single rfl (.push value)
  | @bool _ value =>
    rw [Phrase.execute, Structured.execute]
    exact .single rfl (.push _)
  | var assigned =>
    rw [Phrase.execute, Structured.execute]
    exact performs_fetch (knows _ _ assigned) (by simpa [Instr.integers] using fits)
  | println operator _ ih =>
    rw [Phrase.execute, Structured.execute.eq_5 _ _ _ operator]
    simp only [List.mem_append, or_imp, forall_and] at fits
    exact (ih knows fits.1).append (.single rfl (Mirrors.pop.bind Mirrors.printLine))
  | arith operator _ further ih ihs =>
    rw [Phrase.execute, Structured.execute.eq_6 _ _ _ _ _ _ operator]
    simp only [List.mem_append, or_imp, forall_and] at fits
    exact (ih (knows.earlier further) fits.1).append (ihs knows fits.2)
  | letIn operator _ inside ih ihs =>
    rw [Phrase.execute, Structured.execute.eq_7 _ _ _ _ operator]
    simp only [List.mem_append, or_imp, forall_and] at fits
    exact (ih (knows.earlier inside) fits.1).append (ihs knows fits.2)
  | ifElse operator test first second third whenTrue whenFalse ihTest ihTrue ihFalse =>
    rename_i onFalse onTrue done
    rw [Phrase.execute, Structured.execute.eq_8 _ _ _ _ _ operator]
    simp only [List.mem_append, or_imp, forall_and] at fits
    have knowsTrue := knows.earlier whenFalse
    have knowsTest := (knowsTrue.earlier whenTrue).of_same (registers_drawn first second third)
    have tested := ihTest knowsTest fits.1.1.1.1.1
    have branches := branch onFalse onTrue done (ihTrue knowsTrue fits.1.1.1.2)
      (ihFalse knows fits.1.2)
    simpa only [List.append_assoc, Phrase.execute] using tested.append branches
  | group operator =>
    rw [Phrase.execute, Structured.execute.eq_9 _ _ _ operator]
    exact .skip
  | noOperands => exact .skip
  | operand _ further ih ihs =>
    rw [Phrase.execute, Structured.executeOperands, List.append_assoc]
    simp only [List.mem_append, or_imp, forall_and] at fits
    have argument := ih (knows.earlier further) fits.1.1
    exact argument.append (.append (.single rfl (.combine _)) (ihs knows fits.2))
  | noBindings => exact .skip
  | binding _ stored further ih ihs =>
    rw [Phrase.execute, Structured.executeBindings, List.append_assoc]
    simp only [List.mem_append, or_imp, forall_and] at fits
    have knowsStored := knows.earlier further
    have value := ih (fun name register found =>
      knowsStored name register (assign_kept stored found)) fits.1.1
    have kept := performs_keep (knowsStored _ _ (assign_found stored))
    exact value.append (kept.append (ihs knows fits.2))
  | noBodies => exact .skip
  | body _ further ih ihs =>
    rw [Phrase.execute, Structured.executeAll]
    simp only [List.mem_append, or_imp, forall_and] at fits
    exact (ih (knows.earlier further) fits.1).append (ihs knows fits.2)

theorem state_install (code : Code) : (install {} code).state 0 {} = install {} code := by
  obtain ⟨stack, registers, pc, output⟩ := install_memory {} code
  have empty : (install {} code).memory = {} := by
    simp only [memory, stack, registers, output]
  calc (install {} code).state 0 {}
      = (install {} code).state (install {} code).pc (install {} code).memory := by
        rw [empty, pc]
    _ = install {} code := rfl

/-- A run of a machine has come to what structured execution has come to. -/
def Agrees : EStateM.Result Trouble Memory Unit → EStateM.Result Failure Machine RunEnd → Prop
  | .ok () memory, .ok ending machine => ending = .halted ∧ machine.memory = memory
  | .error trouble memory, .error failure machine =>
    machine.memory = memory ∧ Reports (machine.pc - 1) trouble failure
  | _, _ => False

theorem Agrees.memory {result : EStateM.Result Trouble Memory Unit}
    {ended : EStateM.Result Failure Machine RunEnd} (agrees : Agrees result ended) :
    (final ended).memory = final result := by
  cases result with
  | ok done memory =>
    cases ended with
    | ok ending machine => exact agrees.2
    | error failure machine => exact agrees.elim
  | error trouble memory =>
    cases ended with
    | ok ending machine => exact agrees.elim
    | error failure machine => exact agrees.1

/-- Code emitted from an empty context, loaded and run from its text, performs its phrase. -/
theorem Emits.agrees {phrase : Phrase} {code : Code} {after : Context} {text : String}
    (emitted : Emits {} phrase code after) (encoded : encode code = .ok text) {steps : Nat}
    (enough : code.extent ≤ steps) :
    Agrees (phrase.execute after.registers {}) (loadAndRun steps text {}) := by
  have sound := emitted.sound encoded
  have loaded := loadListing_encode emitted.readable encoded {}
  have size : (install {} code).code.size = code.extent := by
    simp [install_code, Code.extent]
  have comes := emitted.performs (.self after)
    (Code.encode_eq_ok_iff.mp encoded).1 (install {} code) 0
    (install_placed emitted.draws.distinct {}) {}
  rw [state_install, Nat.zero_add] at comes
  have steps_enough : (install {} code).code.size ≤ (install {} code).pc + steps := by omega
  rw [loadAndRun, bind_ok loaded]
  cases result : phrase.execute after.registers {} with
  | ok done memory =>
    rw [result] at comes
    have stopped : ((install {} code).state code.extent memory).running = false :=
      decide_eq_false (by simp [state, size])
    rw [sound.run_halted comes stopped steps_enough]
    exact ⟨rfl, rfl⟩
  | error trouble memory =>
    rw [result] at comes
    obtain ⟨last, pc, failure, reaches, running, failed, reported⟩ := comes
    rw [sound.run_failed reaches running failed steps_enough]
    exact ⟨rfl, reported⟩

/-- The text of a compiled program, loaded into a fresh machine and run, does what structured
execution of the program does, failures included: it leaves the same stack, registers and output. -/
theorem compiled_runs_as_structured {program : Program} {code : Code} {after : Context}
    (compiled : compileProgram program {} = .ok code after)
    (literals : ∀ n ∈ Expr.allIntegers program.exprs, Numeral.Fits n)
    (few : (Expr.allBoundNames program.exprs).dedup.length < Numeral.ceiling) :
    ∃ text, encode code = .ok text ∧ ∀ steps, code.extent ≤ steps →
      Agrees (Structured.executeAll after.registers program.exprs {})
        (loadAndRun steps text {}) := by
  have emitted := compileProgram_emits compiled
  obtain ⟨text, encoded⟩ := emitted.encodes literals few
  exact ⟨text, encoded, fun steps enough => emitted.agrees encoded enough⟩

/-- The first operand of the subtraction was left on the stack by an earlier body. -/
theorem compiled_runs_as_structured_leftover :
    let choice : Expr := .form "if" [.var "x", .form "let" [.form "" []], .int 1]
    let doubled : Expr := .form "*" [.form "-" [choice, .int 10], .int 2]
    let program : Program :=
      [⟨1, ⟨"let", [.form "" [.binding "x" (.int 3)], .var "x", .form "println" [doubled]]⟩⟩]
    ∃ code after, compileProgram program {} = .ok code after ∧
      ∃ text, encode code = .ok text ∧ ∀ steps, code.extent ≤ steps →
        Agrees (Structured.executeAll after.registers program.exprs {})
          (loadAndRun steps text {}) ∧
        (final (loadAndRun steps text {})).output = "-14\n" := by
  intro choice doubled program
  have compiled : compileProgram program {} =
      .ok [.push 3, .store 0, .load 0, .load 0, .jumpIfZero "fls0", .label "tru0", .jump "done0",
        .label "fls0", .push 1, .label "done0", .push 10, .arith .sub, .push 2, .arith .mul, .print]
        ⟨⟨[("x", 0)]⟩, 1, ⟨[("fls", 1), ("tru", 1), ("done", 1)]⟩⟩ := by
    decide +kernel
  have printed : (final (Structured.executeAll ⟨[("x", 0)]⟩ program.exprs {})).output =
      "-14\n" := by
    decide +kernel
  obtain ⟨text, encoded, agrees⟩ :=
    compiled_runs_as_structured compiled (by decide +kernel) (by decide +kernel)
  refine ⟨_, _, compiled, text, encoded, fun steps enough => ⟨agrees steps enough, ?_⟩⟩
  rw [← printed, ← (agrees steps enough).memory]
  rfl

end Compiler
end StackScheme
