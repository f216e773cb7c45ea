import StackScheme.Proofs.Machine.Running

/-! Steps that fail. An instruction looks at its label before it looks at the stack, and at the stack
before it writes anything, so a step that fails has moved the counter on and has taken at most one
value from the stack. -/
namespace StackScheme.Machine
open Stateful

abbrev advanced (machine : Machine) : Machine :=
  { machine with pc := machine.pc + 1 }

/-- The instruction at the counter cannot be executed. An underflow is put where the instruction
stands. -/
inductive Blocked (machine : Machine) : Instr → Failure → Prop
  | print (empty : machine.stack = []) :
      Blocked machine .print (.ofFault (.machine (.stackUnderflow machine.pc)))
  | store {register} (empty : machine.stack = []) :
      Blocked machine (.store register) (.ofFault (.machine (.stackUnderflow machine.pc)))
  | jumpIfZero {label position} (defined : machine.labels.find? label = some position)
      (empty : machine.stack = []) :
      Blocked machine (.jumpIfZero label) (.ofFault (.machine (.stackUnderflow machine.pc)))
  | jumpIfNonzero {label position} (defined : machine.labels.find? label = some position)
      (empty : machine.stack = []) :
      Blocked machine (.jumpIfNonzero label) (.ofFault (.machine (.stackUnderflow machine.pc)))
  | arith {op} (short : machine.stack.length < 2) :
      Blocked machine (.arith op) (.ofFault (.machine (.stackUnderflow machine.pc)))
  /-- Whatever the stack holds. -/
  | undefined {instr label} (target : instr.target? = some label)
      (missing : machine.labels.find? label = none) :
      Blocked machine instr (.ofFault (.machine (.undefinedLabel label)))
  | unset {register} (absent : machine.registers.find? register = none)
      (writable : Numeral.Fits register) :
      Blocked machine (.load register) (.ofFault (.machine (.unsetRegister register)))
  /-- The number of the register is too long to be shown. -/
  | unsetLong {register} (absent : machine.registers.find? register = none)
      (tooLong : ¬Numeral.Fits register) :
      Blocked machine (.load register) (.numeral .tooLongToWrite)
  | label {name} : Blocked machine (.label name) (.ofFault (.machine (.notExecutable name)))
  | unprintable {value rest} (top : machine.stack = value :: rest)
      (tooLong : ¬Numeral.Fits value) : Blocked machine .print (.numeral .tooLongToWrite)

/-- The top of the stack is gone by the time the instruction fails. -/
inductive Spends (machine : Machine) : Instr → Prop
  | arith {op value} (single : machine.stack = [value]) : Spends machine (.arith op)
  | print {value rest} (top : machine.stack = value :: rest) (tooLong : ¬Numeral.Fits value) :
      Spends machine .print

structure Spared (machine : Machine) (instr : Instr) (after : Machine) : Prop where
  code : after.code = machine.code
  labels : after.labels = machine.labels
  registers : after.registers = machine.registers
  output : after.output = machine.output
  counter : after.pc = machine.pc + 1
  spent : Spends machine instr → ∃ top, machine.stack = top :: after.stack
  kept : ¬Spends machine instr → after.stack = machine.stack

variable {machine after : Machine} {instr : Instr} {failure : Failure}

theorem Spared.untouched (frugal : ¬Spends machine instr) :
    Spared machine instr machine.advanced :=
  ⟨rfl, rfl, rfl, rfl, rfl, fun spends => absurd spends frugal, fun _ => rfl⟩

theorem Spared.popped {top : Int} {rest : List Int} (spends : Spends machine instr)
    (stack : machine.stack = top :: rest) :
    Spared machine instr { machine.advanced with stack := rest } :=
  ⟨rfl, rfl, rfl, rfl, rfl, fun _ => ⟨top, stack⟩, fun frugal => absurd spends frugal⟩

section Advanced

theorem pop_empty (empty : machine.stack = []) : pop machine.advanced =
    .error (.ofFault (.machine (.stackUnderflow machine.pc))) machine.advanced := by
  have none : machine.advanced.stack = [] := empty
  have counter : ((machine.pc + 1 : Nat) : Int) - 1 = machine.pc := by omega
  rw [pop_nil none, counter]

theorem pop_top {value : Int} {rest : List Int} (top : machine.stack = value :: rest) :
    pop machine.advanced = .ok value { machine.advanced with stack := rest } :=
  pop_cons (show machine.advanced.stack = _ from top)

theorem position_defined {label : String} {position : Nat}
    (defined : machine.labels.find? label = some position) :
    positionOf label machine.advanced = .ok position machine.advanced :=
  positionOf_ok (show machine.advanced.labels.find? label = _ from defined)

theorem position_missing {label : String} (missing : machine.labels.find? label = none) :
    positionOf label machine.advanced =
      .error (.ofFault (.machine (.undefinedLabel label))) machine.advanced :=
  positionOf_error (show machine.advanced.labels.find? label = _ from missing)

theorem jump_decided (condition : Int → Prop) [DecidablePred condition] {label : String}
    {position : Nat} {value : Int} {rest : List Int}
    (defined : machine.labels.find? label = some position) (top : machine.stack = value :: rest) :
    ∃ after, (positionOf label >>= fun position => pop >>= fun value =>
      if condition value then jumpTo position else pure ()) machine.advanced = .ok () after := by
  rw [bind_ok (position_defined defined), bind_ok (pop_top top), jump_if]
  exact ⟨_, rfl⟩

end Advanced

theorem Blocked.fails (blocked : Blocked machine instr failure) :
    ∃ after, execute instr machine.advanced = .error failure after ∧
      Spared machine instr after := by
  cases blocked with
  | print empty =>
    refine ⟨_, bind_error (pop_empty empty), .untouched fun spends => ?_⟩
    cases spends with
    | print top _ => simp [empty] at top
  | store empty =>
    exact ⟨_, bind_error (pop_empty empty), .untouched (by rintro ⟨⟩)⟩
  | jumpIfZero defined empty | jumpIfNonzero defined empty =>
    refine ⟨_, ?_, .untouched (by rintro ⟨⟩)⟩
    exact (bind_ok (position_defined defined)).trans (bind_error (pop_empty empty))
  | arith short =>
    rcases stack : machine.stack with _ | ⟨last, _ | ⟨first, rest⟩⟩
    · refine ⟨_, bind_error (pop_empty stack), .untouched fun spends => ?_⟩
      cases spends with
      | arith single => simp [stack] at single
    · have rest : ({ machine with stack := [] } : Machine).stack = [] := rfl
      refine ⟨_, ?_, .popped (.arith stack) stack⟩
      exact (bind_ok (pop_top stack)).trans (bind_error (pop_empty rest))
    · rw [stack, List.length_cons, List.length_cons] at short
      omega
  | undefined target missing =>
    refine ⟨machine.advanced, ?_, .untouched fun spends => ?_⟩
    · cases instr <;> cases target <;> exact bind_error (position_missing missing)
    · cases spends <;> contradiction
  | unset absent writable =>
    refine ⟨machine.advanced, bind_error ?_, .untouched (by rintro ⟨⟩)⟩
    simp only [load, absent, Numeral.write, writable, if_true]
  | unsetLong absent tooLong =>
    refine ⟨machine.advanced, bind_error ?_, .untouched (by rintro ⟨⟩)⟩
    simp only [load, absent, Numeral.write, tooLong, if_false]
  | label => exact ⟨_, rfl, .untouched (by rintro ⟨⟩)⟩
  | unprintable top tooLong =>
    refine ⟨_, (bind_ok (pop_top top)).trans ?_, .popped (.print top tooLong) top⟩
    simp only [printLine, Numeral.write, tooLong, if_false]

theorem blocked_or_executed (machine : Machine) (instr : Instr) :
    (∃ failure, Blocked machine instr failure) ∨
      ∃ after, execute instr machine.advanced = .ok () after := by
  cases instr with
  | push value => exact .inr ⟨_, rfl⟩
  | label name => exact .inl ⟨_, .label⟩
  | print =>
    cases stack : machine.stack with
    | nil => exact .inl ⟨_, .print stack⟩
    | cons value rest =>
      by_cases writable : Numeral.Fits value
      · have printed : printLine value { machine.advanced with stack := rest } =
            .ok () { machine.advanced with
              stack := rest, output := machine.output ++ toString value ++ "\n" } := by
          simp only [printLine, Numeral.write, writable, if_true]
        exact .inr ⟨_, (bind_ok (pop_top stack)).trans printed⟩
      · exact .inl ⟨_, .unprintable stack writable⟩
  | arith op =>
    rcases stack : machine.stack with _ | ⟨last, _ | ⟨first, rest⟩⟩
    · exact .inl ⟨_, .arith (by simp [stack])⟩
    · exact .inl ⟨_, .arith (by simp [stack])⟩
    · exact .inr ⟨_, (bind_ok (pop_top stack)).trans (bind_ok (pop_cons rfl))⟩
  | store register =>
    cases stack : machine.stack with
    | nil => exact .inl ⟨_, .store stack⟩
    | cons value rest => exact .inr ⟨_, bind_ok (pop_top stack)⟩
  | load register =>
    cases found : machine.registers.find? register with
    | some value =>
      have loaded : load register machine.advanced = .ok value machine.advanced := by
        simp only [load, found]
      exact .inr ⟨_, bind_ok loaded⟩
    | none =>
      by_cases writable : Numeral.Fits register
      · exact .inl ⟨_, .unset found writable⟩
      · exact .inl ⟨_, .unsetLong found writable⟩
  | jump label =>
    cases defined : machine.labels.find? label with
    | none => exact .inl ⟨_, .undefined rfl defined⟩
    | some position => exact .inr ⟨_, bind_ok (position_defined defined)⟩
  | jumpIfZero label =>
    cases defined : machine.labels.find? label with
    | none => exact .inl ⟨_, .undefined rfl defined⟩
    | some position =>
      cases stack : machine.stack with
      | nil => exact .inl ⟨_, .jumpIfZero defined stack⟩
      | cons value rest => exact .inr (jump_decided _ defined stack)
  | jumpIfNonzero label =>
    cases defined : machine.labels.find? label with
    | none => exact .inl ⟨_, .undefined rfl defined⟩
    | some position =>
      cases stack : machine.stack with
      | nil => exact .inl ⟨_, .jumpIfNonzero defined stack⟩
      | cons value rest => exact .inr (jump_decided _ defined stack)

/-- A step fails exactly if its instruction is blocked, and with the failure that belongs to that.
The counter has then moved on by one, at most the top of the stack is gone, and the program, the
registers and the output are as they were. -/
theorem step_fails_iff_blocked (found : machine.code[machine.pc]? = some instr) :
    (∀ failure, (∃ after, step machine = .error failure after) ↔ Blocked machine instr failure) ∧
    ∀ failure after, step machine = .error failure after → Spared machine instr after := by
  have outcome (failure : Failure) (after : Machine)
      (failed : step machine = .error failure after) :
      Blocked machine instr failure ∧ Spared machine instr after := by
    rw [step_at found] at failed
    rcases blocked_or_executed machine instr with ⟨foreseen, blocked⟩ | ⟨last, done⟩
    · obtain ⟨last, ended, spared⟩ := blocked.fails
      rw [ended] at failed
      obtain ⟨rfl, rfl⟩ := EStateM.Result.error.inj failed
      exact ⟨blocked, spared⟩
    · rw [done] at failed
      contradiction
  refine ⟨fun failure => ⟨?_, fun blocked => ?_⟩, fun failure after failed =>
    (outcome failure after failed).2⟩
  · rintro ⟨after, failed⟩
    exact (outcome failure after failed).1
  · obtain ⟨after, ended, _⟩ := blocked.fails
    exact ⟨after, (step_at found).trans ended⟩

/-- A subtraction in the middle of the code, of a single value. -/
theorem step_fails_single :
    let machine : Machine :=
      { code := #[.push 7, .arith .sub, .print], labels := ⟨[("end", 3)]⟩, stack := [7],
        registers := ⟨[(0, 5)]⟩, pc := 1, output := "2\n" }
    let underflow : Failure := .ofFault (.machine (.stackUnderflow 1))
    machine.code[machine.pc]? = some (.arith .sub) ∧
      ((∃ after, step machine = .error underflow after) ↔
        Blocked machine (.arith .sub) underflow) ∧
      Blocked machine (.arith .sub) underflow ∧
      ∃ after, step machine = .error underflow after ∧ Spared machine (.arith .sub) after ∧
        after.stack = [] := by
  intro machine underflow
  have found : machine.code[machine.pc]? = some (.arith .sub) := rfl
  have blocked : Blocked machine (.arith .sub) underflow := .arith (by decide)
  have ended : step machine = .error underflow { machine.advanced with stack := [] } := rfl
  obtain ⟨fails, spares⟩ := step_fails_iff_blocked found
  exact ⟨found, fails underflow, blocked, _, ended, spares _ _ ended, rfl⟩

end StackScheme.Machine
