import StackScheme.Proofs.Machine.Loading
import Mathlib.Logic.Relation

/-! Runs of a program whose jumps all go forward. Every step moves the counter on, so a run needs no
more steps than there are instructions, and it can fail in three ways only. -/
namespace StackScheme.Machine
open Stateful

/-- Every jump of the loaded code has its label, and that leads further on. -/
def Forward (machine : Machine) : Prop :=
  ∀ (index : Nat) instr label, machine.code[index]? = some instr → instr.target? = some label →
    ∃ position, machine.labels.find? label = some position ∧ index < position

/-- The second machine holds the same program as the first. -/
structure SameProgram (machine other : Machine) : Prop where
  code : other.code = machine.code
  labels : other.labels = machine.labels

theorem SameProgram.refl (machine : Machine) : SameProgram machine machine :=
  ⟨rfl, rfl⟩

/-- What can go wrong with an instruction of a sound program, once the counter has moved on. -/
inductive Hazard (machine : Machine) : Instr → Failure → Prop
  | underflow {instr} (short : machine.stack.length < 2) :
      Hazard machine instr (.ofFault (.machine (.stackUnderflow (machine.pc - 1))))
  | unset {register} (absent : machine.registers.find? register = none) :
      Hazard machine (.load register) (.ofFault (.machine (.unsetRegister register)))
  | unprintable {value rest} (top : machine.stack = value :: rest)
      (tooLong : ¬ Numeral.Fits value) : Hazard machine .print (.numeral .tooLongToWrite)

/-- The counter stays where it is or goes to the place of the label. -/
def Moves (instr : Instr) (machine after : Machine) : Prop :=
  after.pc = machine.pc ∨
    ∃ label, instr.target? = some label ∧ machine.labels.find? label = some after.pc

theorem pop_nil {machine : Machine} (empty : machine.stack = []) :
    pop machine = .error (.ofFault (.machine (.stackUnderflow (machine.pc - 1)))) machine := by
  simp only [pop, empty]

theorem pop_cons {machine : Machine} {value : Int} {rest : List Int}
    (stack : machine.stack = value :: rest) :
    pop machine = .ok value { machine with stack := rest } := by
  simp only [pop, stack]

theorem positionOf_ok {machine : Machine} {label : String} {position : Nat}
    (found : machine.labels.find? label = some position) :
    positionOf label machine = .ok position machine := by
  simp only [positionOf, found]

theorem positionOf_error {machine : Machine} {label : String}
    (missing : machine.labels.find? label = none) : positionOf label machine =
      .error (.ofFault (.machine (.undefinedLabel label))) machine := by
  simp only [positionOf, missing]

theorem jump_if (condition : Prop) [Decidable condition] (position : Nat) (machine : Machine) :
    (if condition then jumpTo position else pure ()) machine =
      .ok () { machine with pc := if condition then position else machine.pc } := by
  split <;> rfl

/-- What an executable instruction does whose label, if it has one, is defined. -/
theorem execute_outcome {instr : Instr} {machine : Machine} (plain : instr.mark? = none)
    (defined : ∀ label, instr.target? = some label →
      ∃ position, machine.labels.find? label = some position)
    (fits : ∀ n ∈ instr.integers, Numeral.Fits n) :
    match execute instr machine with
    | .ok () after => SameProgram machine after ∧ Moves instr machine after
    | .error failure after =>
      SameProgram machine after ∧ after.pc = machine.pc ∧ Hazard machine instr failure := by
  cases instr with
  | label name => contradiction
  | push value => exact ⟨⟨rfl, rfl⟩, Or.inl rfl⟩
  | print =>
    rw [execute]
    cases stack : machine.stack with
    | nil =>
      rw [bind_error (pop_nil stack)]
      exact ⟨.refl _, rfl, .underflow (by simp [stack])⟩
    | cons value rest =>
      rw [bind_ok (pop_cons stack)]
      by_cases fits : Numeral.Fits value
      · simp only [printLine, Numeral.write, fits, if_true]
        exact ⟨⟨rfl, rfl⟩, Or.inl rfl⟩
      · simp only [printLine, Numeral.write, fits, if_false]
        exact ⟨⟨rfl, rfl⟩, trivial, .unprintable stack fits⟩
  | arith op =>
    rw [execute]
    match stack : machine.stack with
    | [] =>
      rw [bind_error (pop_nil stack)]
      exact ⟨.refl _, rfl, .underflow (by simp [stack])⟩
    | [last] =>
      rw [bind_ok (pop_cons stack), bind_error (pop_nil rfl)]
      exact ⟨⟨rfl, rfl⟩, rfl, .underflow (by simp [stack])⟩
    | last :: first :: rest =>
      rw [bind_ok (pop_cons stack), bind_ok (pop_cons rfl)]
      exact ⟨⟨rfl, rfl⟩, Or.inl rfl⟩
  | store register =>
    rw [execute]
    cases stack : machine.stack with
    | nil =>
      rw [bind_error (pop_nil stack)]
      exact ⟨.refl _, rfl, .underflow (by simp [stack])⟩
    | cons value rest =>
      rw [bind_ok (pop_cons stack)]
      exact ⟨⟨rfl, rfl⟩, Or.inl rfl⟩
  | load register =>
    have writable : Numeral.Fits register := fits register (by simp [Instr.integers])
    rw [execute, bind_apply]
    cases found : machine.registers.find? register with
    | none =>
      simp only [load, found, Numeral.write, writable, if_true]
      exact ⟨.refl _, trivial, .unset found⟩
    | some value =>
      simp only [load, found]
      exact ⟨⟨rfl, rfl⟩, Or.inl rfl⟩
  | jump name =>
    obtain ⟨position, found⟩ := defined name rfl
    rw [execute, bind_ok (positionOf_ok found)]
    exact ⟨⟨rfl, rfl⟩, Or.inr ⟨name, rfl, found⟩⟩
  | jumpIfZero name | jumpIfNonzero name =>
    obtain ⟨position, found⟩ := defined name rfl
    rw [execute, bind_ok (positionOf_ok found)]
    cases stack : machine.stack with
    | nil =>
      rw [bind_error (pop_nil stack)]
      exact ⟨.refl _, rfl, .underflow (by simp [stack])⟩
    | cons value rest =>
      rw [bind_ok (pop_cons stack), jump_if]
      refine ⟨⟨rfl, rfl⟩, ?_⟩
      rw [Moves]
      split
      · exact Or.inr ⟨name, rfl, found⟩
      · exact Or.inl rfl

/-- A program that runs to its end or into a hazard: its jumps go forward, no label stands among its
instructions, and its numbers may be written. -/
structure Sound (machine : Machine) : Prop where
  forward : machine.Forward
  plain : ∀ instr ∈ machine.code, instr.mark? = none
  fits : ∀ instr ∈ machine.code, ∀ n ∈ instr.integers, Numeral.Fits n

theorem Sound.same {machine other : Machine} (sound : machine.Sound)
    (same : SameProgram machine other) : other.Sound := by
  obtain ⟨code, labels⟩ := same
  refine ⟨?_, code ▸ sound.plain, code ▸ sound.fits⟩
  rw [Forward, code, labels]
  exact sound.forward

theorem step_at {machine : Machine} {instr : Instr}
    (found : machine.code[machine.pc]? = some instr) :
    step machine = execute instr { machine with pc := machine.pc + 1 } := by
  simp only [step, found]

/-- A step from before the end moves the counter on, and fails only at a hazard. -/
theorem Sound.step_outcome {machine : Machine} (sound : machine.Sound)
    (running : machine.pc < machine.code.size) :
    match step machine with
    | .ok () after => SameProgram machine after ∧ machine.pc < after.pc
    | .error failure after => SameProgram machine after ∧ after.pc = machine.pc + 1 ∧
      ∃ instr, machine.code[machine.pc]? = some instr ∧
        Hazard { machine with pc := machine.pc + 1 } instr failure := by
  obtain ⟨instr, found⟩ : ∃ instr, machine.code[machine.pc]? = some instr :=
    ⟨_, Array.getElem?_eq_getElem running⟩
  have member : instr ∈ machine.code := Array.mem_of_getElem? found
  have outcome := @execute_outcome instr { machine with pc := machine.pc + 1 }
    (sound.plain instr member)
    (fun label target => (sound.forward _ instr label found target).imp fun _ => And.left)
    (sound.fits instr member)
  rw [step_at found]
  split
  · rename_i after done
    simp only [done] at outcome
    obtain ⟨same, moved⟩ := outcome
    refine ⟨⟨same.code, same.labels⟩, ?_⟩
    rcases moved with next | ⟨label, target, found'⟩
    · simp [next]
    · obtain ⟨position, placed, further⟩ := sound.forward _ instr label found target
      simp only [placed, Option.some.injEq] at found'
      omega
  · rename_i failure after failed
    simp only [failed] at outcome
    obtain ⟨same, stayed, hazard⟩ := outcome
    exact ⟨⟨same.code, same.labels⟩, stayed, instr, found, hazard⟩

/-- Steps that succeed lead from the first machine to the second. -/
abbrev Reaches : Machine → Machine → Prop :=
  Relation.ReflTransGen fun machine next => step machine = .ok () next

theorem Reaches.single {machine next : Machine} (done : step machine = .ok () next) :
    Reaches machine next :=
  Relation.ReflTransGen.single done

theorem running_of_found {machine : Machine} {instr : Instr}
    (found : machine.code[machine.pc]? = some instr) : machine.running = true :=
  decide_eq_true (Array.getElem?_eq_some_iff.mp found).1

theorem running_of_step {machine next : Machine} (done : step machine = .ok () next) :
    machine.running = true := by
  cases found : machine.code[machine.pc]? with
  | none => simp [step, found] at done
  | some instr => exact running_of_found found

/-- A run that has as many steps left as there are instructions ahead keeps them ahead. -/
theorem Sound.run_reaches {machine last : Machine} (sound : machine.Sound)
    (reaches : Reaches machine last) {steps : Nat}
    (enough : machine.code.size ≤ machine.pc + steps) :
    ∃ left, last.code.size ≤ last.pc + left ∧ run steps machine = run left last := by
  induction reaches using Relation.ReflTransGen.head_induction_on generalizing steps with
  | refl => exact ⟨steps, enough, rfl⟩
  | @head machine next done _ ih =>
    have running := running_of_step done
    have inside : machine.pc < machine.code.size := of_decide_eq_true running
    have outcome := sound.step_outcome inside
    simp only [done] at outcome
    obtain ⟨same, further⟩ := outcome
    cases steps with
    | zero => omega
    | succ fewer =>
      rw [same.code] at ih
      have sufficient : machine.code.size ≤ next.pc + fewer := by omega
      obtain ⟨left, ahead, equal⟩ := ih (sound.same same) sufficient
      refine ⟨left, ahead, ?_⟩
      rw [← equal, run]
      simp only [running, if_true, done]

theorem run_stopped {machine : Machine} (stopped : machine.running = false) (steps : Nat) :
    run steps machine = .ok .halted machine := by
  cases steps with
  | zero => simp [run, stopped]
  | succ fewer => simp [run, stopped]

/-- What the steps of a machine come to is what a long enough run of it comes to. -/
theorem Sound.run_halted {machine last : Machine} (sound : machine.Sound)
    (reaches : Reaches machine last) (stopped : last.running = false) {steps : Nat}
    (enough : machine.code.size ≤ machine.pc + steps) :
    run steps machine = .ok .halted last := by
  obtain ⟨left, _, equal⟩ := sound.run_reaches reaches enough
  rw [equal, run_stopped stopped]

theorem Sound.run_failed {machine last final : Machine} {failure : Failure} (sound : machine.Sound)
    (reaches : Reaches machine last) (running : last.running = true)
    (failed : step last = .error failure final) {steps : Nat}
    (enough : machine.code.size ≤ machine.pc + steps) :
    run steps machine = .error failure final := by
  obtain ⟨left, ahead, equal⟩ := sound.run_reaches reaches enough
  have inside : last.pc < last.code.size := of_decide_eq_true running
  rw [equal]
  cases left with
  | zero => omega
  | succ fewer => simp only [run, running, if_true, failed]

/-- A run with as many steps as there are instructions ahead ends, at a hazard if not at the end. -/
theorem Sound.run_outcome {machine : Machine} (sound : machine.Sound) {steps : Nat}
    (enough : machine.code.size ≤ machine.pc + steps) :
    match run steps machine with
    | .ok ending after => ending = .halted ∧ Reaches machine after ∧ after.running = false
    | .error failure _ => ∃ last instr, Reaches machine last ∧
      machine.code[last.pc]? = some instr ∧
      Hazard { last with pc := last.pc + 1 } instr failure := by
  induction steps generalizing machine with
  | zero =>
    have stopped : machine.running = false := decide_eq_false (by omega)
    rw [run_stopped stopped]
    exact ⟨rfl, .refl, stopped⟩
  | succ fewer ih =>
    cases running : machine.running with
    | false =>
      rw [run_stopped running]
      exact ⟨rfl, .refl, running⟩
    | true =>
      have outcome := sound.step_outcome (of_decide_eq_true running)
      cases stepped : step machine with
      | error failure after =>
        simp only [stepped] at outcome
        obtain ⟨_, _, instr, found, hazard⟩ := outcome
        simp only [run, running, if_true, stepped]
        exact ⟨machine, instr, .refl, found, hazard⟩
      | ok done next =>
        simp only [stepped] at outcome
        obtain ⟨same, further⟩ := outcome
        have following := ih (sound.same same) (by rw [same.code]; omega)
        simp only [run, running, if_true, stepped]
        cases ran : run fewer next with
        | ok ending after =>
          simp only [ran] at following ⊢
          obtain ⟨ended, reaches, stopped⟩ := following
          exact ⟨ended, .head stepped reaches, stopped⟩
        | error failure after =>
          simp only [ran] at following ⊢
          obtain ⟨last, instr, reaches, found, hazard⟩ := following
          rw [same.code] at found
          exact ⟨last, instr, .head stepped reaches, found, hazard⟩

/-- A label of placed code leads into the code or behind it. -/
theorem placed_label {machine : Machine} {position : Nat} {code : Code} {name : String}
    (placed : Placed machine position code) (member : .label name ∈ code) :
    ∃ target, machine.labels.find? name = some target ∧ position ≤ target := by
  induction code generalizing position with
  | nil => contradiction
  | cons instr rest ih =>
    cases marked : instr.mark? with
    | none =>
      have inside : .label name ∈ rest := by
        rcases List.mem_cons.mp member with rfl | inside
        · contradiction
        · exact inside
      obtain ⟨target, found, behind⟩ := ih ((placed_executable marked).mp placed).2 inside
      exact ⟨target, found, by omega⟩
    | some other =>
      obtain rfl : instr = .label other := by
        cases instr <;> simp_all
      rcases List.mem_cons.mp member with same | inside
      · cases same
        exact ⟨position, placed.1, le_rfl⟩
      · exact ih placed.2 inside

theorem placed_forward {machine : Machine} {position : Nat} {code : Code}
    (placed : Placed machine position code) (forward : code.ForwardJumps) {offset : Nat}
    {instr : Instr} {label : String} (found : code.executable[offset]? = some instr)
    (target : instr.target? = some label) :
    ∃ place, machine.labels.find? label = some place ∧ position + offset < place := by
  induction code generalizing position offset with
  | nil => simp [Code.executable] at found
  | cons first rest ih =>
    cases marked : first.mark? with
    | some other =>
      obtain rfl : first = .label other := by
        cases first <;> simp_all
      exact ih placed.2 forward.2 (by simpa [Code.executable] using found)
    | none =>
      obtain ⟨_, following⟩ := (placed_executable marked).mp placed
      rw [Code.executable_cons marked] at found
      cases offset with
      | zero =>
        obtain rfl : first = instr := by simpa using found
        obtain ⟨place, defined, behind⟩ := placed_label following (forward.1 label target)
        exact ⟨place, defined, by omega⟩
      | succ further =>
        rw [List.getElem?_cons_succ] at found
        obtain ⟨place, defined, behind⟩ := ih following forward.2 found
        exact ⟨place, defined, by omega⟩

/-- Code with different labels and forward jumps is sound in a machine that held nothing. -/
theorem install_sound {code : Code} (distinct : code.marks.Nodup) (forward : code.ForwardJumps)
    (fits : ∀ instr ∈ code, ∀ n ∈ instr.integers, Numeral.Fits n) :
    (install {} code).Sound := by
  have shape : (install {} code).code = code.executable.toArray := by
    rw [install_code]
    simp
  have placed := install_placed distinct {}
  constructor
  · intro index instr label found target
    rw [shape, List.getElem?_toArray] at found
    simpa using placed_forward placed forward found target
  · intro instr member
    rw [shape, List.mem_toArray] at member
    simpa using (List.mem_filter.mp member).2
  · intro instr member
    rw [shape, List.mem_toArray] at member
    exact fits instr (List.mem_filter.mp member).1

end StackScheme.Machine
