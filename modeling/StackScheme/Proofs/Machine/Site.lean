import StackScheme.Proofs.Machine.Running

/-! Programs in other places. An instruction sees nothing of its program but the labels it jumps to,
so a program does the same wherever its instructions and labels stand, as long as all of them have
moved on by the same offset. Only the counter and the place of an underflow tell the difference. -/
namespace StackScheme

/-- The failure as a program reports it that stands further on by the offset. -/
def Failure.further (offset : Nat) : Failure → Failure
  | .program ⟨.machine (.stackUnderflow pc), line⟩ =>
    .program ⟨.machine (.stackUnderflow (pc + offset)), line⟩
  | failure => failure

namespace Machine
open Stateful

/-- Code and labels into which a program is put, how much further on it stands there, and what has
been printed there before. -/
structure Site where
  offset : Nat
  code : Array Instr
  labels : Table String Nat
  printed : String := ""

namespace Site
variable {α β : Type} (site : Site)

/-- The machine with its program at the site. -/
def move (machine : Machine) : Machine :=
  { machine with
    code := site.code
    labels := site.labels
    pc := machine.pc + site.offset
    output := site.printed ++ machine.output }

def moveResult : EStateM.Result Failure Machine α → EStateM.Result Failure Machine α
  | .ok value machine => .ok value (site.move machine)
  | .error failure machine => .error (failure.further site.offset) (site.move machine)

/-- The second operation does at the site what the first one does. -/
def Moves (operation moved : MachineM α) : Prop :=
  ∀ machine, moved (site.move machine) = site.moveResult (operation machine)

/-- The program of the machine stands at the site. -/
structure Hosts (machine : Machine) : Prop where
  code : ∀ position instr, machine.code[position]? = some instr →
    site.code[position + site.offset]? = some instr
  labels : ∀ label position, machine.labels.find? label = some position →
    site.labels.find? label = some (position + site.offset)

variable {site}

theorem Hosts.same {machine other : Machine} (hosts : site.Hosts machine)
    (same : SameProgram machine other) : site.Hosts other := by
  obtain ⟨code, labels⟩ := same
  constructor
  · rw [code]
    exact hosts.code
  · rw [labels]
    exact hosts.labels

namespace Moves

theorem bind {operation moved : MachineM α} {next following : α → MachineM β}
    (first : site.Moves operation moved)
    (second : ∀ value, site.Moves (next value) (following value)) :
    site.Moves (operation >>= next) (moved >>= following) := by
  intro machine
  rw [bind_apply, bind_apply, first machine]
  cases operation machine with
  | ok value middle => exact second value middle
  | error failure after => rfl

theorem push (value : Int) : site.Moves (push value) (push value) := by
  intro machine
  rfl

theorem pop : site.Moves pop pop := by
  intro machine
  cases stack : machine.stack with
  | nil =>
    rw [pop_nil stack, pop_nil (by simpa [move] using stack), moveResult]
    simp only [move, Failure.further, Failure.ofFault]
    congr 6
    omega
  | cons value rest =>
    rw [pop_cons stack, pop_cons (by simpa [move] using stack)]
    rfl

theorem store (register value : Int) :
    site.Moves (store register value) (store register value) := by
  intro machine
  rfl

theorem load (register : Int) : site.Moves (load register) (load register) := by
  intro machine
  simp only [Machine.load, move]
  cases machine.registers.find? register with
  | some value => rfl
  | none =>
    cases Numeral.write register with
    | ok text => rfl
    | error fault => rfl

theorem printLine (value : Int) : site.Moves (printLine value) (printLine value) := by
  intro machine
  simp only [Machine.printLine, move]
  cases Numeral.write value with
  | ok text => simp only [moveResult, move, String.append_assoc]
  | error fault => rfl

theorem fail {fault : MachineFault} (placeless : ∀ pc, fault ≠ .stackUnderflow pc) :
    site.Moves (α := α) (fail fault) (fail fault) := by
  intro machine
  cases fault with
  | stackUnderflow pc => exact absurd rfl (placeless pc)
  | _ => rfl

theorem jumpIf (condition : Prop) [Decidable condition] (position : Nat) :
    site.Moves (if condition then jumpTo position else pure ())
      (if condition then jumpTo (position + site.offset) else pure ()) := by
  intro machine
  split
  · rfl
  · rfl

end Moves

/-- At the site an instruction whose labels are defined does what it does in the machine. -/
theorem execute_move {machine : Machine} (hosts : site.Hosts machine) {instr : Instr}
    (defined : ∀ label, instr.target? = some label →
      ∃ position, machine.labels.find? label = some position) :
    execute instr (site.move machine) = site.moveResult (execute instr machine) := by
  have lookup {label : String} (target : instr.target? = some label) :
      ∃ position, positionOf label machine = .ok position machine ∧
        positionOf label (site.move machine) =
          .ok (position + site.offset) (site.move machine) := by
    obtain ⟨position, found⟩ := defined label target
    exact ⟨position, positionOf_ok found, positionOf_ok (hosts.labels label position found)⟩
  cases instr with
  | push value => exact Moves.push value machine
  | print => exact Moves.pop.bind (fun value => .printLine value) machine
  | arith op =>
    exact Moves.pop.bind (fun last => Moves.pop.bind fun first => .push _) machine
  | store register => exact Moves.pop.bind (fun value => .store register value) machine
  | load register => exact (Moves.load register).bind (fun value => .push value) machine
  | label name => exact Moves.fail (by simp) machine
  | jump name =>
    obtain ⟨position, here, there⟩ := lookup rfl
    rw [execute, bind_ok here, bind_ok there]
    rfl
  | jumpIfZero name | jumpIfNonzero name =>
    obtain ⟨position, here, there⟩ := lookup rfl
    rw [execute, bind_ok here, bind_ok there]
    exact Moves.pop.bind (fun value => .jumpIf _ position) machine

end Site

/-- The operation changes neither the code nor the labels. -/
def KeepsProgram {α : Type} (operation : MachineM α) : Prop :=
  ∀ machine, SameProgram machine (final (operation machine))

theorem SameProgram.trans {machine middle last : Machine} (first : SameProgram machine middle)
    (second : SameProgram middle last) : SameProgram machine last :=
  ⟨second.code.trans first.code, second.labels.trans first.labels⟩

namespace KeepsProgram
variable {α β : Type}

theorem bind {operation : MachineM α} {next : α → MachineM β} (first : KeepsProgram operation)
    (second : ∀ value, KeepsProgram (next value)) : KeepsProgram (operation >>= next) := by
  intro machine
  have begun := first machine
  rw [bind_apply]
  cases result : operation machine with
  | ok value middle =>
    rw [result] at begun
    exact begun.trans (second value middle)
  | error failure after =>
    rw [result] at begun
    exact begun

theorem pop : KeepsProgram pop := by
  intro machine
  unfold Machine.pop
  split
  · exact ⟨rfl, rfl⟩
  · exact ⟨rfl, rfl⟩

theorem positionOf (label : String) : KeepsProgram (positionOf label) := by
  intro machine
  unfold Machine.positionOf
  split
  · exact ⟨rfl, rfl⟩
  · exact ⟨rfl, rfl⟩

theorem printLine (value : Int) : KeepsProgram (printLine value) := by
  intro machine
  unfold Machine.printLine
  split
  · exact ⟨rfl, rfl⟩
  · exact ⟨rfl, rfl⟩

theorem load (register : Int) : KeepsProgram (load register) := by
  intro machine
  unfold Machine.load
  split
  · exact ⟨rfl, rfl⟩
  · split
    · exact ⟨rfl, rfl⟩
    · exact ⟨rfl, rfl⟩

theorem jumpIf (condition : Prop) [Decidable condition] (position : Nat) :
    KeepsProgram (if condition then jumpTo position else pure ()) := by
  intro machine
  split
  · exact ⟨rfl, rfl⟩
  · exact ⟨rfl, rfl⟩

theorem execute (instr : Instr) : KeepsProgram (execute instr) := by
  cases instr with
  | push value | label name => exact fun machine => ⟨rfl, rfl⟩
  | print => exact pop.bind printLine
  | arith op => exact pop.bind fun last => pop.bind fun first machine => ⟨rfl, rfl⟩
  | store register => exact pop.bind fun value machine => ⟨rfl, rfl⟩
  | load register => exact (load register).bind fun value machine => ⟨rfl, rfl⟩
  | jump name => exact (positionOf name).bind fun position machine => ⟨rfl, rfl⟩
  | jumpIfZero name | jumpIfNonzero name =>
    exact (positionOf name).bind fun position => pop.bind fun value => jumpIf _ position

theorem step : KeepsProgram step := by
  intro machine
  cases found : machine.code[machine.pc]? with
  | none =>
    simp only [Machine.step, found]
    exact ⟨rfl, rfl⟩
  | some instr =>
    rw [step_at found]
    exact ⟨(execute instr _).code, (execute instr _).labels⟩

end KeepsProgram

/-- An instruction that has been executed jumps to a defined label, if it jumps at all. -/
theorem defined_of_execute {instr : Instr} {machine next : Machine}
    (done : Machine.execute instr machine = .ok () next) {label : String}
    (target : instr.target? = some label) :
    ∃ position, machine.labels.find? label = some position := by
  cases found : machine.labels.find? label with
  | some position => exact ⟨position, rfl⟩
  | none =>
    cases instr with
    | jump name | jumpIfZero name | jumpIfNonzero name =>
      obtain rfl := Option.some.inj target
      rw [execute, bind_error (positionOf_error found)] at done
      contradiction
    | _ => contradiction

namespace Site
variable {site : Site}

/-- At the site the same instruction is up. -/
theorem step_there {machine : Machine} (hosts : site.Hosts machine) {instr : Instr}
    (found : machine.code[machine.pc]? = some instr) :
    step (site.move machine) = execute instr (site.move { machine with pc := machine.pc + 1 }) := by
  have there : (site.move machine).code[(site.move machine).pc]? = some instr :=
    hosts.code machine.pc instr found
  have counter : { site.move machine with pc := (site.move machine).pc + 1 } =
      site.move { machine with pc := machine.pc + 1 } := by
    simp only [move]
    congr 1
    omega
  rw [step_at there, counter]

/-- A step that succeeds in the machine succeeds at the site. -/
theorem step_move {machine next : Machine} (hosts : site.Hosts machine)
    (done : step machine = .ok () next) :
    step (site.move machine) = .ok () (site.move next) := by
  cases found : machine.code[machine.pc]? with
  | none => simp [step, found] at done
  | some instr =>
    have advanced : site.Hosts { machine with pc := machine.pc + 1 } := ⟨hosts.code, hosts.labels⟩
    rw [step_at found] at done
    rw [step_there hosts found, execute_move advanced fun label => defined_of_execute done, done]
    rfl

/-- At the site the steps of a run that comes to its end are followed by the steps from where it
has come to. -/
theorem run_move {machine last : Machine} {steps : Nat} (hosts : site.Hosts machine)
    (halted : run steps machine = .ok .halted last) :
    SameProgram machine last ∧ ∃ count, ∀ more,
      run (count + more) (site.move machine) = run more (site.move last) := by
  induction steps generalizing machine with
  | zero =>
    obtain ⟨_, rfl⟩ := EStateM.Result.ok.inj halted
    exact ⟨.refl _, 0, fun more => by rw [Nat.zero_add]⟩
  | succ fewer ih =>
    cases running : machine.running with
    | false =>
      rw [run_stopped running] at halted
      obtain ⟨_, rfl⟩ := EStateM.Result.ok.inj halted
      exact ⟨.refl _, 0, fun more => by rw [Nat.zero_add]⟩
    | true =>
      simp only [run, running, if_true] at halted
      cases stepped : step machine with
      | error failure after => simp [stepped] at halted
      | ok done next =>
        simp only [stepped] at halted
        have same : SameProgram machine next := by
          simpa only [stepped, final] using KeepsProgram.step machine
        have moved := step_move hosts stepped
        obtain ⟨sameLast, count, follows⟩ := ih (hosts.same same) halted
        refine ⟨same.trans sameLast, count + 1, fun more => ?_⟩
        rw [← follows more, Nat.add_right_comm, run]
        simp only [running_of_step moved, if_true, moved]

end Site
end Machine
end StackScheme
