import StackScheme.Files
import StackScheme.Proofs.Machine.Site

/-! The counter and the labels of a machine never leave its code. Labels are marked where the code
ends at the time, jumps go to labels, and the code only becomes longer, whatever is called on the
machine and however it fails. So a run that comes to a stop does so exactly at the end of the code,
and only a single step can be taken from there. -/
namespace StackScheme.Machine
open Stateful

/-- The counter and all labels are at an instruction or at the end of the code. -/
structure Bounded (machine : Machine) : Prop where
  counter : machine.pc ≤ machine.code.size
  labels : ∀ position ∈ machine.labels.values, position ≤ machine.code.size

theorem Bounded.same {machine after : Machine} (bounded : machine.Bounded)
    (same : SameProgram machine after) (counter : after.pc ≤ machine.code.size) :
    after.Bounded := by
  obtain ⟨code, labels⟩ := same
  constructor
  · rw [code]
    exact counter
  · rw [code, labels]
    exact bounded.labels

/-- The later machine has the code of the earlier one, perhaps with more code behind it, and has not
left the bounds. -/
structure Follows (machine later : Machine) : Prop where
  code : machine.code.toList <+: later.code.toList
  bounded : machine.Bounded → later.Bounded

namespace Follows
variable {machine middle later : Machine}

theorem refl (machine : Machine) : Follows machine machine :=
  ⟨List.prefix_rfl, id⟩

theorem trans (first : Follows machine middle) (second : Follows middle later) :
    Follows machine later :=
  ⟨first.code.trans second.code, second.bounded ∘ first.bounded⟩

theorem of_same (same : SameProgram machine later)
    (counter : machine.Bounded → later.pc ≤ machine.code.size) : Follows machine later := by
  refine ⟨?_, fun bounded => bounded.same same (counter bounded)⟩
  simp [same.code]

theorem append (machine : Machine) (instr : Instr) :
    Follows machine { machine with code := machine.code.push instr } := by
  refine ⟨by simp, fun bounded => ⟨?_, fun position member => ?_⟩⟩
  · exact bounded.counter.trans (by simp)
  · exact (bounded.labels position member).trans (by simp)

theorem extend (machine : Machine) (instr : Instr) : Follows machine (machine.extend instr) := by
  cases instr with
  | label name =>
    -- the label is marked where the code ends, which is still within the bounds
    refine ⟨List.prefix_rfl, fun bounded => ⟨bounded.counter, fun position member => ?_⟩⟩
    rcases Table.mem_values_insert member with earlier | rfl
    · exact bounded.labels position earlier
    · exact Nat.le_refl _
  | _ => exact append machine _

end Follows

/-- The operation leaves a machine that follows, also where it fails. -/
def Advances {α : Type} (operation : MachineM α) : Prop :=
  ∀ machine, Follows machine (final (operation machine))

/-- The operation does not fail for want of an instruction. -/
def Inside {α : Type} (operation : MachineM α) : Prop :=
  ∀ machine, failure? (operation machine) ≠ some .pastEnd

section Sequences
variable {α β : Type} {operation : MachineM α} {next : α → MachineM β}

theorem Advances.bind (first : Advances operation) (second : ∀ value, Advances (next value)) :
    Advances (operation >>= next) := by
  intro machine
  have begun := first machine
  rw [bind_apply]
  cases result : operation machine with
  | ok value middle =>
    rw [result] at begun
    exact begun.trans (second value middle)
  | error failure after =>
    rw [result] at begun
    exact begun

theorem Inside.bind (first : Inside operation) (second : ∀ value, Inside (next value)) :
    Inside (operation >>= next) := by
  intro machine
  have begun := first machine
  rw [bind_apply]
  cases result : operation machine with
  | ok value middle => exact second value middle
  | error failure after =>
    rw [result] at begun
    exact begun

theorem Advances.onLine (advances : Advances operation) (line : Nat) :
    Advances (Failure.onLine line operation) := by
  intro machine
  have ended := advances machine
  unfold Failure.onLine
  cases result : operation machine with
  | ok value after | error failure after =>
    rw [result] at ended
    exact ended

theorem Inside.onLine (inside : Inside operation) (line : Nat) :
    Inside (Failure.onLine line operation) := by
  intro machine
  have ended := inside machine
  unfold Failure.onLine
  cases result : operation machine with
  | ok value after => simp [failure?]
  | error failure after =>
    rw [result] at ended
    cases failure with
    | pastEnd => exact absurd rfl ended
    | _ => simp [failure?, Failure.withLine]

theorem Advances.lift (result : Except Failure α) : Advances (Failure.lift result) := by
  intro machine
  cases result with
  | ok value | error failure => exact .refl machine

end Sequences

section Loading

theorem advances_loadLine (line : String) : Advances (loadLine line) := by
  intro machine
  unfold loadLine
  split
  · exact .refl machine
  · rw [place_apply]
    exact .extend machine _
  · exact .refl machine

theorem inside_loadLine (line : String) : Inside (loadLine line) := by
  intro machine
  unfold loadLine
  split
  · simp [failure?]
  · rw [place_apply]
    simp [failure?]
  · rename_i failure failed
    unfold Instr.decode at failed
    split at failed
    · contradiction
    · split at failed
      · contradiction
      all_goals
        cases failed
        simp [failure?, Failure.ofFault]

theorem advances_loadLines (number : Nat) (lines : List String) :
    Advances (loadLines number lines) := by
  induction lines generalizing number with
  | nil => exact .refl
  | cons line rest ih =>
    exact ((advances_loadLine line).onLine number).bind fun _ => ih (number + 1)

theorem inside_loadLines (number : Nat) (lines : List String) :
    Inside (loadLines number lines) := by
  induction lines generalizing number with
  | nil => exact fun machine => by simp [loadLines, failure?]
  | cons line rest ih => exact ((inside_loadLine line).onLine number).bind fun _ => ih (number + 1)

theorem advances_loadFile (directory : Directory) (name : String) :
    Advances (loadFile directory name) :=
  (Advances.lift _).bind fun _ => advances_loadLines 1 _

theorem inside_loadFile (directory : Directory) (name : String) :
    Inside (loadFile directory name) := by
  refine Inside.bind (fun machine => ?_) fun _ => inside_loadLines 1 _
  unfold Directory.readText
  split <;> simp [Failure.lift, failure?]

end Loading

/-- The counter stays where it is, and nothing fails because of it. -/
structure Stays {α : Type} (operation : MachineM α) : Prop where
  counter : ∀ machine, (final (operation machine)).pc = machine.pc
  inside : Inside operation

namespace Stays
variable {α β : Type}

theorem bind {operation : MachineM α} {next : α → MachineM β} (first : Stays operation)
    (second : ∀ value, Stays (next value)) : Stays (operation >>= next) := by
  refine ⟨fun machine => ?_, first.inside.bind fun value => (second value).inside⟩
  have begun := first.counter machine
  rw [bind_apply]
  cases result : operation machine with
  | ok value middle =>
    rw [result] at begun
    exact ((second value).counter middle).trans begun
  | error failure after =>
    rw [result] at begun
    exact begun

/-- To be seen from the result on every machine. -/
theorem of_result {operation : MachineM α}
    (result : ∀ machine, (final (operation machine)).pc = machine.pc ∧
      failure? (operation machine) ≠ some .pastEnd) : Stays operation :=
  ⟨fun machine => (result machine).1, fun machine => (result machine).2⟩

theorem pop : Stays pop := by
  refine of_result fun machine => ?_
  unfold Machine.pop
  split <;> simp [final, failure?, Failure.ofFault]

theorem positionOf (label : String) : Stays (positionOf label) := by
  refine of_result fun machine => ?_
  unfold Machine.positionOf
  split <;> simp [final, failure?, Failure.ofFault]

theorem printLine (value : Int) : Stays (printLine value) := by
  refine of_result fun machine => ?_
  unfold Machine.printLine
  split <;> simp [final, failure?]

theorem load (register : Int) : Stays (load register) := by
  refine of_result fun machine => ?_
  unfold Machine.load
  split
  · simp [final, failure?]
  · split <;> simp [final, failure?, Failure.ofFault]

theorem push (value : Int) : Stays (push value) :=
  of_result fun machine => by simp [Machine.push, final, failure?]

theorem store (register value : Int) : Stays (store register value) :=
  of_result fun machine => by simp [Machine.store, final, failure?]

theorem fail (fault : MachineFault) : Stays (fail fault : MachineM α) :=
  of_result fun machine => by simp [Machine.fail, final, failure?, Failure.ofFault]

theorem advances {operation : MachineM α} (stays : Stays operation)
    (keeps : KeepsProgram operation) : Advances operation := by
  refine fun machine => .of_same (keeps machine) fun bounded => ?_
  rw [stays.counter]
  exact bounded.counter

end Stays

/-- The counter moves, if at all, to the label of the instruction, and nothing fails because of
it. -/
structure Obeys (instr : Instr) (operation : MachineM Unit) : Prop where
  moves : ∀ machine, Moves instr machine (final (operation machine))
  inside : Inside operation

theorem Stays.obeys {operation : MachineM Unit} (stays : Stays operation) (instr : Instr) :
    Obeys instr operation :=
  ⟨fun machine => .inl (stays.counter machine), stays.inside⟩

/-- The counter moves, if at all, to the position, and nothing fails because of it. -/
structure Goes (position : Nat) (operation : MachineM Unit) : Prop where
  counter : ∀ machine, (final (operation machine)).pc = machine.pc ∨
    (final (operation machine)).pc = position
  inside : Inside operation

theorem goes_jumpTo (position : Nat) : Goes position (jumpTo position) :=
  ⟨fun _ => .inr rfl, fun _ => by simp [jumpTo, failure?]⟩

theorem goes_jumpIf (condition : Int → Prop) [DecidablePred condition] (position : Nat) :
    Goes position (pop >>= fun value => if condition value then jumpTo position else pure ()) := by
  refine ⟨fun machine => ?_, Stays.pop.inside.bind fun _ _ => by simp [jump_if, failure?]⟩
  cases stack : machine.stack with
  | nil =>
    rw [bind_error (pop_nil stack)]
    exact .inl rfl
  | cons value rest =>
    rw [bind_ok (pop_cons stack), jump_if]
    by_cases jumps : condition value
    · exact .inr (if_pos jumps)
    · exact .inl (if_neg jumps)

theorem obeys_label {instr : Instr} {label : String} (target : instr.target? = some label)
    {next : Nat → MachineM Unit} (goes : ∀ position, Goes position (next position)) :
    Obeys instr (positionOf label >>= next) := by
  refine ⟨fun machine => ?_, (Stays.positionOf label).inside.bind fun _ => (goes _).inside⟩
  cases found : machine.labels.find? label with
  | none =>
    rw [bind_error (positionOf_error found)]
    exact .inl rfl
  | some position =>
    rw [bind_ok (positionOf_ok found)]
    rcases (goes position).counter machine with counter | counter
    · exact .inl counter
    · exact .inr ⟨label, target, by rw [found, counter]⟩

theorem obeys_execute (instr : Instr) : Obeys instr (execute instr) := by
  cases instr with
  | push value => exact (Stays.push value).obeys _
  | print => exact (Stays.pop.bind .printLine).obeys _
  | arith op => exact (Stays.pop.bind fun _ => Stays.pop.bind fun _ => .push _).obeys _
  | store register => exact (Stays.pop.bind fun _ => .store register _).obeys _
  | load register => exact ((Stays.load register).bind fun _ => .push _).obeys _
  | label name => exact (Stays.fail _).obeys _
  | jump name => exact obeys_label rfl goes_jumpTo
  | jumpIfZero name | jumpIfNonzero name => exact obeys_label rfl (goes_jumpIf _)

/-- A step from within the code leads no further than to its end, and jumps go to labels. -/
theorem advances_step : Advances step := by
  refine fun machine => .of_same (KeepsProgram.step machine) fun bounded => ?_
  cases found : machine.code[machine.pc]? with
  | none =>
    simp only [step, found]
    exact bounded.counter
  | some instr =>
    obtain ⟨inside, _⟩ := Array.getElem?_eq_some_iff.mp found
    rw [step_at found]
    -- a jump forgets the counter, so what is known of the labels is needed as well
    rcases (obeys_execute instr).moves { machine with pc := machine.pc + 1 } with
      counter | ⟨label, _, position⟩
    · rw [counter]
      exact inside
    · exact bounded.labels _ (Table.mem_values_of_find? position)

theorem inside_step {machine : Machine} {instr : Instr}
    (found : machine.code[machine.pc]? = some instr) : failure? (step machine) ≠ some .pastEnd := by
  rw [step_at found]
  exact (obeys_execute instr).inside { machine with pc := machine.pc + 1 }

/-- In bounds, a step finds no instruction only at the end of the code. -/
theorem Bounded.step_pastEnd_iff {machine after : Machine} (bounded : machine.Bounded) :
    step machine = .error .pastEnd after ↔ machine.pc = machine.code.size ∧ after = machine := by
  cases found : machine.code[machine.pc]? with
  | none =>
    have ended : machine.pc = machine.code.size :=
      Nat.le_antisymm bounded.counter (Array.getElem?_eq_none_iff.mp found)
    simp [step, ended, eq_comm]
  | some instr =>
    obtain ⟨inside, _⟩ := Array.getElem?_eq_some_iff.mp found
    constructor
    · intro failed
      have never := inside_step found
      rw [failed] at never
      exact absurd rfl never
    · rintro ⟨ended, _⟩
      exact absurd ended (Nat.ne_of_lt inside)

section Runs

/-- Induction over the steps of a run, with one case for each way in which it may end. -/
theorem run_induction {motive : Machine → EStateM.Result Failure Machine RunEnd → Prop}
    (halted : ∀ machine, machine.running = false → motive machine (.ok .halted machine))
    (paused : ∀ machine, motive machine (.ok .paused machine))
    (failed : ∀ machine failure after, machine.running = true →
      step machine = .error failure after → motive machine (.error failure after))
    (stepped : ∀ machine next result, step machine = .ok () next → motive next result →
      motive machine result)
    (steps : Nat) (machine : Machine) : motive machine (run steps machine) := by
  induction steps generalizing machine with
  | zero =>
    cases running : machine.running with
    | false =>
      rw [run_stopped running]
      exact halted machine running
    | true =>
      simp only [run, running, if_true]
      exact paused machine
  | succ fewer ih =>
    cases running : machine.running with
    | false =>
      rw [run_stopped running]
      exact halted machine running
    | true =>
      simp only [run, running, if_true]
      cases taken : step machine with
      | ok done next => exact stepped machine next _ taken (ih next)
      | error failure after => exact failed machine failure after running taken

theorem advances_run (steps : Nat) : Advances (run steps) := by
  refine run_induction (motive := fun machine result => Follows machine (final result))
    (fun machine _ => .refl machine) .refl ?failed ?stepped steps
  case failed =>
    intro machine failure after _ taken
    have ended := advances_step machine
    rwa [taken] at ended
  case stepped =>
    intro machine next result taken follows
    have begun := advances_step machine
    rw [taken] at begun
    exact begun.trans follows

/-- A running machine has an instruction at its counter. -/
theorem inside_run (steps : Nat) : Inside (run steps) := by
  refine run_induction (motive := fun _ result => failure? result ≠ some .pastEnd)
    (fun _ _ => nofun) (fun _ => nofun) ?failed (fun _ _ _ _ inside => inside) steps
  case failed =>
    intro machine failure after running taken
    have never := inside_step (Array.getElem?_eq_getElem (of_decide_eq_true running))
    rwa [taken] at never

/-- Where a run stops there is no more code. -/
theorem stopped_of_halted {steps : Nat} {machine last : Machine}
    (ended : run steps machine = .ok .halted last) : last.running = false := by
  refine run_induction
    (motive := fun _ result => result = .ok .halted last → last.running = false)
    ?halted (fun _ => nofun) (fun _ _ _ _ _ => nofun) (fun _ _ _ _ stops => stops)
    steps machine ended
  case halted =>
    intro machine stopped same
    obtain ⟨_, rfl⟩ := EStateM.Result.ok.inj same
    exact stopped

theorem advances_loadAndRunFile (steps : Nat) (directory : Directory) (name : String) :
    Advances (loadAndRunFile steps directory name) :=
  (advances_loadFile directory name).bind fun _ => advances_run steps

theorem inside_loadAndRunFile (steps : Nat) (directory : Directory) (name : String) :
    Inside (loadAndRunFile steps directory name) :=
  (inside_loadFile directory name).bind fun _ => inside_run steps

/-- In bounds, a run stops exactly at the end of the code. -/
theorem Bounded.halted {machine last : Machine} (bounded : machine.Bounded) {steps : Nat}
    (halted : run steps machine = .ok .halted last) : last.pc = last.code.size := by
  have ended := (advances_run steps machine).bounded bounded
  rw [halted] at ended
  have stopped := of_decide_eq_false (stopped_of_halted halted)
  exact Nat.le_antisymm ended.counter (Nat.le_of_not_lt stopped)

theorem Bounded.halted_file {machine last : Machine} (bounded : machine.Bounded) {steps : Nat}
    {directory : Directory} {name : String}
    (halted : loadAndRunFile steps directory name machine = .ok .halted last) :
    last.pc = last.code.size := by
  obtain ⟨_, loaded, done, halted⟩ := bind_eq_ok.mp halted
  have begun := (advances_loadFile directory name machine).bounded bounded
  rw [done] at begun
  exact begun.halted halted

end Runs

/-- What can be called on a machine. Of a run that does not end every beginning is a call. -/
inductive Call
  | load (text : String)
  | append (instr : Instr)
  | step
  | run (steps : Nat)
  | loadAndRunFile (steps : Nat) (directory : Directory) (name : String)
  | pop
  | target (label : String)

/-- The machine that a call leaves, whether it has succeeded or failed. -/
def call (machine : Machine) : Call → Machine
  | .load text => final (loadListing text machine)
  | .append instr => final (append instr machine)
  | .step => final (step machine)
  | .run steps => final (run steps machine)
  | .loadAndRunFile steps directory name => final (loadAndRunFile steps directory name machine)
  | .pop => final (pop machine)
  | .target label => final (positionOf label machine)

def calls (machine : Machine) (sequence : List Call) : Machine :=
  sequence.foldl call machine

theorem follows_call (machine : Machine) (next : Call) : Follows machine (machine.call next) := by
  cases next with
  | load text => exact advances_loadLines 1 _ machine
  | append instr => exact .append machine instr
  | step => exact advances_step machine
  | run steps => exact advances_run steps machine
  | loadAndRunFile steps directory name =>
    exact advances_loadAndRunFile steps directory name machine
  | pop => exact Stays.pop.advances .pop machine
  | target label => exact (Stays.positionOf label).advances (.positionOf label) machine

theorem follows_calls (machine : Machine) (sequence : List Call) :
    Follows machine (machine.calls sequence) := by
  induction sequence generalizing machine with
  | nil => exact .refl machine
  | cons next rest ih => exact (follows_call machine next).trans (ih (machine.call next))

/-- However a new machine has been used, its counter and its labels are within its code, and further
calls only add to the end of the code. So no run fails for want of an instruction; a step does so
exactly at the end of the code, and changes nothing then; and every run that stops does so there. -/
theorem calls_bounded (sequence : List Call) :
    let machine := ({} : Machine).calls sequence
    machine.Bounded ∧
    (∀ more, machine.code.toList <+: (machine.calls more).code.toList) ∧
    (∀ after, step machine = .error .pastEnd after ↔
      machine.pc = machine.code.size ∧ after = machine) ∧
    ∀ steps directory name,
      failure? (run steps machine) ≠ some .pastEnd ∧
      failure? (loadAndRunFile steps directory name machine) ≠ some .pastEnd ∧
      ∀ last, run steps machine = .ok .halted last ∨
          loadAndRunFile steps directory name machine = .ok .halted last →
        last.pc = last.code.size := by
  intro machine
  have fresh : ({} : Machine).Bounded := ⟨Nat.le_refl 0, by simp [Table.values]⟩
  have bounded : machine.Bounded := (follows_calls {} sequence).bounded fresh
  refine ⟨bounded, fun more => (follows_calls machine more).code,
    fun after => bounded.step_pastEnd_iff, fun steps directory name =>
      ⟨inside_run steps machine, inside_loadAndRunFile steps directory name machine, ?_⟩⟩
  rintro last (halted | halted)
  · exact bounded.halted halted
  · exact bounded.halted_file halted

/-- The label is at the end of the code, and has been marked by a text that fails to load. -/
example : let machine := ({} : Machine).calls [.append (.jump "a"), .load "a:
FOO", .step]
    machine.pc = 1 ∧ machine.code.size = 1 := by
  decide +kernel

end StackScheme.Machine
