import StackScheme.Proofs.Machine.Pieces

/-! Loaded code is position independent. Code whose jumps go to its own labels does behind other
code what it does alone, step by step: its labels replace labels of the same name that are there,
and no jump leads back into the code before it. -/
namespace StackScheme.Machine
open Stateful

def Linked (machine : Machine) : Prop :=
  ∀ instr ∈ machine.code, ∀ label ∈ instr.target?,
    ∃ position, machine.labels.find? label = some position

theorem Linked.same {machine other : Machine} (linked : machine.Linked)
    (same : SameProgram machine other) : other.Linked := by
  obtain ⟨code, labels⟩ := same
  rw [Linked, code, labels]
  exact linked

theorem install_marked {code : Code} {name : String} (marked : name ∈ code.marks)
    (machine : Machine) :
    ∃ position, (machine.install code).labels.find? name = some position := by
  induction code generalizing machine with
  | nil => contradiction
  | cons instr rest ih =>
    by_cases later : name ∈ Code.marks rest
    · exact ih later _
    · obtain rfl : instr = .label name := by
        rcases List.mem_cons.mp (Code.mem_marks.mp marked) with same | member
        · exact same.symm
        · exact (later (Code.mem_marks.mpr member)).elim
      rw [install_cons, install_labels_other later]
      exact ⟨machine.code.size, by simp [extend]⟩

theorem install_linked {code : Code} (closed : ∀ instr ∈ code, ∀ label ∈ instr.target?,
    label ∈ code.marks) {machine : Machine} (bare : machine.code = #[]) :
    (machine.install code).Linked := by
  intro instr member label target
  rw [install_code, bare, Array.empty_append, List.mem_toArray] at member
  exact install_marked (closed instr (List.mem_filter.mp member).1 label target) machine

namespace Site
variable {site : Site} {machine : Machine}

/-- What is put behind the program of the machine and behind the code of the site stands at the
site too. -/
theorem Hosts.extend {other : Machine} {offset : Nat} {printed : String}
    (hosts : (Site.mk offset other.code other.labels printed).Hosts machine)
    (size : other.code.size = machine.code.size + offset) (instr : Instr) :
    (Site.mk offset (other.extend instr).code (other.extend instr).labels printed).Hosts
      (machine.extend instr) := by
  cases instr with
  | label name =>
    refine ⟨hosts.code, fun label position found => ?_⟩
    simp only [Machine.extend, Table.find?_insert] at found ⊢
    split
    · rename_i same
      rw [if_pos same, Option.some.injEq] at found
      rw [size, found]
    · rename_i different
      rw [if_neg different] at found
      exact hosts.labels label position found
  | _ =>
    refine ⟨fun position instr found => ?_, hosts.labels⟩
    simp only [Machine.extend, Array.getElem?_push, size, Nat.add_right_cancel_iff] at found ⊢
    split
    · rename_i last
      rwa [if_pos last] at found
    · rename_i inside
      rw [if_neg inside] at found
      exact hosts.code position instr found

theorem Hosts.install {other : Machine} {offset : Nat} {printed : String} {code : Code}
    (hosts : (Site.mk offset other.code other.labels printed).Hosts machine)
    (size : other.code.size = machine.code.size + offset) :
    (Site.mk offset (other.install code).code (other.install code).labels printed).Hosts
      (machine.install code) := by
  induction code generalizing machine other with
  | nil => exact hosts
  | cons instr rest ih =>
    refine ih (hosts.extend size instr) ?_
    cases instr with
    | label name => exact size
    | _ =>
      simp only [Machine.extend, Array.size_push, size]
      omega

theorem running_move (last : site.code.size = machine.code.size + site.offset) :
    (site.move machine).running = machine.running := by
  simp [running, move, last]

/-- A step of a linked program is the same step at the site, failures included. -/
theorem step_moved (hosts : site.Hosts machine) (linked : machine.Linked)
    (last : site.code.size = machine.code.size + site.offset) :
    step (site.move machine) = site.moveResult (step machine) := by
  cases found : machine.code[machine.pc]? with
  | none =>
    have there : (site.move machine).code[(site.move machine).pc]? = none := by
      rw [Array.getElem?_eq_none_iff] at found ⊢
      simp only [move, last]
      omega
    simp only [step, found, there]
    rfl
  | some instr =>
    have advanced : site.Hosts { machine with pc := machine.pc + 1 } := ⟨hosts.code, hosts.labels⟩
    rw [step_at found, step_there hosts found]
    exact execute_move advanced (linked instr (Array.mem_of_getElem? found))

theorem run_moved (hosts : site.Hosts machine) (linked : machine.Linked)
    (last : site.code.size = machine.code.size + site.offset) (steps : Nat) :
    run steps (site.move machine) = site.moveResult (run steps machine) := by
  induction steps generalizing machine with
  | zero =>
    simp only [run, running_move last]
    rfl
  | succ fewer ih =>
    simp only [run, running_move last]
    cases running : machine.running with
    | false => rfl
    | true =>
      simp only [if_true, step_moved hosts linked last]
      have same : SameProgram machine (final (step machine)) := KeepsProgram.step machine
      cases stepped : step machine with
      | error failure after => rfl
      | ok done next =>
        simp only [stepped, final] at same
        exact ih (hosts.same same) (linked.same same) (by rw [same.code, last])

end Site

/-- The second machine stands where the first does, behind so many instructions and after this
output. -/
structure Displaced (offset : Nat) (printed : String) (alone behind : Machine) : Prop where
  stack : behind.stack = alone.stack
  registers : behind.registers = alone.registers
  output : behind.output = printed ++ alone.output
  pc : behind.pc = alone.pc + offset

/-- Both runs are cut off, have come to their ends, or have failed alike; the place of an underflow
is counted from the beginning of all code. -/
def RunsDisplaced (offset : Nat) (printed : String) :
    EStateM.Result Failure Machine RunEnd → EStateM.Result Failure Machine RunEnd → Prop
  | .ok ending alone, .ok ending' behind => ending' = ending ∧ Displaced offset printed alone behind
  | .error failure alone, .error failure' behind =>
    failure' = failure.further offset ∧ Displaced offset printed alone behind
  | _, _ => False

theorem runsDisplaced_move (site : Site) (result : EStateM.Result Failure Machine RunEnd) :
    RunsDisplaced site.offset site.printed result (site.moveResult result) := by
  cases result with
  | ok ending alone => exact ⟨rfl, rfl, rfl, rfl, rfl⟩
  | error failure alone => exact ⟨rfl, rfl, rfl, rfl, rfl⟩

def Closed (text : String) : Prop :=
  ∀ instr ∈ Code.ofLines (Text.lines text), ∀ label ∈ instr.target?, label ∈ marked text

instance (text : String) : Decidable (Closed text) :=
  inferInstanceAs (Decidable (∀ instr ∈ Code.ofLines (Text.lines text),
    ∀ label ∈ instr.target?, label ∈ marked text))

def bare (machine : Machine) : Machine :=
  { stack := machine.stack, registers := machine.registers }

/-- The site at which code stands that is put behind the program of the machine. -/
def Site.behind (machine : Machine) (code : Code) : Site :=
  ⟨machine.code.size, (machine.install code).code, (machine.install code).labels, machine.output⟩

theorem Site.behind_hosts (machine : Machine) (code : Code) :
    (Site.behind machine code).Hosts (machine.bare.install code) := by
  refine Hosts.install ⟨fun position instr found => ?_, fun label position found => ?_⟩ ?_
  · simp [bare] at found
  · contradiction
  · simp [bare]

theorem Site.behind_last (machine : Machine) (code : Code) :
    (Site.behind machine code).code.size =
      (machine.bare.install code).code.size + (Site.behind machine code).offset := by
  simp [behind, bare, install_code, Nat.add_comm]

/-- To load behind a program is to load without one and to move what has been loaded. -/
theorem install_behind {machine : Machine} (rests : machine.pc = machine.code.size) (code : Code) :
    machine.install code = (Site.behind machine code).move (machine.bare.install code) := by
  obtain ⟨stack, registers, pc, output⟩ := install_memory machine code
  obtain ⟨stackAlone, registersAlone, pcAlone, outputAlone⟩ := install_memory machine.bare code
  simp only [Site.move, stackAlone, registersAlone, pcAlone, outputAlone]
  cases installed : machine.install code
  simp_all [Site.behind, bare]

/-- Whatever is cut off after some number of steps, a text that marks its own labels does on a
machine at rest, behind all that is loaded there, what it does on a machine that holds the same
values and no code: it runs as long, ends alike and prints the same. -/
theorem loadAndRun_displaced {text : String} (closed : Closed text)
    (loads : ∃ loaded, loadListing text {} = .ok () loaded) {machine : Machine}
    (rests : machine.pc = machine.code.size) (steps : Nat) :
    RunsDisplaced machine.code.size machine.output
      (loadAndRun steps text { stack := machine.stack, registers := machine.registers })
      (loadAndRun steps text machine) := by
  obtain ⟨_, loads⟩ := loads
  have readable := (loadListing_eq_ok_iff.mp loads).1
  have loaded {machine : Machine} :
      loadListing text machine = .ok () (machine.install (Code.ofLines (Text.lines text))) :=
    loadListing_eq_ok_iff.mpr ⟨readable, rfl⟩
  have linked : (machine.bare.install (Code.ofLines (Text.lines text))).Linked :=
    install_linked closed rfl
  rw [loadAndRun_loaded loaded, loadAndRun_loaded loaded, install_behind rests,
    Site.run_moved (Site.behind_hosts machine _) linked (Site.behind_last machine _)]
  exact runsDisplaced_move (Site.behind machine _) _

/-- A text with an endless loop whose label it marks twice, on a machine that has printed a line and
knows a label of the same name. -/
theorem loadAndRun_displaced_loop :
    let text := "again:\nPUSH 1\nPRINT\nagain:\nLOAD 4\nPRINT\nJMP again"
    let machine : Machine :=
      { code := #[.arith .add, .print], labels := ⟨[("start", 0), ("again", 1)]⟩, stack := [7]
        registers := ⟨[(4, -2)]⟩, pc := 2, output := "9\n" }
    ∀ steps, RunsDisplaced 2 "9\n"
      (loadAndRun steps text { stack := [7], registers := ⟨[(4, -2)]⟩ })
      (loadAndRun steps text machine) := by
  intro text machine steps
  have loads : passes (fun _ _ => true) (loadListing text {}) := by
    decide +kernel
  obtain ⟨_, loaded, done, _⟩ := passes_iff.mp loads
  have rests : machine.pc = machine.code.size := rfl
  exact loadAndRun_displaced (by decide +kernel) ⟨loaded, done⟩ rests steps

end StackScheme.Machine
