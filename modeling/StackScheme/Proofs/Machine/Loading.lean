import StackScheme.Machine
import StackScheme.Proofs.Bytecode.Marks
import StackScheme.Proofs.Bytecode.RoundTrip

/-! What loading a piece of code does to a machine: its instructions are put behind the code that is
there, and each of its labels marks the place it stands at. -/
namespace StackScheme

namespace Machine
open Stateful

/-- The machine with one instruction or label more. -/
def extend (machine : Machine) : Instr → Machine
  | .label name => { machine with labels := machine.labels.insert name machine.code.size }
  | instr => { machine with code := machine.code.push instr }

/-- The machine with a piece of code more. -/
def install (machine : Machine) (code : Code) : Machine :=
  code.foldl extend machine

@[simp] theorem install_nil (machine : Machine) : machine.install [] = machine := rfl

@[simp] theorem install_cons (machine : Machine) (instr : Instr) (rest : Code) :
    machine.install (instr :: rest) = (machine.extend instr).install rest := rfl

theorem place_apply (instr : Instr) (machine : Machine) :
    place instr machine = .ok () (machine.extend instr) := by
  cases instr <;> rfl

theorem loadLine_text {instr : Instr} (wellFormed : instr.WellFormed) (machine : Machine) :
    loadLine instr.text machine = .ok () (machine.extend instr) := by
  simp only [loadLine, Instr.decode_text wellFormed, place_apply]

theorem loadLines_text {code : Code} (wellFormed : ∀ instr ∈ code, instr.WellFormed)
    (number : Nat) (machine : Machine) :
    loadLines number (code.map Instr.text) machine = .ok () (machine.install code) := by
  induction code generalizing number machine with
  | nil => rfl
  | cons instr rest ih =>
    have first : Failure.onLine number (loadLine instr.text) machine =
        .ok () (machine.extend instr) := by
      simp only [Failure.onLine, loadLine_text (wellFormed instr (by simp))]
    rw [List.map_cons, loadLines, bind_ok first]
    exact ih (fun other member => wellFormed other (by simp [member])) _ _

/-- Loading the text of code installs the code. -/
theorem loadListing_encode {code : Code} {text : String}
    (readable : ∀ instr ∈ code, instr.Readable) (encoded : encode code = .ok text)
    (machine : Machine) : loadListing text machine = .ok () (machine.install code) := by
  rw [loadListing, Code.lines_encode readable encoded]
  have fits := (Code.encode_eq_ok_iff.mp encoded).1
  exact loadLines_text (fun instr member => ⟨readable instr member, fits instr member⟩) 1 machine

theorem install_code (machine : Machine) (code : Code) :
    (machine.install code).code = machine.code ++ code.executable.toArray := by
  induction code generalizing machine with
  | nil => simp [Code.executable]
  | cons instr rest ih =>
    rw [install_cons, ih]
    cases instr <;> simp [extend, Code.executable]

theorem install_memory (machine : Machine) (code : Code) :
    (machine.install code).stack = machine.stack ∧
      (machine.install code).registers = machine.registers ∧
      (machine.install code).pc = machine.pc ∧
      (machine.install code).output = machine.output := by
  induction code generalizing machine with
  | nil => exact ⟨rfl, rfl, rfl, rfl⟩
  | cons instr rest ih =>
    obtain ⟨stack, registers, pc, output⟩ := ih (machine.extend instr)
    rw [install_cons, stack, registers, pc, output]
    cases instr <;> exact ⟨rfl, rfl, rfl, rfl⟩

/-- A label that the code does not mark keeps its position. -/
theorem install_labels_other {code : Code} {name : String} (unmarked : name ∉ code.marks)
    (machine : Machine) : (machine.install code).labels.find? name = machine.labels.find? name := by
  induction code generalizing machine with
  | nil => rfl
  | cons instr rest ih =>
    rw [Code.mem_marks, List.mem_cons, not_or] at unmarked
    rw [install_cons, ih (Code.mem_marks.not.mpr unmarked.2)]
    cases instr with
    | label other =>
      have different : other ≠ name := fun same => unmarked.1 (same ▸ rfl)
      simp [extend, different]
    | _ => rfl

/-- The code stands in the machine from this position on: every instruction is at its place, and
every label leads to where it is marked. -/
def Placed (machine : Machine) : Nat → Code → Prop
  | _, [] => True
  | position, .label name :: rest =>
    machine.labels.find? name = some position ∧ Placed machine position rest
  | position, instr :: rest =>
    machine.code[position]? = some instr ∧ Placed machine (position + 1) rest

theorem placed_append {machine : Machine} {position : Nat} {first second : Code} :
    Placed machine position (first ++ second) ↔
      Placed machine position first ∧ Placed machine (position + first.extent) second := by
  induction first generalizing position with
  | nil => simp [Placed]
  | cons instr rest ih =>
    cases instr <;> simp [Placed, ih, and_assoc, Nat.add_assoc]

theorem getElem?_install {machine : Machine} {position : Nat} {instr : Instr}
    (found : machine.code[position]? = some instr) (code : Code) :
    (machine.install code).code[position]? = some instr := by
  obtain ⟨bound, _⟩ := Array.getElem?_eq_some_iff.mp found
  rw [install_code, Array.getElem?_append_left bound, found]

theorem extend_executable {instr : Instr} (plain : instr.mark? = none) (machine : Machine) :
    machine.extend instr = { machine with code := machine.code.push instr } := by
  cases instr with
  | label name => contradiction
  | _ => rfl

theorem placed_executable {instr : Instr} (plain : instr.mark? = none) {machine : Machine}
    {position : Nat} {rest : Code} : Placed machine position (instr :: rest) ↔
      machine.code[position]? = some instr ∧ Placed machine (position + 1) rest := by
  cases instr with
  | label name => contradiction
  | _ => exact Iff.rfl

/-- Code whose labels are all different stands where it has been installed. -/
theorem install_placed {code : Code} (distinct : code.marks.Nodup) (machine : Machine) :
    Placed (machine.install code) machine.code.size code := by
  induction code generalizing machine with
  | nil => trivial
  | cons instr rest ih =>
    cases marked : instr.mark? with
    | none =>
      rw [Code.marks_cons, marked] at distinct
      have following := ih distinct (machine.extend instr)
      simp only [extend_executable marked, Array.size_push] at following
      rw [install_cons, extend_executable marked, placed_executable marked]
      exact ⟨getElem?_install (Array.getElem?_push_size ..) rest, following⟩
    | some name =>
      obtain rfl : instr = .label name := by
        cases instr <;> simp_all
      obtain ⟨fresh, distinct⟩ := List.nodup_cons.mp distinct
      refine ⟨?_, ih distinct (machine.extend (.label name))⟩
      rw [install_cons, install_labels_other fresh]
      simp [extend]

end Machine
end StackScheme
