import StackScheme.Bytecode.Instr
import Mathlib.Data.List.Nodup

/-! Labels in code: which of its members take a place in the machine, which mark one, and whether
every jump goes forward. -/
namespace StackScheme

namespace Instr

/-- The label that is marked here. -/
@[simp] def mark? : Instr → Option String
  | .label name => some name
  | .push _ | .print | .arith _ | .jump _ | .jumpIfZero _ | .jumpIfNonzero _ | .store _
  | .load _ => none

/-- The label that is jumped to. -/
@[simp] def target? : Instr → Option String
  | .jump name | .jumpIfZero name | .jumpIfNonzero name => some name
  | .push _ | .print | .arith _ | .store _ | .load _ | .label _ => none

end Instr

namespace Code

/-- The labels that are marked, in order. -/
def marks (code : Code) : List String :=
  code.filterMap Instr.mark?

/-- The instructions that take a place in the code of a machine. -/
def executable (code : Code) : Code :=
  code.filter fun instr => instr.mark?.isNone

theorem executable_cons {instr : Instr} (plain : instr.mark? = none) (rest : Code) :
    executable (instr :: rest) = instr :: executable rest :=
  List.filter_cons_of_pos (by rw [plain]; rfl)

/-- How many places the code takes. -/
def extent (code : Code) : Nat :=
  code.executable.length

@[simp] theorem extent_nil : extent [] = 0 := rfl

@[simp] theorem extent_append (first second : Code) :
    extent (first ++ second) = first.extent + second.extent := by
  simp [extent, executable]

@[simp] theorem marks_append (first second : Code) :
    marks (first ++ second) = first.marks ++ second.marks :=
  List.filterMap_append

@[simp] theorem marks_nil : marks [] = [] := rfl

@[simp] theorem marks_cons (instr : Instr) (rest : Code) :
    marks (instr :: rest) = instr.mark?.toList ++ marks rest := by
  cases instr <;> rfl

@[simp] theorem extent_cons (instr : Instr) (rest : Code) :
    extent (instr :: rest) = (if instr.mark?.isNone then 1 else 0) + extent rest := by
  cases instr <;> simp [extent, executable, Nat.add_comm]

theorem mem_marks {code : Code} {name : String} : name ∈ code.marks ↔ .label name ∈ code := by
  simp only [marks, List.mem_filterMap]
  constructor
  · rintro ⟨instr, member, marked⟩
    cases instr <;> simp_all
  · exact fun member => ⟨_, member, rfl⟩

/-- Every jump goes to a label that is marked after it. -/
def ForwardJumps : Code → Prop
  | [] => True
  | instr :: rest => (∀ name ∈ instr.target?, .label name ∈ rest) ∧ ForwardJumps rest

theorem ForwardJumps.single {instr : Instr} (straight : instr.target? = none) :
    ForwardJumps [instr] :=
  ⟨by rw [straight]; simp, trivial⟩

theorem ForwardJumps.append {first second : Code} (ahead : ForwardJumps first)
    (following : ForwardJumps second) : ForwardJumps (first ++ second) := by
  induction first with
  | nil => exact following
  | cons instr rest ih =>
    refine ⟨fun name target => ?_, ih ahead.2⟩
    exact List.mem_append_left _ (ahead.1 name target)

/-- Every jump goes to a label that is marked once in the code, and after the jump. -/
def Resolved (code : Code) : Prop :=
  ∀ before instr rest, code = before ++ instr :: rest → ∀ name ∈ instr.target?,
    code.marks.count name = 1 ∧ name ∈ marks rest

theorem ForwardJumps.resolved {code : Code} (forward : ForwardJumps code)
    (distinct : code.marks.Nodup) : Resolved code := by
  intro before instr rest split name target
  have ahead : name ∈ marks rest := by
    clear distinct
    induction before generalizing code with
    | nil =>
      subst split
      exact mem_marks.mpr (forward.1 name target)
    | cons other before ih =>
      subst split
      exact ih forward.2 rfl
  refine ⟨List.count_eq_one_of_mem distinct ?_, ahead⟩
  rw [split, marks_append, marks_cons]
  simp [ahead]

end Code

end StackScheme
