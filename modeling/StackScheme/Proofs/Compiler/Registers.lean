import StackScheme.Proofs.Compiler.Labels
import Mathlib.Data.List.Dedup
import Mathlib.Data.List.Perm.Subperm

/-! The registers of emitted code. They are numbered in the order in which names are first bound, so
different names have different registers, and nothing is loaded that nothing has stored. -/
namespace StackScheme

namespace Expr

mutual
/-- The names of the bindings, wherever they stand, from left to right. -/
def boundNames : Expr → List String
  | .int _ | .bool _ | .var _ => []
  | .binding name value => name :: value.boundNames
  | .form _ args => allBoundNames args

def allBoundNames : List Expr → List String
  | [] => []
  | arg :: rest => arg.boundNames ++ allBoundNames rest
end

end Expr

namespace Context

/-- The names stand in the order of their registers, which have no gaps. -/
structure Dense (context : Context) : Prop where
  distinct : context.registers.keys.Nodup
  numbers : context.registers.values = List.range context.next

theorem dense_empty : Dense {} :=
  ⟨List.nodup_nil, rfl⟩

/-- The register belongs to some name. -/
def Holds (context : Context) (register : Int) : Prop :=
  ∃ name, ∃ number : Nat, register = number ∧ context.registers.find? name = some number

/-- The contexts have the same registers. -/
def SameRegisters (context after : Context) : Prop :=
  after.registers = context.registers ∧ after.next = context.next

theorem holds_of_same {context after : Context} (same : SameRegisters context after)
    {register : Int} : after.Holds register ↔ context.Holds register := by
  simp only [Holds, same.1]

theorem Dense.of_same {context after : Context} (dense : context.Dense)
    (same : SameRegisters context after) : after.Dense := by
  constructor
  · rw [same.1]
    exact dense.distinct
  · rw [same.1, same.2]
    exact dense.numbers

/-- Drawing the labels of a branch leaves the registers as they are. -/
theorem registers_drawn {context second third after : Context} {onFalse onTrue done : String}
    (drawn : freshLabel "fls" context = .ok onFalse second)
    (drawnNext : freshLabel "tru" second = .ok onTrue third)
    (drawnLast : freshLabel "done" third = .ok done after) : SameRegisters context after := by
  obtain ⟨_, _, rfl⟩ := freshLabel_eq_ok_iff.mp drawn
  obtain ⟨_, _, rfl⟩ := freshLabel_eq_ok_iff.mp drawnNext
  obtain ⟨_, _, rfl⟩ := freshLabel_eq_ok_iff.mp drawnLast
  exact ⟨rfl, rfl⟩

theorem assign_cases {name : String} {register : Nat} {context after : Context}
    (assigned : assign name context = .ok register after) :
    (context.registers.find? name = some register ∧ after = context) ∨
    (context.registers.find? name = none ∧ register = context.next ∧
      after = { context with
        registers := context.registers.insert name context.next
        next := context.next + 1 }) := by
  unfold assign at assigned
  split at assigned
  · rename_i found
    cases assigned
    exact Or.inl ⟨found, rfl⟩
  · rename_i absent
    cases assigned
    exact Or.inr ⟨absent, rfl, rfl⟩

theorem assign_found {name : String} {register : Nat} {context after : Context}
    (assigned : assign name context = .ok register after) :
    after.registers.find? name = some register := by
  obtain ⟨found, rfl⟩ | ⟨_, rfl, rfl⟩ := assign_cases assigned
  · exact found
  · simp

theorem assign_kept {name other : String} {register number : Nat} {context after : Context}
    (assigned : assign name context = .ok register after)
    (found : context.registers.find? other = some number) :
    after.registers.find? other = some number := by
  obtain ⟨_, rfl⟩ | ⟨absent, _, rfl⟩ := assign_cases assigned
  · exact found
  · have different : name ≠ other := by
      rintro rfl
      rw [absent] at found
      contradiction
    simpa [different] using found

theorem holds_assign {name : String} {register : Nat} {context after : Context}
    (assigned : assign name context = .ok register after) {number : Int}
    (holds : context.Holds number) : after.Holds number := by
  obtain ⟨other, number, rfl, found⟩ := holds
  exact ⟨other, number, rfl, assign_kept assigned found⟩

theorem assign_holds {name : String} {register : Nat} {context after : Context}
    (assigned : assign name context = .ok register after) {number : Int}
    (holds : after.Holds number) : context.Holds number ∨ number = register := by
  obtain ⟨_, rfl⟩ | ⟨_, rfl, rfl⟩ := assign_cases assigned
  · exact Or.inl holds
  · obtain ⟨other, number, rfl, found⟩ := holds
    rw [Table.find?_insert] at found
    split at found
    · exact Or.inr (congrArg Int.ofNat (Option.some.inj found).symm)
    · exact Or.inl ⟨other, number, rfl, found⟩

theorem assign_keys {name : String} {register : Nat} {context after : Context}
    (assigned : assign name context = .ok register after) {other : String}
    (member : other ∈ after.registers.keys) : other ∈ context.registers.keys ∨ other = name := by
  obtain ⟨_, rfl⟩ | ⟨absent, _, rfl⟩ := assign_cases assigned
  · exact Or.inl member
  · simpa [(Table.insert_new absent _).1] using member

theorem Dense.assign {name : String} {register : Nat} {context after : Context}
    (dense : context.Dense) (assigned : assign name context = .ok register after) :
    after.Dense := by
  obtain ⟨_, rfl⟩ | ⟨absent, _, rfl⟩ := assign_cases assigned
  · exact dense
  · obtain ⟨keys, values⟩ := Table.insert_new absent context.next
    have new := Table.find?_eq_none_iff.mp absent
    constructor
    · change (context.registers.insert name context.next).keys.Nodup
      rw [keys]
      refine List.nodup_append.mpr ⟨dense.distinct, by simp, ?_⟩
      rintro other member _ last rfl
      exact new (List.mem_singleton.mp last ▸ member)
    · change (context.registers.insert name context.next).values = List.range (context.next + 1)
      rw [values, dense.numbers, List.range_succ]

theorem Dense.lt {context : Context} (dense : context.Dense) {name : String} {register : Nat}
    (found : context.registers.find? name = some register) : register < context.next := by
  have member : register ∈ context.registers.values :=
    List.mem_map.mpr ⟨_, Table.mem_of_lookup found, rfl⟩
  rw [dense.numbers] at member
  exact List.mem_range.mp member

/-- No two names share a register. -/
theorem Dense.injective {context : Context} (dense : context.Dense) {name other : String}
    {register : Nat} (found : context.registers.find? name = some register)
    (otherFound : context.registers.find? other = some register) : name = other := by
  have distinct : (context.registers.entries.map Prod.snd).Nodup := by
    rw [show context.registers.entries.map Prod.snd = List.range context.next from dense.numbers]
    exact List.nodup_range
  have same := List.inj_on_of_nodup_map distinct (Table.mem_of_lookup found)
    (Table.mem_of_lookup otherFound) rfl
  exact congrArg Prod.fst same

/-- There are as many registers as names. -/
theorem Dense.next_eq {context : Context} (dense : context.Dense) :
    context.next = context.registers.keys.length := by
  have lengths := congrArg List.length dense.numbers
  simp only [Table.values, List.length_map, List.length_range] at lengths
  rw [← lengths, Table.keys, List.length_map]

/-- With fewer names than there are numbers that may be written, each register may be written. -/
theorem Dense.fits {context : Context} (dense : context.Dense) {names : List String}
    (keys : ∀ name ∈ context.registers.keys, name ∈ names)
    (few : names.dedup.length < Numeral.ceiling) {n : Int} (held : context.Holds n) :
    Numeral.Fits n := by
  obtain ⟨name, register, rfl, found⟩ := held
  have below := dense.lt found
  have count : context.registers.keys.length ≤ names.dedup.length := by
    refine (List.subperm_of_subset dense.distinct ?_).length_le
    exact fun name member => List.mem_dedup.mpr (keys name member)
  rw [← dense.next_eq] at count
  rw [Numeral.fits_natCast]
  omega

end Context

namespace Code

/-- Every register is known, or stored to, before it is loaded. -/
def LoadsStored (known : Int → Prop) (code : Code) : Prop :=
  ∀ before register after, code = before ++ .load register :: after →
    known register ∨ .store register ∈ before

theorem LoadsStored.free {known : Int → Prop} {code : Code}
    (free : ∀ register, .load register ∉ code) : LoadsStored known code := by
  intro before register after split
  exact absurd (by simp [split]) (free register)

theorem LoadsStored.single {known : Int → Prop} {register : Int} (ready : known register) :
    LoadsStored known [.load register] := by
  intro before loaded after split
  cases before with
  | nil =>
    cases split
    exact Or.inl ready
  | cons other rest => simp at split

theorem LoadsStored.append {known : Int → Prop} {first second : Code}
    (ahead : LoadsStored known first)
    (following : LoadsStored (fun register => known register ∨ .store register ∈ first) second) :
    LoadsStored known (first ++ second) := by
  intro before register after split
  have reached : ∀ between, before = first ++ between →
      second = between ++ .load register :: after → known register ∨ .store register ∈ before := by
    rintro between rfl inside
    rcases following between register after inside with (earlier | stored) | stored
    · exact Or.inl earlier
    · exact Or.inr (List.mem_append_left _ stored)
    · exact Or.inr (List.mem_append_right _ stored)
  rcases List.append_eq_append_iff.mp split with ⟨between, shape, inside⟩ | ⟨between, shape, inside⟩
  · exact reached between shape inside
  · cases between with
    | nil => exact reached [] (by simpa using shape.symm) (by simpa using inside.symm)
    | cons instr rest =>
      obtain ⟨rfl, _⟩ := List.cons.inj inside
      exact ahead before register rest shape

theorem LoadsStored.mono {known more : Int → Prop} {code : Code} (stored : LoadsStored known code)
    (wider : ∀ register, known register → more register) : LoadsStored more code :=
  fun before register after split => (stored before register after split).imp_left (wider register)

end Code

namespace Compiler
open Context

/-- The names bound within a phrase. -/
@[simp] def Phrase.boundNames : Phrase → List String
  | .expr single => single.boundNames
  | .operands _ exprs | .bindings exprs | .bodies exprs => Expr.allBoundNames exprs

/-- The integer literals of a phrase. -/
@[simp] def Phrase.integers : Phrase → List Int
  | .expr single => single.integers
  | .operands _ exprs | .bindings exprs | .bodies exprs => Expr.allIntegers exprs

/-- A name that has a register keeps it. -/
theorem Emits.kept {context after : Context} {phrase : Phrase} {code : Code}
    (emitted : Emits context phrase code after) {name : String} {register : Nat}
    (found : context.registers.find? name = some register) :
    after.registers.find? name = some register := by
  induction emitted with
  | int | bool | var | group | noOperands | noBindings | noBodies => exact found
  | println _ _ ih => exact ih found
  | arith _ _ _ ih ihs | letIn _ _ _ ih ihs | body _ _ ih ihs | operand _ _ ih ihs =>
    exact ihs (ih found)
  | binding _ stored _ ih ihs => exact ihs (assign_kept stored (ih found))
  | ifElse _ _ first second third _ _ ihTest ihTrue ihFalse =>
    refine ihFalse (ihTrue ?_)
    rw [(registers_drawn first second third).1]
    exact ihTest found

theorem Emits.holds {context after : Context} {phrase : Phrase} {code : Code}
    (emitted : Emits context phrase code after) {register : Int}
    (holds : context.Holds register) : after.Holds register := by
  obtain ⟨name, number, same, found⟩ := holds
  exact ⟨name, number, same, emitted.kept found⟩

theorem Emits.dense {context after : Context} {phrase : Phrase} {code : Code}
    (emitted : Emits context phrase code after) (dense : context.Dense) : after.Dense := by
  induction emitted with
  | int | bool | var | group | noOperands | noBindings | noBodies => exact dense
  | println _ _ ih => exact ih dense
  | arith _ _ _ ih ihs | letIn _ _ _ ih ihs | body _ _ ih ihs | operand _ _ ih ihs =>
    exact ihs (ih dense)
  | binding _ stored _ ih ihs => exact ihs ((ih dense).assign stored)
  | ifElse _ _ first second third _ _ ihTest ihTrue ihFalse =>
    exact ihFalse (ihTrue ((ihTest dense).of_same (registers_drawn first second third)))

/-- Only names that the phrase binds are given registers. -/
theorem Emits.keys {context after : Context} {phrase : Phrase} {code : Code}
    (emitted : Emits context phrase code after) {names : List String}
    (bound : ∀ name ∈ phrase.boundNames, name ∈ names)
    (known : ∀ name ∈ context.registers.keys, name ∈ names) :
    ∀ name ∈ after.registers.keys, name ∈ names := by
  induction emitted with
  | int | bool | var | group | noOperands | noBindings | noBodies => exact known
  | println _ _ ih => exact ih (by simpa [Expr.boundNames, Expr.allBoundNames] using bound) known
  | arith _ _ _ ih ihs | letIn _ _ _ ih ihs | body _ _ ih ihs | operand _ _ ih ihs =>
    simp only [Phrase.boundNames, Expr.boundNames, Expr.allBoundNames, List.mem_append, or_imp,
      forall_and] at bound
    refine ihs ?_ (ih bound.1 known)
    simpa [Expr.allBoundNames, or_imp, forall_and] using bound.2
  | binding _ stored _ ih ihs =>
    simp only [Phrase.boundNames, Expr.boundNames, Expr.allBoundNames, List.mem_append,
      List.mem_cons, or_imp, forall_and, forall_eq] at bound
    obtain ⟨⟨here, value⟩, rest⟩ := bound
    refine ihs rest fun name member => ?_
    rcases assign_keys stored member with earlier | rfl
    · exact ih value known name earlier
    · exact here
  | ifElse _ _ first second third _ _ ihTest ihTrue ihFalse =>
    simp only [Phrase.boundNames, Expr.boundNames, Expr.allBoundNames, List.mem_append, or_imp,
      forall_and] at bound
    have tested := ihTest bound.1 known
    rw [← (registers_drawn first second third).1] at tested
    exact ihFalse bound.2.2.1 (ihTrue bound.2.1 tested)

/-- A register that is new after a phrase is stored to in the code of the phrase. -/
theorem Emits.stored {context after : Context} {phrase : Phrase} {code : Code}
    (emitted : Emits context phrase code after) {register : Int} (held : after.Holds register) :
    context.Holds register ∨ .store register ∈ code := by
  induction emitted with
  | int | bool | var | group | noOperands | noBindings | noBodies => exact Or.inl held
  | println _ _ ih => exact (ih held).imp_right (List.mem_append_left _)
  | arith _ _ _ ih ihs | letIn _ _ _ ih ihs | body _ _ ih ihs | operand _ _ ih ihs =>
    rcases ihs held with earlier | stored
    · exact (ih earlier).imp_right fun member => by simp [member]
    · exact Or.inr (List.mem_append_right _ stored)
  | binding _ assigned _ ih ihs =>
    rcases ihs held with earlier | stored
    · rcases assign_holds assigned earlier with earlier | rfl
      · exact (ih earlier).imp_right fun member => by simp [member]
      · exact Or.inr (by simp)
    · exact Or.inr (List.mem_append_right _ stored)
  | ifElse _ _ first second third _ _ ihTest ihTrue ihFalse =>
    rcases ihFalse held with earlier | stored
    · rcases ihTrue earlier with earlier | stored
      · rw [holds_of_same (registers_drawn first second third)] at earlier
        exact (ihTest earlier).imp_right fun member => by simp [member]
      · exact Or.inr (by simp [stored])
    · exact Or.inr (by simp [stored])

/-- Emitted code loads what its context holds or what it has stored itself. -/
theorem Emits.loads {context after : Context} {phrase : Phrase} {code : Code}
    (emitted : Emits context phrase code after) : Code.LoadsStored context.Holds code := by
  induction emitted with
  | int | bool | group | noOperands | noBindings | noBodies => exact .free (by simp)
  | var assigned => exact .single ⟨_, _, rfl, assigned⟩
  | println _ _ ih => exact ih.append (.free (by simp))
  | arith _ start _ ih ihs => exact ih.append (ihs.mono fun _ => start.stored)
  | letIn _ bound _ ih ihs => exact ih.append (ihs.mono fun _ => bound.stored)
  | body head _ ih ihs => exact ih.append (ihs.mono fun _ => head.stored)
  | operand argument _ ih ihs =>
    refine (ih.append (.free (by simp))).append (ihs.mono fun register held => ?_)
    exact (argument.stored held).imp_right (List.mem_append_left _)
  | binding evaluated assigned _ ih ihs =>
    refine (ih.append (.free (by simp))).append (ihs.mono fun register held => ?_)
    rcases assign_holds assigned held with earlier | rfl
    · exact (evaluated.stored earlier).imp_right (List.mem_append_left _)
    · exact Or.inr (by simp)
  | ifElse _ test first second third whenTrue _ ihTest ihTrue ihFalse =>
    refine ((((ihTest.append (.free (by simp))).append (ihTrue.mono ?onTrue)).append
      (.free (by simp))).append (ihFalse.mono ?onFalse)).append (.free (by simp))
    case onTrue =>
      intro register held
      rw [holds_of_same (registers_drawn first second third)] at held
      exact (test.stored held).imp_right fun member => by simp [member]
    case onFalse =>
      intro register held
      rcases whenTrue.stored held with earlier | stored
      · rw [holds_of_same (registers_drawn first second third)] at earlier
        exact (test.stored earlier).imp_right fun member => by simp [member]
      · exact Or.inr (by simp [stored])

/-- The numbers in emitted code are literals, truth values and registers. -/
theorem Emits.fits {context after : Context} {phrase : Phrase} {code : Code}
    (emitted : Emits context phrase code after) (literals : ∀ n ∈ phrase.integers, Numeral.Fits n)
    (registers : ∀ n, after.Holds n → Numeral.Fits n) :
    ∀ instr ∈ code, ∀ n ∈ instr.integers, Numeral.Fits n := by
  induction emitted with
  | int => simpa [Instr.integers, Expr.integers] using literals
  | @bool _ value => simpa [Instr.integers, Expr.truth] using Numeral.fits_truth value
  | var assigned => simpa [Instr.integers] using registers _ ⟨_, _, rfl, assigned⟩
  | group | noOperands | noBindings | noBodies => simp
  | println _ _ ih =>
    have earlier := ih (by simpa [Expr.integers, Expr.allIntegers] using literals) registers
    simpa [or_imp, forall_and, Instr.integers] using earlier
  | arith _ _ further ih ihs | letIn _ _ further ih ihs | body _ further ih ihs =>
    simp only [Phrase.integers, Expr.integers, Expr.allIntegers, List.mem_append, or_imp,
      forall_and] at literals
    have earlier := ih (by simpa using literals.1) fun n held => registers n (further.holds held)
    have later := ihs (by simpa [Expr.allIntegers, or_imp, forall_and] using literals.2) registers
    simpa [or_imp, forall_and] using ⟨earlier, later⟩
  | operand _ further ih ihs =>
    simp only [Phrase.integers, Expr.allIntegers, List.mem_append, or_imp, forall_and] at literals
    have earlier := ih literals.1 fun n held => registers n (further.holds held)
    have later := ihs literals.2 registers
    simpa [or_imp, forall_and, Instr.integers] using ⟨earlier, later⟩
  | binding _ stored further ih ihs =>
    simp only [Phrase.integers, Expr.integers, Expr.allIntegers, List.mem_append, or_imp,
      forall_and] at literals
    have earlier := ih literals.1 fun n held =>
      registers n (further.holds (holds_assign stored held))
    have register := registers _ (further.holds ⟨_, _, rfl, assign_found stored⟩)
    have later := ihs literals.2 registers
    simpa [or_imp, forall_and, Instr.integers] using ⟨earlier, register, later⟩
  | ifElse _ _ first second third whenTrue whenFalse ihTest ihTrue ihFalse =>
    simp only [Phrase.integers, Expr.integers, Expr.allIntegers, List.mem_append, or_imp,
      forall_and] at literals
    have tested := ihTest literals.1 fun n held => registers n (whenFalse.holds (whenTrue.holds
      ((holds_of_same (registers_drawn first second third)).mpr held)))
    have taken := ihTrue literals.2.1 fun n held => registers n (whenFalse.holds held)
    have other := ihFalse literals.2.2.1 registers
    simpa [or_imp, forall_and, Instr.integers] using ⟨tested, taken, other⟩

/-- The code of a program has a text if its literals have and it does not bind too many names. -/
theorem Emits.encodes {phrase : Phrase} {code : Code} {after : Context}
    (emitted : Emits {} phrase code after) (literals : ∀ n ∈ phrase.integers, Numeral.Fits n)
    (few : phrase.boundNames.dedup.length < Numeral.ceiling) : ∃ text, encode code = .ok text := by
  have keys := emitted.keys (fun _ bound => bound) fun _ none => by contradiction
  have fits := emitted.fits literals fun n => (emitted.dense dense_empty).fits keys few
  exact ⟨_, Code.encode_eq_ok_iff.mpr ⟨fits, rfl⟩⟩

end Compiler
end StackScheme
