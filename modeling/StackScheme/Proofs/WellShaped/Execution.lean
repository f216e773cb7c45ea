import StackScheme.Proofs.Compiler.Simulation
import StackScheme.Proofs.WellShaped.Evaluation

/-! The code of a well-shaped program does not go wrong: nothing is popped from an empty stack, and
no register is loaded that is not set. What a `let` leaves behind only makes the stack higher, so it
is enough to know how high the stack is at least. -/
namespace StackScheme

namespace Structured
open Stateful Compiler Context

/-- Each of the names has a value in its register, and the stack is at least this high. -/
structure Holds (names : Table String Nat) (known : Finset String) (height : Nat)
    (memory : Memory) : Prop where
  high : height ≤ memory.stack.length
  stored : ∀ name ∈ known, ∃ register : Nat, ∃ value, names.find? name = some register ∧
    memory.registers.find? register = some value

/-- The action cannot go wrong, unless a number is too long to be printed. -/
abbrev Runs (before : Memory → Prop) (action : MemoryM Unit) (after : Memory → Prop) : Prop :=
  Ensures (· = .unprintable) before action fun _ => after

/-- The execution of the phrase is sound for these names, whatever the height of the stack. -/
def Sound (names : Table String Nat) (known : Finset String) : Phrase → Prop
  | .expr expr => ∀ height, Runs (Holds names known height) (execute names expr)
      (Holds names (expr.assigned known) (height + expr.yields.toNat))
  | .operands op args => ∀ height, Runs (Holds names known (height + 1))
      (executeOperands names op args) (Holds names (Expr.allAssigned known args) (height + 1))
  | .bindings members => ∀ height, Runs (Holds names known height)
      (executeBindings names members)
      (Holds names (Expr.bindingsAssigned known members) height)
  | .bodies bodies => ∀ height, Runs (Holds names known height) (executeAll names bodies)
      (Holds names (Expr.allAssigned known bodies) (height + (Expr.lastYields bodies).toNat))

section Rules
variable {names : Table String Nat} {known : Finset String} {height : Nat}

theorem Holds.weaken {fewer : Finset String} {less : Nat} {memory : Memory}
    (holds : Holds names known height memory) (names_fewer : fewer ⊆ known)
    (lower : less ≤ height) : Holds names fewer less memory :=
  ⟨lower.trans holds.high, fun name member => holds.stored name (names_fewer member)⟩

theorem runs_push (value : Int) :
    Runs (Holds names known height) (Memory.push value) (Holds names known (height + 1)) := by
  intro memory holds
  exact ⟨Nat.succ_le_succ holds.high, holds.stored⟩

theorem runs_pop {next : Int → MemoryM Unit} {after : Memory → Prop}
    (rest : ∀ value, Runs (Holds names known height) (next value) after) :
    Runs (Holds names known (height + 1)) (Memory.pop >>= next) after := by
  rintro ⟨_ | ⟨value, stack⟩, registers, output⟩ ⟨high, stored⟩
  · simp at high
  · exact rest value ⟨stack, registers, output⟩ ⟨Nat.le_of_succ_le_succ high, stored⟩

theorem runs_printLine (value : Int) :
    Runs (Holds names known height) (Memory.printLine value) (Holds names known height) := by
  intro memory holds
  by_cases fits : Numeral.Fits value
  · simp only [Memory.printLine, Numeral.write, fits, if_true]
    exact ⟨holds.high, holds.stored⟩
  · simp only [Memory.printLine, Numeral.write, fits, if_false]

theorem runs_combine (op : Arith) : Runs (Holds names known (height + 2)) (Memory.combine op)
    (Holds names known (height + 1)) := by
  rw [Memory.combine_eq]
  exact runs_pop fun _ => runs_pop fun _ => runs_push _

theorem runs_fetch {name : String} (bound : name ∈ known) :
    Runs (Holds names known height) (fetch names name) (Holds names known (height + 1)) := by
  intro memory holds
  obtain ⟨register, value, assigned, found⟩ := holds.stored name bound
  have loaded : Memory.load register memory = .ok value memory := by
    simp only [Memory.load, found]
  simp only [fetch, assigned, bind_ok loaded]
  exact runs_push value memory holds

theorem runs_keep {name : String} {register : Nat} (assigned : names.find? name = some register) :
    Runs (Holds names known (height + 1)) (keep names name)
      (Holds names (insert name known) height) := by
  rw [keep, assigned]
  refine runs_pop fun value memory holds => ⟨holds.high, fun other member => ?_⟩
  simp only [Table.find?_insert]
  by_cases same : name = other
  · exact ⟨register, value, same ▸ assigned, if_pos rfl⟩
  · obtain ⟨number, kept, given, found⟩ :=
      holds.stored other ((Finset.mem_insert.mp member).resolve_left (Ne.symm same))
    -- two names may have the same register here: then this one has the new value
    by_cases shared : (register : Int) = number
    · exact ⟨number, value, given, if_pos shared⟩
    · exact ⟨number, kept, given, by rw [if_neg shared, found]⟩

end Rules

theorem sound_execution {context after : Context} {phrase : Phrase} {code : Code}
    (emitted : Emits context phrase code after) {names : Table String Nat}
    (knows : Knows names after) {known : Finset String}
    (wellShaped : phrase.wellShaped known = true) : Sound names known phrase := by
  induction emitted generalizing known with
  | int | bool =>
    intro height
    rw [execute]
    exact runs_push _
  | var =>
    intro height
    rw [execute]
    exact runs_fetch (by simpa [Expr.wellShaped] using wellShaped)
  | println operator _ ih =>
    simp only [Phrase.wellShaped, Expr.wellShaped.eq_5 _ _ _ operator, Expr.operandsWellShaped,
      Bool.and_eq_true] at wellShaped
    obtain ⟨⟨yields, argument⟩, _⟩ := wellShaped
    have evaluated := ih knows argument
    intro height
    rw [execute.eq_5 _ _ _ operator, Expr.assigned.eq_5 _ _ _ operator]
    rw [Sound, yields] at evaluated
    refine (evaluated height).bind fun _ => runs_pop fun value => ?_
    simpa [Expr.yields, Expr.allAssigned, operator] using runs_printLine value
  | arith operator _ further ih ihs =>
    rw [Phrase.wellShaped, Expr.wellShaped.eq_6 _ _ _ _ operator, Expr.operandsWellShaped]
      at wellShaped
    simp only [Bool.and_eq_true] at wellShaped
    obtain ⟨⟨yields, first⟩, others⟩ := wellShaped
    have start := ih (knows.earlier further) first
    intro height
    rw [execute.eq_6 _ _ _ _ _ _ operator, Expr.assigned.eq_6 _ _ _ _ operator,
      Expr.yields.eq_5 _ _ _ operator]
    rw [Sound, yields] at start
    exact (start height).bind fun _ => ihs knows others height
  | letIn operator _ inside ih ihs =>
    simp only [Phrase.wellShaped, Expr.wellShaped.eq_7 _ _ _ _ operator, Bool.and_eq_true]
      at wellShaped
    intro height
    rw [execute.eq_7 _ _ _ _ operator, Expr.assigned.eq_7 _ _ _ _ operator,
      Expr.yields.eq_6 _ _ _ operator]
    exact (ih (knows.earlier inside) wellShaped.1 height).bind fun _ =>
      ihs knows wellShaped.2 height
  | ifElse operator _ first second third whenTrue whenFalse ihTest ihTrue ihFalse =>
    simp only [Phrase.wellShaped, Expr.wellShaped.eq_8 _ _ _ _ _ operator, Bool.and_eq_true]
      at wellShaped
    obtain ⟨⟨⟨yields, tested⟩, positive⟩, negative⟩ := wellShaped
    have knowsTrue := knows.earlier whenFalse
    have knowsTest := (knowsTrue.earlier whenTrue).of_same (registers_drawn first second third)
    have test := ihTest knowsTest tested
    intro height
    rw [execute.eq_8 _ _ _ _ _ operator, Expr.assigned.eq_8 _ _ _ _ _ operator,
      Expr.yields.eq_7 _ _ _ _ operator]
    rw [Sound, yields] at test
    refine (test height).bind fun _ => runs_pop fun value => ?_
    split
    · refine (ihTrue knowsTrue positive height).weaken fun _ memory holds => ?_
      exact holds.weaken Finset.inter_subset_left
        (Nat.add_le_add_left (Bool.toNat_le_toNat (Bool.and_le_left _ _)) height)
    · refine (ihFalse knows negative height).weaken fun _ memory holds => ?_
      exact holds.weaken Finset.inter_subset_right
        (Nat.add_le_add_left (Bool.toNat_le_toNat (Bool.and_le_right _ _)) height)
  | group operator =>
    intro height
    rw [execute.eq_9 _ _ _ operator]
    exact .pure fun memory holds => by simpa [Expr.assigned, Expr.yields, operator] using holds
  | noOperands =>
    intro height
    rw [executeOperands]
    exact .pure fun memory holds => holds
  | operand _ further ih ihs =>
    simp only [Phrase.wellShaped, Expr.operandsWellShaped, Bool.and_eq_true] at wellShaped
    obtain ⟨⟨yields, first⟩, others⟩ := wellShaped
    have argument := ih (knows.earlier further) first
    intro height
    rw [executeOperands]
    rw [Sound, yields] at argument
    refine (argument (height + 1)).bind fun _ => (runs_combine _).bind fun _ => ?_
    exact ihs knows others height
  | noBindings =>
    intro height
    rw [executeBindings]
    exact .pure fun memory holds => holds
  | binding _ stored further ih ihs =>
    simp only [Phrase.wellShaped, Expr.bindingsWellShaped, Bool.and_eq_true] at wellShaped
    obtain ⟨⟨yields, value⟩, others⟩ := wellShaped
    have knowsStored := knows.earlier further
    have evaluated := ih (fun name register found =>
      knowsStored name register (assign_kept stored found)) value
    have assigned := knowsStored _ _ (assign_found stored)
    intro height
    rw [executeBindings]
    rw [Sound, yields] at evaluated
    exact (evaluated height).bind fun _ => (runs_keep assigned).bind fun _ =>
      ihs knows others height
  | noBodies =>
    intro height
    rw [executeAll]
    exact .pure fun memory holds => holds
  | body _ further ih ihs =>
    simp only [Phrase.wellShaped, Expr.allWellShaped, Bool.and_eq_true] at wellShaped
    intro height
    rw [executeAll]
    refine (ih (knows.earlier further) wellShaped.1 height).bind fun _ => ?_
    refine (ihs knows wellShaped.2 _).weaken fun _ memory holds => ?_
    refine holds.weaken (Finset.Subset.refl _) ?_
    rw [Nat.add_assoc]
    exact Nat.add_le_add_left (Expr.toNat_lastYields_cons _ _) height

end Structured

namespace Compiler
open Stateful

/-- Compiled and evaluated, a well-shaped source comes to its end, unless it prints a number that is
too long to be written. -/
theorem wellShaped_safe {source text : String} {program : Program}
    (compiled : bytecode source = .ok text) (read : Reader.readSource source = .ok program)
    (wellShaped : Expr.allWellShaped ∅ program.exprs = true) :
    (∀ steps, (Text.lines text).length ≤ steps →
      match Machine.loadAndRun steps text {} with
      | .ok ending _ => ending = .halted
      | .error failure _ => failure = .numeral .tooLongToWrite) ∧
    match Evaluator.evaluateSource source {} with
    | .ok _ _ => True
    | .error failure _ => failure = .numeral .tooLongToWrite := by
  obtain ⟨_, code, after, same, done, encoded⟩ := bytecode_eq_ok_iff.mp compiled
  obtain rfl := Except.ok.inj (read.symm.trans same)
  have emitted := compileProgram_emits done
  constructor
  · intro steps enough
    have agrees := emitted.agrees encoded ((emitted.extent_le encoded).trans enough)
    have executed := Structured.sound_execution emitted (.self after) wellShaped 0 {}
      ⟨Nat.zero_le _, fun name none => by simp at none⟩
    cases result : Phrase.execute after.registers (.bodies program.exprs) {} with
    | ok done memory =>
      rw [result] at agrees
      cases ran : Machine.loadAndRun steps text {} with
      | ok ending machine =>
        rw [ran] at agrees
        exact agrees.1
      | error failure machine =>
        rw [ran] at agrees
        exact agrees.elim
    | error trouble memory =>
      rw [Phrase.execute] at result
      simp only [result] at executed
      subst executed
      rw [Phrase.execute, result] at agrees
      cases ran : Machine.loadAndRun steps text {} with
      | ok ending machine =>
        rw [ran] at agrees
        exact agrees.elim
      | error failure machine =>
        rw [ran] at agrees
        cases agrees.2
        rfl
  · rw [Evaluator.evaluateSource_read read]
    have evaluated :=
      Evaluator.settles_program emitted wellShaped {} fun name none => by simp at none
    cases result : Evaluator.evaluateProgram program {} with
    | ok done state => trivial
    | error failure state =>
      simp only [result] at evaluated
      exact evaluated

/-- Both branches bind the name that is read after them, and one of them leaves a value behind. -/
theorem wellShaped_safe_branches :
    let source := "(if 1 (let ([y 4]) 9 y) (let ([y 5]) y))\n(println (+ y 2))"
    ∃ text, bytecode source = .ok text ∧
      (∀ steps, (Text.lines text).length ≤ steps →
        match Machine.loadAndRun steps text {} with
        | .ok ending _ => ending = .halted
        | .error failure _ => failure = .numeral .tooLongToWrite) ∧
      match Evaluator.evaluateSource source {} with
      | .ok _ _ => True
      | .error failure _ => failure = .numeral .tooLongToWrite := by
  intro source
  have compiled : bytecode source =
      .ok ("PUSH 1\nJZ fls0\ntru0:\nPUSH 4\nSTOR 0\nPUSH 9\nLOAD 0\nJMP done0\nfls0:\nPUSH 5\n" ++
        "STOR 0\nLOAD 0\ndone0:\nLOAD 0\nPUSH 2\nADD\nPRINT\n") := by
    decide +kernel
  have shaped : (Reader.readSource source).map (fun program => Expr.allWellShaped ∅ program.exprs) =
      .ok true := by
    decide +kernel
  cases read : Reader.readSource source with
  | error failure =>
    rw [read] at shaped
    contradiction
  | ok program =>
    rw [read] at shaped
    have safe := wellShaped_safe compiled read (Except.ok.inj shaped)
    exact ⟨_, compiled, safe⟩

end Compiler
end StackScheme
