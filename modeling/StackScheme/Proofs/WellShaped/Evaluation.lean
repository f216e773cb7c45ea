import StackScheme.Evaluator
import StackScheme.Proofs.Compiler.Emission
import StackScheme.Proofs.WellShaped.Assignment

/-! The evaluation of a well-shaped program does not go wrong: no value is missing where one is
needed, and every name that is looked up has one. -/
namespace StackScheme

namespace Compiler

/-- The names that surely have a value after the phrase. -/
@[simp] def Phrase.assigned (known : Finset String) : Phrase → Finset String
  | .expr single => single.assigned known
  | .operands _ exprs | .bodies exprs => Expr.allAssigned known exprs
  | .bindings members => Expr.bindingsAssigned known members

@[simp] def Phrase.wellShaped (known : Finset String) : Phrase → Bool
  | .expr single => single.wellShaped known
  | .operands _ exprs => Expr.operandsWellShaped known exprs
  | .bindings members => Expr.bindingsWellShaped known members
  | .bodies exprs => Expr.allWellShaped known exprs

end Compiler

namespace Evaluator
open Stateful Compiler

/-- The evaluation cannot go wrong, unless a number is too long to be printed. -/
abbrev Settles {α : Type} (before : Evaluation → Prop) (evaluation : EvalM α)
    (after : α → Evaluation → Prop) : Prop :=
  Ensures (· = .numeral .tooLongToWrite) before evaluation after

/-- Each of the names has a value. -/
def Binds (known : Finset String) (state : Evaluation) : Prop :=
  ∀ name ∈ known, ∃ value, state.env.find? name = some value

/-- The expression is evaluated without fail, and to a value if it surely has one. -/
def Yields (known : Finset String) (expr : Expr) : Prop :=
  Settles (Binds known) (evaluate expr) fun value state =>
    Binds (expr.assigned known) state ∧ (expr.yields = true → value.isSome = true)

/-- The evaluation of the phrase is sound for these names. -/
def Sound (known : Finset String) : Phrase → Prop
  | .expr expr => Yields known expr
  | .operands op args => ∀ soFar, Settles (Binds known) (evaluateOperands op soFar args)
      fun _ => Binds (Expr.allAssigned known args)
  | .bindings members => Settles (Binds known) (evaluateBindings members)
      fun _ => Binds (Expr.bindingsAssigned known members)
  | .bodies bodies => ∀ last, Settles (Binds known) (evaluateBodies last bodies)
      fun value state => Binds (Expr.allAssigned known bodies) state ∧
        (bodies = [] ∧ last.isSome = true ∨ Expr.lastYields bodies = true → value.isSome = true)

section Rules
variable {α : Type} {known : Finset String} {before : Evaluation → Prop}

/-- The value of an expression that surely has one is there when it is needed. -/
theorem settles_value {expr : Expr} {next : Int → EvalM α} {after : α → Evaluation → Prop}
    (evaluated : Yields known expr) (yields : expr.yields = true)
    (rest : ∀ number, Settles (Binds (expr.assigned known)) (next number) after) :
    Settles (Binds known) (evaluate expr >>= fun value => demand expr value >>= next) after := by
  refine evaluated.bind fun value state holds => ?_
  obtain ⟨number, rfl⟩ := Option.isSome_iff_exists.mp (holds.2 yields)
  exact rest number state holds.1

theorem settles_printLine (value : Int) :
    Settles (Binds known) (printLine value) fun _ => Binds known := by
  intro state holds
  by_cases fits : Numeral.Fits value
  · simp only [printLine, Numeral.write, fits, if_true]
    exact holds
  · simp only [printLine, Numeral.write, fits, if_false]

theorem settles_lookup {name : String} (bound : name ∈ known) :
    Settles (Binds known) (lookup name) fun _ => Binds known := by
  intro state holds
  obtain ⟨value, found⟩ := holds name bound
  simp only [lookup, found]
  exact holds

theorem settles_bindName (name : String) (value : Int) :
    Settles (Binds known) (bindName name value) fun _ => Binds (insert name known) := by
  intro state holds other member
  simp only [Table.find?_insert]
  by_cases same : name = other
  · exact ⟨value, if_pos same⟩
  · rw [if_neg same]
    exact holds other ((Finset.mem_insert.mp member).resolve_left (Ne.symm same))

theorem settles_remark (expr : Expr) (bodies : List Expr) :
    Settles (Binds known) (remark expr bodies) fun _ => Binds known := by
  intro state holds
  by_cases empty : bodies.isEmpty
  · simp only [remark, empty, if_true]
    exact holds
  · simp only [remark, empty]
    exact holds

end Rules

/-- The induction follows the rules of compiling, because only what compiles is known to have the
right number of operands. -/
theorem sound_evaluation {context after : Context} {phrase : Phrase} {code : Code}
    (emitted : Emits context phrase code after) {known : Finset String}
    (wellShaped : phrase.wellShaped known = true) : Sound known phrase := by
  induction emitted generalizing known with
  | int | bool =>
    rw [Sound, Yields, evaluate]
    exact .pure fun state holds => ⟨holds, fun _ => rfl⟩
  | var =>
    rw [Sound, Yields, evaluate]
    refine (settles_lookup (by simpa [Expr.wellShaped] using wellShaped)).bind fun value => ?_
    exact .pure fun state holds => ⟨holds, fun _ => rfl⟩
  | println operator _ ih =>
    simp only [Phrase.wellShaped, Expr.wellShaped.eq_5 _ _ _ operator, Expr.operandsWellShaped,
      Bool.and_eq_true] at wellShaped
    obtain ⟨⟨yields, argument⟩, _⟩ := wellShaped
    rw [Sound, Yields, evaluate.eq_5 _ _ operator, Expr.assigned.eq_5 _ _ _ operator]
    refine settles_value (ih argument) yields fun number => ?_
    refine (settles_printLine number).bind fun _ => .pure fun state holds => ⟨holds, ?_⟩
    simp [Expr.yields, operator]
  | arith operator _ _ ih ihs =>
    rw [Phrase.wellShaped, Expr.wellShaped.eq_6 _ _ _ _ operator, Expr.operandsWellShaped]
      at wellShaped
    simp only [Bool.and_eq_true] at wellShaped
    obtain ⟨⟨yields, first⟩, others⟩ := wellShaped
    rw [Sound, Yields, evaluate.eq_7 _ _ _ _ _ operator, Expr.assigned.eq_6 _ _ _ _ operator]
    refine settles_value (ih first) yields fun start => ?_
    exact (ihs others start).bind fun value => .pure fun state holds => ⟨holds, fun _ => rfl⟩
  | letIn operator _ _ ih ihs =>
    simp only [Phrase.wellShaped, Expr.wellShaped.eq_7 _ _ _ _ operator, Bool.and_eq_true]
      at wellShaped
    rw [Sound, Yields, evaluate.eq_9 _ _ _ operator, Expr.assigned.eq_7 _ _ _ _ operator,
      Expr.yields.eq_6 _ _ _ operator]
    refine (ih wellShaped.1).bind fun _ => (settles_remark _ _).bind fun _ => ?_
    exact (ihs wellShaped.2 none).weaken fun value state holds =>
      ⟨holds.1, fun yields => holds.2 (Or.inr yields)⟩
  | ifElse operator _ _ _ _ _ _ ihTest ihTrue ihFalse =>
    simp only [Phrase.wellShaped, Expr.wellShaped.eq_8 _ _ _ _ _ operator, Bool.and_eq_true]
      at wellShaped
    obtain ⟨⟨⟨yields, test⟩, whenTrue⟩, whenFalse⟩ := wellShaped
    rw [Sound, Yields, evaluate.eq_12 _ _ _ _ operator, Expr.assigned.eq_8 _ _ _ _ _ operator,
      Expr.yields.eq_7 _ _ _ _ operator]
    refine settles_value (ihTest test) yields fun number => ?_
    split
    · refine (ihTrue whenTrue).weaken fun value state holds => ⟨?_, fun both => ?_⟩
      · exact fun name member => holds.1 name (Finset.mem_inter.mp member).1
      · exact holds.2 (Bool.and_eq_true_iff.mp both).1
    · refine (ihFalse whenFalse).weaken fun value state holds => ⟨?_, fun both => ?_⟩
      · exact fun name member => holds.1 name (Finset.mem_inter.mp member).2
      · exact holds.2 (Bool.and_eq_true_iff.mp both).2
  | group operator =>
    rw [Sound, Yields, evaluate.eq_14 _ _ operator]
    exact .pure fun state holds => by simpa [Expr.assigned, Expr.yields, operator] using holds
  | noOperands => exact fun soFar => .pure fun state holds => holds
  | operand _ _ ih ihs =>
    simp only [Phrase.wellShaped, Expr.operandsWellShaped, Bool.and_eq_true] at wellShaped
    obtain ⟨⟨yields, argument⟩, others⟩ := wellShaped
    intro soFar
    rw [evaluateOperands]
    exact settles_value (ih argument) yields fun number => ihs others _
  | noBindings =>
    rw [Sound, evaluateBindings]
    exact .pure fun state holds => holds
  | binding _ _ _ ih ihs =>
    simp only [Phrase.wellShaped, Expr.bindingsWellShaped, Bool.and_eq_true] at wellShaped
    obtain ⟨⟨yields, value⟩, others⟩ := wellShaped
    rw [Sound, evaluateBindings]
    refine settles_value (ih value) yields fun number => ?_
    exact (settles_bindName _ number).bind fun _ => ihs others
  | noBodies => exact fun last => .pure fun state holds => ⟨holds, by simp [Expr.lastYields]⟩
  | body _ _ ih ihs =>
    simp only [Phrase.wellShaped, Expr.allWellShaped, Bool.and_eq_true] at wellShaped
    intro last
    rw [evaluateBodies]
    refine (ih wellShaped.1).bind fun value state holds => ?_
    refine ((ihs wellShaped.2 value).weaken fun result after ended => ⟨ended.1, ?_⟩) state holds.1
    rintro (⟨empty, _⟩ | yields)
    · contradiction
    · exact ended.2 ((Expr.lastYields_cons yields).imp_left (And.imp_right holds.2))

theorem settles_onLine {α : Type} {before : Evaluation → Prop} {evaluation : EvalM α}
    {after : α → Evaluation → Prop} (settles : Settles before evaluation after) (line : Nat) :
    Settles before (Failure.onLine line evaluation) after := by
  intro state holds
  have ended := settles state holds
  rw [Failure.onLine]
  cases result : evaluation state with
  | ok value state =>
    simp only [result] at ended
    exact ended
  | error failure state =>
    simp only [result] at ended
    rw [ended]
    rfl

theorem settles_program {program : Program} {context after : Context} {code : Code}
    (emitted : Emits context (.bodies program.exprs) code after) {known : Finset String}
    (wellShaped : Expr.allWellShaped known program.exprs = true) :
    Settles (Binds known) (evaluateProgram program)
      fun _ => Binds (Expr.allAssigned known program.exprs) := by
  induction program generalizing context code known with
  | nil => exact .pure fun state holds => holds
  | cons numbered rest ih =>
    obtain ⟨line, form⟩ := numbered
    cases emitted with
    | body head further =>
      simp only [Program.exprs, List.map_cons, Expr.allWellShaped, Bool.and_eq_true] at wellShaped
      have first := sound_evaluation head wellShaped.1
      rw [evaluateProgram]
      refine (settles_onLine first line).bind fun _ state holds => ?_
      exact ih further wellShaped.2 state holds.1

end Evaluator
end StackScheme
