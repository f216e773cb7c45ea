import StackScheme.Proofs.Compiler.Labels
import Mathlib.Data.List.Intervals

/-! How the code of branches lies in emitted code. A branch takes one number from each of its three
stems. While the counters agree it takes the same number from all of them, so its code is a block
with that number, and blocks are numbered in the order of their conditions. -/
namespace StackScheme

@[simp] def Instr.onZero? : Instr → Option String
  | .jumpIfZero name => some name
  | .push _ | .print | .arith _ | .jump _ | .jumpIfNonzero _ | .store _ | .load _ | .label _ => none

namespace Code

def conditions (code : Code) : List String :=
  code.filterMap Instr.onZero?

@[simp] theorem conditions_nil : conditions [] = [] := rfl

@[simp] theorem conditions_cons (instr : Instr) (rest : Code) :
    conditions (instr :: rest) = instr.onZero?.toList ++ conditions rest := by
  cases instr <;> rfl

@[simp] theorem conditions_append (first second : Code) :
    conditions (first ++ second) = first.conditions ++ second.conditions :=
  List.filterMap_append

end Code

namespace Context

/-- The three labels of the next branch have the same number. -/
structure Even (context : Context) : Prop where
  onTrue : context.count "tru" = context.count "fls"
  done : context.count "done" = context.count "fls"

theorem even_empty : Even {} :=
  ⟨rfl, rfl⟩

theorem Even.of_counts {context after : Context} (even : context.Even)
    (counts : ∀ stem, after.count stem = context.count stem) : after.Even := by
  constructor
  · rw [counts, counts, even.onTrue]
  · rw [counts, counts, even.done]

theorem Even.draw {context second third after : Context} {onFalse onTrue done : String}
    (even : context.Even) (first : freshLabel "fls" context = .ok onFalse second)
    (next : freshLabel "tru" second = .ok onTrue third)
    (last : freshLabel "done" third = .ok done after) :
    after.Even ∧ after.count "fls" = context.count "fls" + 1 ∧
      onFalse = numbered "fls" (context.count "fls") ∧
      onTrue = numbered "tru" (context.count "fls") ∧
      done = numbered "done" (context.count "fls") := by
  have firstCount := count_freshLabel first
  have nextCount := count_freshLabel next
  have lastCount := count_freshLabel last
  have onTrueCount := even.onTrue
  have doneCount := even.done
  obtain ⟨_, rfl, _⟩ := freshLabel_eq_ok_iff.mp first
  obtain ⟨_, rfl, _⟩ := freshLabel_eq_ok_iff.mp next
  obtain ⟨_, rfl, _⟩ := freshLabel_eq_ok_iff.mp last
  simp only [lastCount, nextCount, firstCount, onTrueCount, doneCount, String.reduceEq, if_false,
    if_true, and_self, and_true]
  constructor <;> simp [lastCount, nextCount, firstCount, onTrueCount, doneCount]

end Context

namespace Compiler
open Context

/-- The code of a branch behind its condition. -/
def block (number : Nat) (taken other : Code) : Code :=
  [.jumpIfZero (numbered "fls" number), .label (numbered "tru" number)] ++ taken ++
    [.jump (numbered "done" number), .label (numbered "fls" number)] ++ other ++
    [.label (numbered "done" number)]

/-- Code made of straight instructions and of blocks, which are numbered as they begin. -/
inductive Blocks : Nat → Code → Nat → Prop
  | nil {number} : Blocks number [] number
  | straight {number instr} (unmarked : instr.mark? = none) (falls : instr.target? = none) :
      Blocks number [instr] number
  | append {first middle next code codes} (ahead : Blocks first code middle)
      (following : Blocks middle codes next) : Blocks first (code ++ codes) next
  | block {number middle next taken other} (whenTrue : Blocks (number + 1) taken middle)
      (whenFalse : Blocks middle other next) : Blocks number (block number taken other) next

/-- Emitted code is made of blocks. Their numbers are those that were drawn meanwhile. -/
theorem Emits.blocks {context after : Context} {phrase : Phrase} {code : Code}
    (emitted : Emits context phrase code after) (even : context.Even) :
    after.Even ∧ Blocks (context.count "fls") code (after.count "fls") := by
  induction emitted with
  | int | bool | var => exact ⟨even, .straight rfl rfl⟩
  | group | noOperands | noBindings | noBodies => exact ⟨even, .nil⟩
  | println _ _ ih =>
    obtain ⟨later, argument⟩ := ih even
    exact ⟨later, argument.append (.straight rfl rfl)⟩
  | arith _ _ _ ih ihs | letIn _ _ _ ih ihs | body _ _ ih ihs =>
    obtain ⟨middle, start⟩ := ih even
    obtain ⟨later, further⟩ := ihs middle
    exact ⟨later, start.append further⟩
  | operand _ _ ih ihs =>
    obtain ⟨middle, argument⟩ := ih even
    obtain ⟨later, further⟩ := ihs middle
    exact ⟨later, (argument.append (.straight rfl rfl)).append further⟩
  | binding _ stored _ ih ihs =>
    obtain ⟨valued, evaluated⟩ := ih even
    have counts := count_assign stored
    obtain ⟨later, further⟩ := ihs (valued.of_counts counts)
    rw [counts] at further
    exact ⟨later, (evaluated.append (.straight rfl rfl)).append further⟩
  | ifElse _ _ first second third _ _ ihTest ihTrue ihFalse =>
    obtain ⟨tested, test⟩ := ihTest even
    obtain ⟨drawn, counted, rfl, rfl, rfl⟩ := tested.draw first second third
    obtain ⟨middle, whenTrue⟩ := ihTrue drawn
    obtain ⟨later, whenFalse⟩ := ihFalse middle
    rw [counted] at whenTrue
    refine ⟨later, ?_⟩
    simpa [block] using test.append (whenTrue.block whenFalse)

/-- How the blocks of two branches lie in the same code. -/
inductive Arranged (earlier later : Nat) (code : Code) : Prop
  | disjoint (taken other between whenTrue whenFalse : Code)
      (apart : block earlier taken other ++ between ++ block later whenTrue whenFalse <:+: code)
  | nested (taken other whenTrue whenFalse : Code)
      (outer : block earlier taken other <:+: code)
      (inner : block later whenTrue whenFalse <:+: taken ∨
        block later whenTrue whenFalse <:+: other)

def blockLabels (number : Nat) : List String :=
  [numbered "fls" number, numbered "tru" number, numbered "done" number]

/-- The branches of the code have the numbers from the first up to the next. -/
structure Layout (first : Nat) (code : Code) (next : Nat) : Prop where
  ordered : first ≤ next
  conditions : code.conditions = (List.Ico first next).map (numbered "fls")
  marks : code.marks.Perm ((List.Ico first next).flatMap blockLabels)
  block : ∀ number, first ≤ number → number < next →
    ∃ taken other, block number taken other <:+: code
  arranged : ∀ earlier later, first ≤ earlier → earlier < later → later < next →
    Arranged earlier later code

theorem Arranged.within {earlier later : Nat} {code codes : Code}
    (arranged : Arranged earlier later code) (within : code <:+: codes) :
    Arranged earlier later codes := by
  cases arranged with
  | disjoint taken other between whenTrue whenFalse apart =>
    exact .disjoint taken other between whenTrue whenFalse (apart.trans within)
  | nested taken other whenTrue whenFalse outer inner =>
    exact .nested taken other whenTrue whenFalse (outer.trans within) inner

/-- The parts of a block lie in it, one after the other. -/
theorem within_block (number : Nat) (taken other : Code) :
    taken ++ [.jump (numbered "done" number), .label (numbered "fls" number)] ++ other <:+:
      block number taken other := by
  refine ⟨[.jumpIfZero (numbered "fls" number), .label (numbered "tru" number)],
    [.label (numbered "done" number)], ?_⟩
  simp only [block, List.append_assoc]

namespace Layout
variable {first middle next : Nat} {code codes taken other : Code}

theorem straight (conditions : code.conditions = []) (marks : code.marks = []) :
    Layout first code first := by
  constructor
  case ordered => exact le_rfl
  case conditions => rw [conditions, List.Ico.self_empty, List.map_nil]
  case marks => rw [marks, List.Ico.self_empty, List.flatMap_nil]
  all_goals
    intros
    omega

/-- A block of the one code or of the other is a block of both together. -/
theorem block_append (ahead : Layout first code middle) (following : Layout middle codes next)
    (between : Code) (number : Nat) (least : first ≤ number) (less : number < next) :
    ∃ taken other, Compiler.block number taken other <:+: code ++ between ++ codes := by
  by_cases low : number < middle
  · obtain ⟨taken, other, lies⟩ := ahead.block number least low
    exact ⟨taken, other, lies.trans ⟨[], between ++ codes, by simp⟩⟩
  · obtain ⟨taken, other, lies⟩ := following.block number (by omega) less
    exact ⟨taken, other, lies.trans ⟨code ++ between, [], by simp⟩⟩

/-- Two blocks are both in the one code, both in the other, or one in each. -/
theorem arranged_append (ahead : Layout first code middle) (following : Layout middle codes next)
    (between : Code) (earlier later : Nat) (least : first ≤ earlier) (less : earlier < later)
    (most : later < next) : Arranged earlier later (code ++ between ++ codes) := by
  by_cases low : later < middle
  · exact (ahead.arranged _ _ least less low).within ⟨[], between ++ codes, by simp⟩
  by_cases high : middle ≤ earlier
  · exact (following.arranged _ _ high less most).within ⟨code ++ between, [], by simp⟩
  obtain ⟨taken, other, before, past, split⟩ := ahead.block earlier least (by omega)
  obtain ⟨whenTrue, whenFalse, prior, rest, rejoined⟩ := following.block later (by omega) most
  apply Arranged.disjoint taken other (past ++ between ++ prior) whenTrue whenFalse
  exact ⟨before, rest, by rw [← split, ← rejoined]; simp only [List.append_assoc]⟩

theorem append (ahead : Layout first code middle) (following : Layout middle codes next) :
    Layout first (code ++ codes) next := by
  have numbers := List.Ico.append_consecutive ahead.ordered following.ordered
  constructor
  case ordered => exact ahead.ordered.trans following.ordered
  case conditions =>
    rw [Code.conditions_append, ahead.conditions, following.conditions, ← List.map_append, numbers]
  case marks =>
    rw [Code.marks_append, ← numbers, List.flatMap_append]
    exact ahead.marks.append following.marks
  case block => simpa using block_append ahead following []
  case arranged => simpa using arranged_append ahead following []

theorem branch (whenTrue : Layout (first + 1) taken middle) (whenFalse : Layout middle other next) :
    Layout first (Compiler.block first taken other) next := by
  have parts := within_block first taken other
  have ordered : first < next := whenTrue.ordered.trans whenFalse.ordered
  have numbers := List.Ico.append_consecutive whenTrue.ordered whenFalse.ordered
  constructor
  case ordered => exact ordered.le
  case conditions =>
    rw [List.Ico.eq_cons ordered, ← numbers]
    simp [Compiler.block, whenTrue.conditions, whenFalse.conditions]
  case marks =>
    rw [List.Ico.eq_cons ordered, ← numbers]
    -- the labels of the block stand before, between and behind those of its parts
    refine List.perm_iff_count.mpr fun label => ?_
    have inTaken := whenTrue.marks.count_eq label
    have inOther := whenFalse.marks.count_eq label
    simp only [Compiler.block, blockLabels, Code.marks_append, Code.marks_cons, Code.marks_nil,
      Instr.mark?, Option.toList_none, Option.toList_some, List.count_append, List.count_nil,
      List.flatMap_cons, List.flatMap_append, List.nil_append] at inTaken inOther ⊢
    simp only [List.count_cons, List.count_nil]
    omega
  case block =>
    intro number least less
    by_cases same : number = first
    · subst same
      exact ⟨taken, other, List.infix_rfl⟩
    · obtain ⟨inner, further, lies⟩ :=
        block_append whenTrue whenFalse _ number (by omega) less
      exact ⟨inner, further, lies.trans parts⟩
  case arranged =>
    intro earlier later least less most
    by_cases same : earlier = first
    · subst same
      by_cases low : later < middle
      · obtain ⟨inner, further, lies⟩ := whenTrue.block later less low
        exact .nested taken other inner further List.infix_rfl (.inl lies)
      · obtain ⟨inner, further, lies⟩ := whenFalse.block later (by omega) most
        exact .nested taken other inner further List.infix_rfl (.inr lies)
    · exact (arranged_append whenTrue whenFalse _ _ _ (by omega) less most).within parts

end Layout

theorem Blocks.layout {first next : Nat} {code : Code} (blocks : Blocks first code next) :
    Layout first code next := by
  induction blocks with
  | nil => exact .straight rfl rfl
  | @straight number instr unmarked falls =>
    apply Layout.straight
    · cases instr <;> first | rfl | contradiction
    · rw [Code.marks_cons, unmarked]
      rfl
  | append _ _ ih ihs => exact ih.append ihs
  | block _ _ ihTrue ihFalse => exact ihTrue.branch ihFalse

end Compiler
end StackScheme
