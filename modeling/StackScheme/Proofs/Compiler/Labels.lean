import StackScheme.Proofs.Bytecode.Marks
import StackScheme.Proofs.Bytecode.RoundTrip
import StackScheme.Proofs.Compiler.Emission

/-! The labels of emitted code. Each is drawn once, so no two marks of a program are the same, and
every jump goes to a label that is marked further on in the same code. -/
namespace StackScheme

namespace Context

/-- How many labels have been drawn from a stem. -/
def count (context : Context) (stem : String) : Nat :=
  (context.counters.find? stem).getD 0

/-- The label of a stem with this number. -/
def numbered (stem : String) (number : Nat) : String :=
  stem ++ toString (number : Int)

/-- The end of a stem cannot be taken for a digit of the number after it. -/
def Stem (stem : String) : Prop :=
  ∀ c ∈ stem.toList.getLast?, c.isDigit = false

theorem Stem.of_last {stem : String} {last : Char} (ends : stem.toList.getLast? = some last)
    (letter : last.isDigit = false) : Stem stem := by
  intro c member
  rw [ends] at member
  obtain rfl := Option.mem_some_iff.mp member
  exact letter

theorem toList_numbered (stem : String) (number : Nat) :
    (numbered stem number).toList = stem.toList ++ Nat.toDigits 10 number := by
  rw [numbered, String.toList_append, Numeral.toList_toString_natCast]

theorem freshLabel_eq_ok_iff {stem label : String} {context after : Context} :
    freshLabel stem context = .ok label after ↔ Numeral.Fits (context.count stem) ∧
      label = numbered stem (context.count stem) ∧
      after = { context with
        counters := context.counters.insert stem (context.count stem + 1) } := by
  simp only [freshLabel, Numeral.write, numbered, count]
  generalize (context.counters.find? stem).getD 0 = number
  by_cases fits : Numeral.Fits number
  · simp only [fits, if_true, true_and, EStateM.Result.ok.injEq, eq_comm]
  · simp [fits]

theorem count_freshLabel {stem label : String} {context after : Context}
    (drawn : freshLabel stem context = .ok label after) (other : String) :
    after.count other = if stem = other then context.count stem + 1 else context.count other := by
  obtain ⟨_, _, rfl⟩ := freshLabel_eq_ok_iff.mp drawn
  simp only [count, Table.find?_insert]
  split <;> rfl

theorem freshLabel_eq_error_iff {stem : String} {failure : Failure} {context after : Context} :
    freshLabel stem context = .error failure after ↔ ¬Numeral.Fits (context.count stem) ∧
      failure = .numeral .tooLongToWrite ∧
      after = { context with
        counters := context.counters.insert stem (context.count stem + 1) } := by
  simp only [freshLabel, Numeral.write, count]
  generalize (context.counters.find? stem).getD 0 = number
  by_cases fits : Numeral.Fits number
  · simp [fits]
  · simp only [fits, if_false, not_false_eq_true, true_and, EStateM.Result.error.injEq, eq_comm]

theorem count_refused {stem : String} {failure : Failure} {context after : Context}
    (refused : freshLabel stem context = .error failure after) (other : String) :
    context.count other ≤ after.count other := by
  obtain ⟨_, _, rfl⟩ := freshLabel_eq_error_iff.mp refused
  simp only [count, Table.find?_insert]
  split
  · rename_i same
    subst same
    exact Nat.le_succ _
  · exact le_rfl

/-- Until the numbers run out every label is granted. -/
theorem not_refused {stem : String} {failure : Failure} {context after : Context}
    (room : context.count stem < Numeral.ceiling) :
    freshLabel stem context ≠ .error failure after := by
  intro refused
  obtain ⟨unfit, _⟩ := freshLabel_eq_error_iff.mp refused
  exact unfit (Numeral.fits_natCast.mpr room)

theorem count_assign {name : String} {register : Nat} {context after : Context}
    (assigned : assign name context = .ok register after) (stem : String) :
    after.count stem = context.count stem := by
  unfold assign at assigned
  split at assigned
  · cases assigned
    rfl
  · cases assigned
    rfl

/-- Where two rows of digits end two texts alike, they begin at the same place, if no digit stands
before either. -/
theorem split_at_digits {first second digits others : List Char}
    (apart : ∀ c ∈ second.getLast?, c.isDigit = false) (ascii : ∀ c ∈ digits, c.isDigit = true)
    {between : List Char} (same : second = first ++ between)
    (rest : digits = between ++ others) : first = second ∧ digits = others := by
  cases between with
  | nil => exact ⟨by simp [same], by simpa using rest⟩
  | cons c tail =>
    have last : (c :: tail).getLast (by simp) ∈ second.getLast? := by
      rw [same, List.getLast?_append_of_ne_nil _ (by simp), List.getLast?_eq_getLast_of_ne_nil]
      exact Option.mem_some_self _
    have digit := ascii ((c :: tail).getLast (by simp))
      (by rw [rest]; exact List.mem_append_left _ (List.getLast_mem _))
    rw [apart _ last] at digit
    contradiction

/-- A label determines the stem and the number it was made from. -/
theorem numbered_inj {first second : String} (firstStem : Stem first) (secondStem : Stem second)
    {n m : Nat} (same : numbered first n = numbered second m) : first = second ∧ n = m := by
  have lists := congrArg String.toList same
  rw [toList_numbered, toList_numbered] at lists
  have parts : first.toList = second.toList ∧ Nat.toDigits 10 n = Nat.toDigits 10 m := by
    rcases List.append_eq_append_iff.mp lists with ⟨between, longer, rest⟩ | ⟨between, longer, rest⟩
    · exact split_at_digits secondStem (fun c => Numeral.isDigit_toDigits) longer rest
    · obtain ⟨stems, digits⟩ :=
        split_at_digits firstStem (fun c => Numeral.isDigit_toDigits) longer rest
      exact ⟨stems.symm, digits.symm⟩
  refine ⟨String.toList_inj.mp parts.1, ?_⟩
  rw [← Numeral.value_toDigits n, parts.2, Numeral.value_toDigits]

/-- The label has been drawn between these two contexts. -/
def Drew (context after : Context) (label : String) : Prop :=
  ∃ stem number, Stem stem ∧ label = numbered stem number ∧
    context.count stem ≤ number ∧ number < after.count stem

/-- These labels, all different, have been drawn between the contexts. -/
structure Draws (context after : Context) (labels : List String) : Prop where
  counts : ∀ stem, context.count stem ≤ after.count stem
  drawn : ∀ label ∈ labels, Drew context after label
  distinct : labels.Nodup

namespace Draws
variable {context middle after : Context} {labels others : List String}

theorem refl (context : Context) : Draws context context [] :=
  ⟨fun _ => le_rfl, by simp, List.nodup_nil⟩

theorem perm (draws : Draws context after labels) (same : labels.Perm others) :
    Draws context after others :=
  ⟨draws.counts, fun label member => draws.drawn label (same.mem_iff.mpr member),
    same.nodup_iff.mp draws.distinct⟩

theorem append (first : Draws context middle labels) (second : Draws middle after others) :
    Draws context after (labels ++ others) := by
  refine ⟨fun stem => (first.counts stem).trans (second.counts stem), ?_, ?_⟩
  · intro label member
    rcases List.mem_append.mp member with member | member
    · obtain ⟨stem, number, ends, same, lower, upper⟩ := first.drawn label member
      exact ⟨stem, number, ends, same, lower, upper.trans_le (second.counts stem)⟩
    · obtain ⟨stem, number, ends, same, lower, upper⟩ := second.drawn label member
      exact ⟨stem, number, ends, same, (first.counts stem).trans lower, upper⟩
  · apply List.nodup_append.mpr
    refine ⟨first.distinct, second.distinct, ?_⟩
    -- a label of both would have a number below the middle count and one not below it
    rintro label member other otherMember rfl
    obtain ⟨stem, number, ends, same, _, upper⟩ := first.drawn label member
    obtain ⟨stem', number', ends', same', lower, _⟩ := second.drawn label otherMember
    obtain ⟨rfl, rfl⟩ := numbered_inj ends ends' (same.symm.trans same')
    omega

theorem same (counts : ∀ stem, after.count stem = context.count stem) :
    Draws context after [] :=
  ⟨fun stem => (counts stem).ge, by simp, List.nodup_nil⟩

theorem fresh {stem label : String} (ends : Stem stem)
    (drawn : freshLabel stem context = .ok label after) : Draws context after [label] := by
  have counts := count_freshLabel drawn
  refine ⟨?_, ?_, by simp⟩
  · intro other
    rw [counts]
    split
    · rename_i same
      subst same
      omega
    · exact le_rfl
  · intro name member
    obtain rfl := List.mem_singleton.mp member
    obtain ⟨_, same, _⟩ := freshLabel_eq_ok_iff.mp drawn
    refine ⟨stem, context.count stem, ends, same, le_rfl, ?_⟩
    rw [counts, if_pos rfl]
    omega

end Draws
end Context

namespace Compiler
open Context

theorem stem_else : Stem "fls" := .of_last rfl rfl
theorem stem_then : Stem "tru" := .of_last rfl rfl
theorem stem_end : Stem "done" := .of_last rfl rfl

theorem numbered_named {stem label : String} {context after : Context}
    (letters : stem.toList.all Text.isWord = true)
    (drawn : freshLabel stem context = .ok label after) : Instr.Named label := by
  obtain ⟨_, rfl, _⟩ := freshLabel_eq_ok_iff.mp drawn
  refine ⟨by simp [toList_numbered], ?_⟩
  intro c member
  rw [toList_numbered] at member
  rcases List.mem_append.mp member with member | member
  · exact List.all_eq_true.mp letters c member
  · exact Text.isWord_digit (Numeral.isDigit_toDigits member)

/-- The labels that emitted code marks have been drawn while it was compiled. -/
theorem Emits.draws {context after : Context} {phrase : Phrase} {code : Code}
    (emitted : Emits context phrase code after) : Draws context after code.marks := by
  induction emitted with
  | int | bool | var | group | noOperands | noBindings | noBodies => exact .refl _
  | println _ _ ih => simpa using ih
  | arith _ _ _ ih ihs | letIn _ _ _ ih ihs | body _ _ ih ihs => simpa using ih.append ihs
  | operand _ _ ih ihs => simpa using ih.append ihs
  | binding _ stored _ ih ihs =>
    simpa using (ih.append (.same (count_assign stored))).append ihs
  | ifElse _ _ first second third _ _ ihTest ihTrue ihFalse =>
    have drawn := (((ihTest.append (.fresh stem_else first)).append
      (.fresh stem_then second)).append (.fresh stem_end third)).append (ihTrue.append ihFalse)
    -- the marks stand in another order than the one in which they were drawn
    refine drawn.perm (List.perm_iff_count.mpr fun label => ?_)
    simp only [Code.marks_append, Code.marks_cons, Code.marks_nil, Instr.mark?, Option.toList_none,
      Option.toList_some, List.count_append, List.count_nil]
    omega

/-- Emitted code jumps forward only. -/
theorem Emits.forward {context after : Context} {phrase : Phrase} {code : Code}
    (emitted : Emits context phrase code after) : code.ForwardJumps := by
  induction emitted with
  | int | bool | var => exact .single rfl
  | group | noOperands | noBindings | noBodies => trivial
  | println _ _ ih => exact ih.append (.single rfl)
  | arith _ _ _ ih ihs | letIn _ _ _ ih ihs | body _ _ ih ihs => exact ih.append ihs
  | operand _ _ ih ihs | binding _ _ _ ih ihs => exact (ih.append (.single rfl)).append ihs
  | ifElse _ _ _ _ _ _ _ ihTest ihTrue ihFalse =>
    simp only [List.append_assoc, List.cons_append, List.nil_append]
    exact ihTest.append ⟨by simp, by simp, ihTrue.append ⟨by simp, by simp,
      ihFalse.append (.single rfl)⟩⟩

/-- The operands of emitted code are of the kinds that its instructions take. -/
theorem Emits.readable {context after : Context} {phrase : Phrase} {code : Code}
    (emitted : Emits context phrase code after) : ∀ instr ∈ code, instr.Readable := by
  induction emitted with
  | int | bool => simp [Instr.Readable]
  | var => simp [Instr.Readable]
  | group | noOperands | noBindings | noBodies => simp
  | println _ _ ih => simpa [or_imp, forall_and, Instr.Readable] using ih
  | arith _ _ _ ih ihs | letIn _ _ _ ih ihs | body _ _ ih ihs =>
    simpa [or_imp, forall_and] using ⟨ih, ihs⟩
  | operand _ _ ih ihs | binding _ _ _ ih ihs =>
    simpa [or_imp, forall_and, Instr.Readable] using ⟨ih, ihs⟩
  | ifElse _ _ first second third _ _ ihTest ihTrue ihFalse =>
    have onFalse := numbered_named (by decide) first
    have onTrue := numbered_named (by decide) second
    have done := numbered_named (by decide) third
    simpa [or_imp, forall_and, Instr.Readable, onFalse, onTrue, done]
      using ⟨ihTest, ihTrue, ihFalse⟩

end Compiler
end StackScheme
