import StackScheme.Proofs.Evaluator.Tracking
import StackScheme.Proofs.Reader.Soundness
import StackScheme.Proofs.Static.Acceptance

/-! Compiling and evaluating object to the same forms, as long as there are no branches. The
evaluator checks each binding when its turn comes and can stop earlier for a reason of its own, a
missing value or a number that is too long to be printed, but it goes through the form in the same
order. -/
namespace StackScheme.Evaluator
open Stateful

/-- The evaluator as a way of going through forms: the names in the environment are known. There is
no room for a branch, of which only one part would be gone through. -/
def evaluating : Stage Evaluation where
  names state := state.env.keys
  room count _ := count = 0
  room_le room := by omega
  objects failure := ∃ fault, failure = .ofFault (.evaluate fault)
  excused failure := Lacks failure ∨ failure = .numeral .tooLongToWrite

variable {op : String} {args : List Expr}

theorem refuses_fail {α : Type} {count : Nat} (fault : FormFault) :
    Refuses evaluating count (fail fault : EvalM α) :=
  .fail ⟨fault, rfl⟩

theorem refuses_showing {α : Type} {count : Nat} {expr : Expr} (fault : String → FormFault)
    (fits : ∀ n ∈ expr.integers, Numeral.Fits n) :
    Refuses evaluating count (showing expr fault : EvalM α) :=
  .fail ⟨fault expr.text, Failure.showing_eq fits _⟩

theorem judges_lookup (name : String) :
    Judges evaluating [.reached (.var name)] 0 (lookup name) := by
  apply Judges.use
  intro state
  unfold lookup
  cases found : state.env.find? name with
  | some value => exact ⟨Table.mem_keys_iff.mpr ⟨value, found⟩, rfl⟩
  | none => exact ⟨Table.find?_eq_none_iff.mp found, _, rfl⟩

theorem judges_bindName (name : String) (value : Int) :
    Judges evaluating [.bound name] 0 (bindName name value) := by
  apply Judges.keep
  intro state
  exact ⟨(), _, rfl, fun other => Table.mem_keys_insert, fun _ room => room⟩

theorem judges_demand {expr : Expr} (fits : ∀ n ∈ expr.integers, Numeral.Fits n)
    (value : Option Int) : Judges evaluating [] 0 (demand expr value) := by
  apply Judges.skip
  intro state
  cases value with
  | some value => exact ⟨rfl, fun _ room => room⟩
  | none => exact .inl ⟨expr.text, none, Failure.showing_eq fits _⟩

theorem judges_printLine (value : Int) : Judges evaluating [] 0 (printLine value) := by
  apply Judges.skip
  intro state
  unfold printLine Numeral.write
  by_cases fits : Numeral.Fits value
  · rw [if_pos fits]
    exact ⟨rfl, fun _ room => room⟩
  · rw [if_neg fits]
    exact .inr rfl

theorem judges_remark (expr : Expr) (bodies : List Expr) :
    Judges evaluating [] 0 (remark expr bodies) := by
  apply Judges.skip
  intro state
  obtain ⟨log, done⟩ := remark_done expr bodies state
  rw [done]
  exact ⟨rfl, fun _ room => room⟩

/-- Going on with the value of an expression is going on behind the expression. -/
theorem judges_valued {α : Type} {expr : Expr} (fits : ∀ n ∈ expr.integers, Numeral.Fits n)
    {count further : Nat} {occurrences others : List Occurrence} {action : EvalM (Option Int)}
    {next : Int → EvalM α} (first : Judges evaluating occurrences count action)
    (second : ∀ value, Judges evaluating others further (next value)) :
    Judges evaluating (occurrences ++ others) (count + further)
      (do
        let value ← action
        next (← demand expr value)) :=
  first.bind fun value => .ahead (judges_demand fits value) second

/-- The induction follows the evaluator, one case for each of its branches. Of binding lists it also
shows that those with something else in them are refused. -/
theorem all_judged :
    (∀ expr, (∀ n ∈ expr.integers, Numeral.Fits n) →
      Judges evaluating expr.reading (branches expr.reading) (evaluate expr)) ∧
    (∀ last exprs, (∀ n ∈ Expr.allIntegers exprs, Numeral.Fits n) →
      Judges evaluating (Expr.allReading exprs) (branches (Expr.allReading exprs))
        (evaluateBodies last exprs)) ∧
    (∀ members, (∀ n ∈ Expr.allIntegers members, Numeral.Fits n) →
      ((∀ member ∈ members, member.IsBinding) →
        Judges evaluating (Expr.headReading members) (branches (Expr.headReading members))
          (evaluateBindings members)) ∧
      ((¬∀ member ∈ members, member.IsBinding) →
        Refuses evaluating (branches (Expr.headReading members)) (evaluateBindings members))) ∧
    (∀ op soFar args, (∀ n ∈ Expr.allIntegers args, Numeral.Fits n) →
      Judges evaluating (Expr.allReading args) (branches (Expr.allReading args))
        (evaluateOperands op soFar args)) := by
  refine evaluate.mutual_induct _ _ _ _ ?int ?bool ?var ?outside ?println ?printCount ?arith ?tooFew
    ?letIn ?notGroup ?noHead ?ifElse ?branchCount ?group ?unknown ?noBodies ?body ?noBindings
    ?binding ?notBinding ?noOperands ?operand
  case int =>
    intro value _
    rw [evaluate, Expr.reading]
    exact (Judges.pure _).visit trivial (by simp)
  case bool =>
    intro value _
    rw [evaluate, Expr.reading]
    exact (Judges.pure _).visit trivial (by simp)
  case var =>
    intro name _
    rw [evaluate, Expr.reading]
    exact (judges_lookup name).map _
  case outside =>
    intro name value fits
    rw [evaluate, Expr.reading]
    exact .refuse id (refuses_showing _ fits)
  case println =>
    intro op arg operator ih fits
    simp only [Expr.integers, Expr.allIntegers, List.append_nil] at fits
    have judged := judges_valued fits (ih fits) fun value =>
      (judges_printLine value).map fun _ => (none : Option Int)
    rw [evaluate.eq_5 _ _ operator]
    exact .form (by simp [Expr.WellMade, operator]) (by simp [operator]) (by simp [operator])
      (by simp [operator]) (by simpa [Expr.allReading] using judged)
  case printCount =>
    intro op args other operator fits
    rw [evaluate.eq_6 _ _ operator other]
    exact .flawed (Expr.flawed_println operator other) (refuses_fail _)
  case arith =>
    intro op f first second rest operator ih ihs fits
    rw [Expr.integers, Expr.fits_cons] at fits
    have judged := judges_valued fits.1 (ih fits.1) fun value => (ihs value fits.2).map some
    rw [evaluate.eq_7 _ _ _ _ _ operator]
    exact .form (by simp [Expr.WellMade, operator]) (by simp [operator]) (by simp [operator])
      (by simp [operator]) (by rwa [Expr.allReading, branches_append])
  case tooFew =>
    intro op f args other operator fits
    rw [evaluate.eq_8 _ _ _ operator other]
    exact .flawed (Expr.flawed_arith operator other) (refuses_fail _)
  case letIn =>
    intro op members bodies operator ihBindings ihBodies fits
    simp only [Expr.integers, Expr.fits_cons] at fits
    obtain ⟨judged, refused⟩ := ihBindings fits.1
    rw [evaluate.eq_9 _ _ _ operator]
    by_cases all : ∀ member ∈ members, member.IsBinding
    · have inside := (judged all).bind fun _ =>
        .ahead (judges_remark (.form op (.form "" members :: bodies)) bodies) fun _ =>
          ihBodies fits.2
      exact .letIn operator all (by rwa [branches_append])
    · refine .flawed (fun made => all ((Expr.wellMade_letIn operator).mp made)) ?_
      rw [Expr.reading.eq_6 _ _ _ operator, branches_form, if_neg (by simp [operator]),
        Nat.zero_add, branches_append]
      exact .bind (refused all).weaken
  case notGroup =>
    intro op other tail head operator fits
    simp only [Expr.integers, Expr.fits_cons] at fits
    rw [evaluate.eq_10 _ _ _ head operator]
    refine .flawed (Expr.flawed_letIn operator ?_) (refuses_showing _ fits.1)
    intro members bodies same
    exact head members (List.cons.inj same).1
  case noHead =>
    intro op operator fits
    rw [evaluate.eq_11 _ operator]
    exact .flawed (Expr.flawed_letIn operator (by simp)) (refuses_fail _)
  case ifElse =>
    intro op condition positive negative operator ihTest ihTrue ihFalse fits state room
    have none : branches (Expr.reading (.form op [condition, positive, negative])) = 0 := room
    rw [Expr.reading_form (by simp [operator]) (by simp [operator]), branches_form,
      if_pos operator] at none
    omega
  case branchCount =>
    intro op args other operator fits
    rw [evaluate.eq_13 _ _ operator other]
    exact .flawed (Expr.flawed_ifElse operator other) (refuses_fail _)
  case group =>
    intro op args operator fits
    rw [evaluate.eq_14 _ _ operator]
    exact .group operator _
  case unknown =>
    intro op args operator fits
    rw [evaluate.eq_15 _ _ operator]
    exact .flawed (Expr.flawed_unknown operator) (refuses_fail _)
  case noBodies =>
    intro last _
    rw [evaluateBodies, Expr.allReading]
    exact .pure _
  case body =>
    intro last body rest ih ihs fits
    rw [Expr.fits_cons] at fits
    rw [evaluateBodies, Expr.allReading, branches_append]
    exact (ih fits.1).bind fun value => ihs value fits.2
  case noBindings =>
    intro _
    rw [evaluateBindings, Expr.headReading]
    exact ⟨fun _ => .pure _, by simp⟩
  case binding =>
    intro name value rest ih ihs fits
    simp only [Expr.integers, Expr.fits_cons] at fits
    obtain ⟨judged, refused⟩ := ihs fits.2
    rw [evaluateBindings, Expr.headReading, List.forall_mem_cons]
    constructor
    · rintro ⟨_, all⟩
      have assigned := judges_valued fits.1 (ih fits.1) fun number =>
        (judges_bindName name number).bind fun _ => judged all
      simpa [branches] using assigned
    · intro other
      have later : ¬∀ member ∈ rest, member.IsBinding := fun all => other ⟨⟨name, value, rfl⟩, all⟩
      have delayed := Refuses.after (ih fits.1) fun number =>
        .after (judges_demand fits.1 number) fun number =>
          .after (judges_bindName name number) fun _ => refused later
      simpa [branches] using delayed
  case notBinding =>
    intro other tail single fits
    rw [Expr.fits_cons] at fits
    rw [evaluateBindings.eq_3 _ _ single]
    refine ⟨fun all => ?_, fun _ => refuses_showing _ fits.1⟩
    obtain ⟨name, value, rfl⟩ := all other List.mem_cons_self
    exact (single name value rfl).elim
  case noOperands =>
    intro op soFar _
    rw [evaluateOperands, Expr.allReading]
    exact .pure _
  case operand =>
    intro op soFar arg rest ih ihs fits
    rw [Expr.fits_cons] at fits
    rw [evaluateOperands, Expr.allReading, branches_append]
    exact judges_valued fits.1 (ih fits.1) fun value => ihs value fits.2

theorem evaluateProgram_sweeps : Sweeps evaluate evaluateProgram := by
  constructor
  · exact ⟨(), rfl⟩
  · intro line form rest
    refine ⟨fun _ others => others, ?_⟩
    simp only [evaluateProgram, bind_pure]

theorem program_judged {program : Program}
    (fits : ∀ n ∈ Expr.allIntegers program.exprs, Numeral.Fits n) :
    ∀ numbered ∈ program, Judges evaluating numbered.form.toExpr.reading
      (branches numbered.form.toExpr.reading) (evaluate numbered.form.toExpr) :=
  fun numbered member => all_judged.1 _ (Program.fits_of_mem fits numbered member)

end StackScheme.Evaluator

namespace StackScheme

theorem Acceptable.upTo {known : List String} {before rest : Program} {numbered : NumberedForm}
    (acceptable : Acceptable known (Expr.allReading (before ++ numbered :: rest : Program).exprs)) :
    Acceptable known (Expr.allReading (before ++ [numbered] : Program).exprs) := by
  rw [List.append_cons, Program.exprs_append, Expr.allReading_append] at acceptable
  exact acceptable.left

/-- A program that is flawed at one form is not acceptable beyond it. -/
theorem flawed_later {before rest prior others : Program} {numbered other : NumberedForm}
    (same : before ++ numbered :: rest = prior ++ other :: others)
    (ascending : (before ++ numbered :: rest).Pairwise fun first second => first.line < second.line)
    (flawed : ¬Acceptable [] (Expr.allReading (before ++ [numbered] : Program).exprs))
    (accepted : Acceptable [] (Expr.allReading prior.exprs)) : other.line ≤ numbered.line := by
  rcases List.append_eq_append_iff.mp same with ⟨between, rfl, split⟩ | ⟨between, rfl, split⟩
  · cases between with
    | nil =>
      obtain ⟨rfl, _⟩ := List.cons.inj split
      exact le_rfl
    | cons first between =>
      obtain ⟨rfl, _⟩ := List.cons.inj split
      exact (flawed accepted.upTo).elim
  · cases between with
    | nil =>
      obtain ⟨rfl, _⟩ := List.cons.inj split
      exact le_rfl
    | cons first between =>
      obtain ⟨rfl, _⟩ := List.cons.inj split
      have apart := (List.pairwise_append.mp ascending).2.2
      exact (apart other (by simp) numbered (by simp)).le

theorem Reader.lines_ascend {number : Nat} {lines : List String} {program : Program}
    (read : Reader.readLines number lines = .ok program) :
    (∀ numbered ∈ program, number ≤ numbered.line) ∧
      program.Pairwise fun first second => first.line < second.line := by
  induction lines generalizing number program with
  | nil =>
    obtain rfl := Except.ok.inj read
    simp
  | cons line rest ih =>
    unfold Reader.readLines at read
    split at read
    · contradiction
    · obtain ⟨least, ascending⟩ := ih read
      refine ⟨fun numbered member => ?_, ascending⟩
      have above := least numbered member
      omega
    · rename_i form _
      obtain ⟨others, following, same⟩ := Fallible.bind_eq_ok.mp read
      obtain rfl := Except.ok.inj same
      obtain ⟨least, ascending⟩ := ih following
      constructor
      · rw [List.forall_mem_cons]
        refine ⟨le_rfl, fun numbered member => ?_⟩
        have above := least numbered member
        omega
      · exact List.pairwise_cons.mpr ⟨fun numbered member => least numbered member, ascending⟩

/-- A program fault of a source's bytecode is one of compiling it: writing the code out has faults
of another kind. -/
theorem Compiler.bytecode_eq_error_iff {source : String} {program : Program}
    (read : Reader.readSource source = .ok program) {fault : Located Fault} :
    bytecode source = .error (.program fault) ↔
      ∃ after, compileProgram program {} = .error (.program fault) after := by
  rw [bytecode, compileSource_read read]
  cases compileProgram program {} with
  | ok code after => cases encoded : encode code <;> simp [encoded]
  | error failure after => simp

namespace Evaluator
open Stateful Compiler

section
variable {source : String} {program : Program} (read : Reader.readSource source = .ok program)
  (straight : branches (Expr.allReading program.exprs) = 0)
include straight

theorem few_branches : branches (Expr.allReading program.exprs) < Numeral.ceiling := by
  rw [straight]
  exact Numeral.fits_natCast.mp (Numeral.fits_small (by decide))

include read

/-- What can be evaluated compiles, and both know the names that are bound in it. -/
theorem compiles_of_evaluated {state : Evaluation}
    (done : evaluateProgram program {} = .ok () state) :
    ∃ code context, compileProgram program {} = .ok code context ∧
      ∀ name, name ∈ state.env.keys ↔ name ∈ context.registers.keys := by
  have fits := Reader.fits_of_readSource read
  have few := few_branches straight
  obtain ⟨accepted, names, _⟩ :=
    (evaluateProgram_sweeps.judged (program_judged fits)).ok straight done
  obtain ⟨code, context, compiled⟩ := (compiles_iff fits few).mpr accepted
  obtain ⟨_, known, _⟩ :=
    (compileProgram_sweeps.judged (Compiler.program_judged fits)).ok (room_empty few.le) compiled
  exact ⟨code, context, compiled, fun name => (names name).trans (known name).symm⟩

/-- What evaluating objects to, compiling objects to on the same line: both go wrong at the first
flaw. -/
theorem refused_of_objected {fault : FormFault} {line : Int} {state : Evaluation}
    (failed : evaluateProgram program {} = .error (.program ⟨.evaluate fault, some line⟩) state) :
    ∃ fault, bytecode source = .error (.program ⟨.compile fault, some line⟩) := by
  have fits := Reader.fits_of_readSource read
  have few := few_branches straight
  have ascending := (Reader.lines_ascend read).2
  obtain ⟨before, number, form, rest, _, middle, cause, same, _, _, placed, accepted, reason⟩ :=
    evaluateProgram_sweeps.error (program_judged fits) straight failed
  rcases reason with ⟨⟨other, rfl⟩, flawed⟩ | ⟨shown, attached, rfl⟩ | rfl
  case inl =>
    obtain rfl : line = number := by cases placed; rfl
    cases result : compileProgram program {} with
    | ok code after =>
      have acceptable := (compiles_iff fits few).mp ⟨code, after, result⟩
      exact (flawed (Acceptable.upTo (same ▸ acceptable))).elim
    | error failure after =>
      obtain ⟨prior, first, refused, others, fault, split, rfl, acceptedPrior, flawedPrior⟩ :=
        refused_at fits few result
      subst same
      have least := flawed_later split ascending flawed acceptedPrior
      have most := flawed_later split.symm (split ▸ ascending) flawedPrior accepted
      obtain rfl : first = number := le_antisymm least most
      exact ⟨fault, (bytecode_eq_error_iff read).mpr ⟨after, result⟩⟩
  all_goals cases placed

/-- Where compiling objects, evaluating has failed at that form or at one before it. -/
theorem failed_of_refused {fault : FormFault} {line : Int}
    (failed : bytecode source = .error (.program ⟨.compile fault, some line⟩)) :
    ∃ (before : Program) (number : Nat) (form : Form) (rest : Program) (middle : Evaluation)
      (failure : Failure) (state : Evaluation), program = before ++ ⟨number, form⟩ :: rest ∧
        number ≤ line ∧ evaluateProgram before {} = .ok () middle ∧
        evaluate form.toExpr middle = .error failure state ∧
        evaluateProgram program {} = .error (failure.withLine number) state := by
  have fits := Reader.fits_of_readSource read
  have ascending := (Reader.lines_ascend read).2
  obtain ⟨after, refused⟩ := (bytecode_eq_error_iff read).mp failed
  obtain ⟨before, number, form, rest, _, same, placed, _, flawed⟩ :=
    refused_at fits (few_branches straight) refused
  obtain rfl : line = number := by cases placed; rfl
  cases result : evaluateProgram program {} with
  | ok value state =>
    have judged := evaluateProgram_sweeps.judged (program_judged fits)
    have accepted := (judged.ok straight result).1
    exact (flawed (Acceptable.upTo (same ▸ accepted))).elim
  | error failure state =>
    obtain ⟨prior, first, failing, others, _, middle, cause, split, done, ended, rfl, accepted,
      _⟩ := evaluateProgram_sweeps.error (program_judged fits) straight result
    have least := flawed_later (same.symm.trans split) (same ▸ ascending) flawed accepted
    exact ⟨prior, first, failing, others, middle, cause, state, split, Int.ofNat_le.mpr least,
      done, ended, rfl⟩

end

/-- As long as no branch is come upon, evaluating a source and compiling it go wrong together. When
the source can be evaluated it compiles, and the same names are bound. What evaluating objects to,
compiling objects to on the same line. Where compiling objects, evaluating fails at that form or at
an earlier one. -/
theorem checks_agree {source : String} {program : Program}
    (read : Reader.readSource source = .ok program)
    (straight : branches (Expr.allReading program.exprs) = 0) :
    (∀ state, evaluateSource source {} = .ok () state →
      ∃ code context, compileProgram program {} = .ok code context ∧
        ∀ name, name ∈ state.env.keys ↔ name ∈ context.registers.keys) ∧
    (∀ fault line state,
      evaluateSource source {} = .error (.program ⟨.evaluate fault, some line⟩) state →
        ∃ fault, bytecode source = .error (.program ⟨.compile fault, some line⟩)) ∧
    ∀ fault line, bytecode source = .error (.program ⟨.compile fault, some line⟩) →
      ∃ (before : Program) (number : Nat) (form : Form) (rest : Program) (middle : Evaluation)
        (failure : Failure) (state : Evaluation), program = before ++ ⟨number, form⟩ :: rest ∧
          number ≤ line ∧ evaluateProgram before {} = .ok () middle ∧
          evaluate form.toExpr middle = .error failure state ∧
          evaluateSource source {} = .error (failure.withLine number) state := by
  rw [evaluateSource_read read]
  refine ⟨?_, ?_, ?_⟩
  · intro state done
    exact compiles_of_evaluated read straight done
  · intro fault line state failed
    exact refused_of_objected read straight failed
  · intro fault line failed
    exact failed_of_refused read straight failed

/-- The evaluator meets the name without a value first and the compiler the number in the binding
list, on the same line. -/
theorem checks_agree_order :
    let source := "(let ([a 1]) (println a))\n\n(let ([x y] 3) x)"
    (∃ state, evaluateSource source {} =
      .error (.program ⟨.evaluate (.undefinedVariable "y"), some 3⟩) state) ∧
    bytecode source = .error (.program ⟨.compile (.notBinding "3"), some 3⟩) ∧
    (∃ fault, bytecode source = .error (.program ⟨.compile fault, some 3⟩)) ∧
    ∃ program, Reader.readSource source = .ok program ∧
      ∃ (before : Program) (number : Nat) (form : Form) (rest : Program) (middle : Evaluation)
        (failure : Failure) (state : Evaluation), program = before ++ ⟨number, form⟩ :: rest ∧
          (number : Int) ≤ 3 ∧ evaluateProgram before {} = .ok () middle ∧
          evaluate form.toExpr middle = .error failure state ∧
          evaluateSource source {} = .error (failure.withLine number) state := by
  intro source
  have straight : (Reader.readSource source).map (fun program =>
      branches (Expr.allReading program.exprs)) = .ok 0 := by
    decide +kernel
  have refused : bytecode source = .error (.program ⟨.compile (.notBinding "3"), some 3⟩) := by
    decide +kernel
  have failed : failure? (evaluateSource source {}) =
      some (.program ⟨.evaluate (.undefinedVariable "y"), some 3⟩) := by
    decide +kernel
  obtain ⟨state, failed⟩ := failure?_eq_some_iff.mp failed
  cases read : Reader.readSource source with
  | error failure =>
    rw [read] at straight
    contradiction
  | ok program =>
    rw [read] at straight
    obtain ⟨_, objects, reports⟩ := checks_agree read (Except.ok.inj straight)
    exact ⟨⟨state, failed⟩, refused, objects _ _ _ failed, program, rfl, reports _ _ refused⟩

end Evaluator
end StackScheme
