import StackScheme.Proofs.Compiler.Blocks
import StackScheme.Proofs.Compiler.Record

/-! A context that is used for many calls. A call may fail half-way; what it has handed out until
then stays handed out, and the next call begins where it stopped. -/
namespace StackScheme

def labelsOf (grants : List Grant) : List String :=
  grants.filterMap Grant.label?

@[simp] theorem labelsOf_append (grants others : List Grant) :
    labelsOf (grants ++ others) = labelsOf grants ++ labelsOf others :=
  List.filterMap_append

namespace Record
open Context

theorem Draw.draws {stems : List String} {context after : Context} {grants : List Grant}
    (draw : Draw stems context grants after) (ends : ∀ stem ∈ stems, Stem stem) :
    Draws context after (labelsOf grants) := by
  induction draw with
  | none => exact .refl _
  | drawn first _ ih =>
    obtain ⟨here, others⟩ := List.forall_mem_cons.mp ends
    exact (Draws.fresh here first).append (ih others)
  | refused failed => exact ⟨count_refused failed, by simp [labelsOf], List.nodup_nil⟩

theorem Trail.draws {Asked : List String → Prop} {context after : Context} {grants : List Grant}
    (trail : Trail Asked context grants after)
    (ends : ∀ stems, Asked stems → ∀ stem ∈ stems, Stem stem) :
    Draws context after (labelsOf grants) := by
  induction trail with
  | none | loaded => exact .refl _
  | append _ _ ih ihs => simpa using ih.append ihs
  | labels asked draw => exact draw.draws (ends _ asked)
  | stored assigned => exact .same (count_assign assigned)

/-- The labels of a branch are all granted, or there have been too many before. -/
theorem Draw.even {context after : Context} {grants : List Grant}
    (draw : Draw ["fls", "tru", "done"] context grants after) (even : context.Even)
    (room : context.count "fls" < Numeral.ceiling) :
    after.Even ∧ after.count "fls" ≤ context.count "fls" + (labelsOf grants).length := by
  cases draw with
  | refused failed => exact (not_refused room failed).elim
  | drawn first rest =>
  cases rest with
  | refused failed =>
    refine (not_refused ?_ failed).elim
    rw [count_freshLabel first, if_neg (by decide), even.onTrue]
    exact room
  | drawn next rest =>
  cases rest with
  | refused failed =>
    refine (not_refused ?_ failed).elim
    rw [count_freshLabel next, if_neg (by decide), count_freshLabel first, if_neg (by decide),
      even.done]
    exact room
  | drawn last rest =>
  cases rest with
  | none =>
    obtain ⟨drawn, counted, _⟩ := even.draw first next last
    refine ⟨drawn, ?_⟩
    simp only [counted, labelsOf, Grant.label?, List.filterMap_cons, List.length_cons]
    omega

/-- As long as only branches draw labels, the counters of their stems agree. -/
theorem Trail.even {Asked : List String → Prop} {context after : Context} {grants : List Grant}
    (trail : Trail Asked context grants after)
    (only : ∀ stems, Asked stems → stems = ["fls", "tru", "done"]) (even : context.Even)
    (room : context.count "fls" + (labelsOf grants).length < Numeral.ceiling) :
    after.Even ∧ after.count "fls" ≤ context.count "fls" + (labelsOf grants).length := by
  induction trail with
  | none | loaded => exact ⟨even, by omega⟩
  | append _ _ ih ihs =>
    rw [labelsOf_append, List.length_append] at room ⊢
    obtain ⟨middle, counted⟩ := ih even (by omega)
    obtain ⟨later, recounted⟩ := ihs middle (by omega)
    exact ⟨later, by omega⟩
  | labels asked draw =>
    obtain rfl := only _ asked
    exact draw.even even (by omega)
  | stored assigned =>
    have counts := count_assign assigned
    exact ⟨even.of_counts counts, by rw [counts]; omega⟩

end Record

/-- What may be asked of a context. -/
inductive Call
  | bind (name : String)
  | registerFor (name : String)
  | freshLabel (stem : String)
  | compile (expr : Expr)
  | compileForm (form : Form)
  | compileProgram (program : Program)

inductive Answer
  | register (register : Nat)
  | label (label : String)
  | code (code : Code)

namespace Call

def run {σ : Type} [Supply σ] : Call → EStateM Failure σ Answer
  | .bind name => return .register (← Supply.assign name)
  | .registerFor name => return .register (← Supply.registerOf name)
  | .freshLabel stem => return .label (← Supply.freshLabel stem)
  | .compile expr => return .code (← Compiler.compile expr)
  | .compileForm form => return .code (← Compiler.compile form.toExpr)
  | .compileProgram program => return .code (← Compiler.compileForms program)

/-- The rows of stems that the call may draw labels from. -/
inductive Asks : Call → List String → Prop
  | branch {call} : Asks call ["fls", "tru", "done"]
  | single {stem} : Asks (.freshLabel stem) [stem]

theorem recorded (call : Call) : Record.Records call.Asks call.run call.run := by
  have branch : call.Asks ["fls", "tru", "done"] := .branch
  cases call with
  | bind name =>
    rw [run, run]
    exact (Record.Records.assign name).bind fun _ => .pure _
  | registerFor name =>
    rw [run, run]
    exact (Record.Records.registerOf name).bind fun _ => .pure _
  | freshLabel stem =>
    rw [run, run]
    exact (Record.Records.freshLabel .single).bind fun _ => .pure _
  | compile expr =>
    rw [run, run]
    exact (Record.compile_recorded branch expr).bind fun _ => .pure _
  | compileForm form =>
    rw [run, run]
    exact (Record.compile_recorded branch form.toExpr).bind fun _ => .pure _
  | compileProgram program =>
    rw [run, run]
    exact (Record.compileForms_recorded branch program).bind fun _ => .pure _

end Call

/-- The stems that labels are drawn from on request do not end in a digit. -/
def Stemmed (calls : List Call) : Prop :=
  ∀ stem, .freshLabel stem ∈ calls → Context.Stem stem

/-- A call and the context that it finds. -/
structure Step where
  call : Call
  before : Context

namespace Step
open Stateful Context Compiler

def result (step : Step) : EStateM.Result Failure Context Answer :=
  step.call.run step.before

def after (step : Step) : Context :=
  final step.result

def grants (step : Step) : List Grant :=
  (final (step.call.run (⟨step.before, []⟩ : Record))).grants

def code? (step : Step) : Option Code :=
  match step.result with
  | .ok (.code code) _ => some code
  | _ => none

def marks (step : Step) : List String :=
  step.code?.elim [] Code.marks

theorem trail (step : Step) :
    Record.Trail step.call.Asks step.before step.grants step.after := by
  obtain ⟨grants, trail, same⟩ := step.call.recorded step.before
  rw [Step.grants, same, final_mapState, List.nil_append]
  exact trail

theorem emits {step : Step} {code : Code} (returned : code ∈ step.code?) :
    ∃ phrase, Emits step.before phrase code step.after := by
  obtain ⟨call, before⟩ := step
  obtain ⟨after, done⟩ : ∃ after, call.run before = .ok (.code code) after := by
    unfold code? result at returned
    split at returned
    · rename_i other after done
      cases returned
      exact ⟨after, done⟩
    · contradiction
  have ended : Step.after ⟨call, before⟩ = after := by
    rw [Step.after, result, done]
    rfl
  rw [ended]
  cases call with
  | bind name | registerFor name | freshLabel stem =>
    obtain ⟨_, _, _, same⟩ := bind_eq_ok.mp done
    cases (pure_eq_ok.mp same).1
  | compile expr | compileForm form | compileProgram program =>
    obtain ⟨_, _, compiled, same⟩ := bind_eq_ok.mp done
    obtain ⟨answer, rfl⟩ := pure_eq_ok.mp same
    cases answer
    first
    | exact ⟨_, compile_emits compiled⟩
    | exact ⟨_, compileProgram_emits compiled⟩

theorem draws {step : Step} (stemmed : Stemmed [step.call]) :
    Draws step.before step.after (labelsOf step.grants) := by
  apply step.trail.draws
  intro stems asked stem member
  generalize same : step.call = call at asked
  cases asked with
  | branch =>
    simp only [List.mem_cons, List.not_mem_nil, or_false] at member
    obtain rfl | rfl | rfl := member
    · exact stem_else
    · exact stem_then
    · exact stem_end
  | single =>
    obtain rfl := List.mem_singleton.mp member
    exact stemmed _ (by simp [same])

/-- The marks of the code that a call returns have been drawn during the call. -/
theorem draws_marks {step : Step} (stemmed : Stemmed [step.call]) :
    Draws step.before step.after step.marks := by
  unfold marks
  cases returned : step.code? with
  | none => exact ⟨(step.draws stemmed).counts, by simp, List.nodup_nil⟩
  | some code =>
    obtain ⟨phrase, emitted⟩ := emits returned
    exact emitted.draws

end Step

/-- The calls one after the other, each with the context that the calls before it have left. -/
def session : List Call → Context → List Step
  | [], _ => []
  | call :: rest, context => ⟨call, context⟩ :: session rest (Step.after ⟨call, context⟩)

def handedOut (steps : List Step) : List String :=
  steps.flatMap fun step => labelsOf step.grants

def returnedMarks (steps : List Step) : List String :=
  steps.flatMap Step.marks

theorem mem_session {calls : List Call} {context : Context} {step : Step}
    (member : step ∈ session calls context) : step.call ∈ calls := by
  induction calls generalizing context with
  | nil => contradiction
  | cons call rest ih =>
    rcases List.mem_cons.mp member with rfl | member
    · exact List.mem_cons_self
    · exact List.mem_cons_of_mem _ (ih member)

open Context Compiler

theorem session_draws {pick : Step → List String} {calls : List Call} {context : Context}
    (each : ∀ step ∈ session calls context, Draws step.before step.after (pick step)) :
    ∃ after, Draws context after ((session calls context).flatMap pick) := by
  induction calls generalizing context with
  | nil => exact ⟨context, .refl _⟩
  | cons call rest ih =>
    have first := each ⟨call, context⟩ List.mem_cons_self
    obtain ⟨after, further⟩ := ih fun step member => each step (List.mem_cons_of_mem _ member)
    exact ⟨after, first.append further⟩

/-- As long as only branches draw labels, the counters of their stems agree at every call. -/
theorem session_even {calls : List Call} {context : Context}
    (only : ∀ stem, .freshLabel stem ∉ calls) (even : context.Even)
    (room : context.count "fls" + (handedOut (session calls context)).length < Numeral.ceiling) :
    ∀ step ∈ session calls context, step.before.Even ∧ step.after.Even := by
  induction calls generalizing context with
  | nil => simp [session]
  | cons call rest ih =>
    simp only [session, handedOut, List.flatMap_cons, List.length_append] at room
    have branches : ∀ stems, call.Asks stems → stems = ["fls", "tru", "done"] := by
      intro stems asked
      cases asked with
      | branch => rfl
      | single => exact (only _ List.mem_cons_self).elim
    obtain ⟨later, counted⟩ :=
      (Step.trail ⟨call, context⟩).even branches even (by simp only; omega)
    intro step member
    rcases List.mem_cons.mp member with rfl | member
    · exact ⟨even, later⟩
    · refine ih (fun stem drawn => only stem (List.mem_cons_of_mem _ drawn)) later ?_ step member
      simp only [handedOut] at counted ⊢
      omega

/-- In a session with a new context no label is handed out twice or marked twice, and jumps go
forward to labels of the same code. If labels are drawn for branches only, the counters of their
three stems always agree, and the branches of the code that a call returns are numbered from the
number at which the counters stood. -/
theorem session_labels {calls : List Call} (stemmed : Stemmed calls)
    (few : (handedOut (session calls {})).length < Numeral.ceiling) :
    (handedOut (session calls {})).Nodup ∧ (returnedMarks (session calls {})).Nodup ∧
      (∀ step ∈ session calls {}, ∀ code ∈ step.code?, code.Resolved) ∧
      ((∀ stem, .freshLabel stem ∉ calls) → ∀ step ∈ session calls {},
        step.before.Even ∧ step.after.Even ∧ ∀ code ∈ step.code?,
          Layout (step.before.count "fls") code (step.after.count "fls")) := by
  have each {step : Step} (member : step ∈ session calls {}) : Stemmed [step.call] := by
    intro stem drawn
    obtain same := List.mem_singleton.mp drawn
    exact stemmed stem (same ▸ mem_session member)
  have drawn := session_draws fun step member => Step.draws (each member)
  have drawnMarks := session_draws fun step member => Step.draws_marks (each member)
  obtain ⟨_, handed⟩ := drawn
  obtain ⟨_, marks⟩ := drawnMarks
  refine ⟨handed.distinct, marks.distinct, ?_, ?_⟩
  · intro step member code returned
    obtain ⟨phrase, emitted⟩ := Step.emits returned
    exact emitted.forward.resolved emitted.draws.distinct
  · intro only step member
    have zero : Context.count {} "fls" = 0 := rfl
    obtain ⟨before, after⟩ := session_even only even_empty (by omega) step member
    refine ⟨before, after, ?_⟩
    intro code returned
    obtain ⟨phrase, emitted⟩ := Step.emits returned
    exact (emitted.blocks before).2.layout

/-- A branch that fails when its labels have been drawn, and then a branch on a branch. -/
theorem session_labels_interrupted :
    let calls : List Call := [.bind "x",
      .compileForm ⟨"if", [.var "x", .int 1, .var "y"]⟩,
      .compile (.form "if" [.form "if" [.var "x", .int 1, .int 0], .bool true, .int 2])]
    let steps := session calls {}
    handedOut steps = ["fls0", "tru0", "done0", "fls1", "tru1", "done1", "fls2", "tru2", "done2"] ∧
      steps.map Step.code? = [none, none,
        some (.load 0 :: block 1 [.push 1] [.push 0] ++ block 2 [.push 1] [.push 2])] ∧
      (returnedMarks steps).Nodup ∧ (∀ step ∈ steps, ∀ code ∈ step.code?, code.Resolved) ∧
      ∀ step ∈ steps, step.before.Even ∧ step.after.Even ∧ ∀ code ∈ step.code?,
        Layout (step.before.count "fls") code (step.after.count "fls") := by
  intro calls steps
  have only : ∀ stem, .freshLabel stem ∉ calls := by
    intro stem
    simp [calls]
  have handed : handedOut steps =
      ["fls0", "tru0", "done0", "fls1", "tru1", "done1", "fls2", "tru2", "done2"] := by
    decide +kernel
  have few : (handedOut steps).length < Numeral.ceiling := by
    rw [handed]
    exact Numeral.fits_natCast.mp (Numeral.fits_small (by decide : 9 < 10))
  obtain ⟨_, marks, resolved, layout⟩ :=
    session_labels (fun stem drawn => (only stem drawn).elim) few
  exact ⟨handed, by decide +kernel, marks, resolved, layout only⟩

end StackScheme
