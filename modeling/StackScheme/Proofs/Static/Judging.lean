import StackScheme.Failure
import StackScheme.Proofs.Sequence
import StackScheme.Proofs.Static.Reading

/-! What compiling and evaluating have in common as checks. Each goes through a form once, from left
to right, knows the names that it has met bound, and objects where what it has come upon is not
acceptable. -/
namespace StackScheme
open Stateful

/-- A way of going through forms. -/
structure Stage (σ : Type) where
  names : σ → List String
  /-- So many branches can still be taken up. -/
  room : Nat → σ → Prop
  room_le : ∀ {n m state}, room (n + m) state → room n state
  objects : Failure → Prop
  /-- The failures that have other reasons. -/
  excused : Failure → Prop

/-- The action succeeds only when the occurrences are acceptable, and knows their names then. It
objects only when they are not. -/
def Judges {σ α : Type} (stage : Stage σ) (occurrences : List Occurrence) (count : Nat)
    (action : EStateM Failure σ α) : Prop :=
  ∀ state, stage.room count state →
    match action state with
    | .ok _ after => Acceptable (stage.names state) occurrences ∧
        (∀ name, name ∈ stage.names after ↔
          name ∈ stage.names state ∨ .bound name ∈ occurrences) ∧
        ∀ more, stage.room (count + more) state → stage.room more after
    | .error failure _ =>
      stage.objects failure ∧ ¬Acceptable (stage.names state) occurrences ∨ stage.excused failure

/-- The action fails whatever happens. -/
def Refuses {σ α : Type} (stage : Stage σ) (count : Nat) (action : EStateM Failure σ α) : Prop :=
  ∀ state, stage.room count state →
    ∃ failure after, action state = .error failure after ∧
      (stage.objects failure ∨ stage.excused failure)

variable {σ α β : Type} {stage : Stage σ} {occurrences others : List Occurrence}
  {count further : Nat} {action : EStateM Failure σ α} {next : α → EStateM Failure σ β}

namespace Judges

theorem ok (judges : Judges stage occurrences count action) {value : α} {state after : σ}
    (room : stage.room count state) (done : action state = .ok value after) :
    Acceptable (stage.names state) occurrences ∧
      (∀ name, name ∈ stage.names after ↔
        name ∈ stage.names state ∨ .bound name ∈ occurrences) ∧
      ∀ more, stage.room (count + more) state → stage.room more after := by
  have judged := judges state room
  rwa [done] at judged

theorem error (judges : Judges stage occurrences count action) {failure : Failure}
    {state after : σ} (room : stage.room count state)
    (failed : action state = .error failure after) :
    stage.objects failure ∧ ¬Acceptable (stage.names state) occurrences ∨
      stage.excused failure := by
  have judged := judges state room
  rwa [failed] at judged

theorem pure (value : α) : Judges stage [] 0 (pure value) := by
  intro state _
  refine ⟨.nil, by simp, fun more room => ?_⟩
  rwa [Nat.zero_add] at room

/-- An action that leaves the names alone and does not object has nothing to do with the form. -/
theorem skip (kept : ∀ state,
      match action state with
      | .ok _ after => stage.names after = stage.names state ∧
          ∀ more, stage.room more state → stage.room more after
      | .error failure _ => stage.excused failure) :
    Judges stage [] 0 action := by
  intro state _
  have same := kept state
  cases result : action state with
  | ok value after =>
    rw [result] at same
    refine ⟨.nil, by simp [same.1], fun more room => ?_⟩
    rw [Nat.zero_add] at room
    exact same.2 more room
  | error failure after =>
    rw [result] at same
    exact .inr same

theorem bind (first : Judges stage occurrences count action)
    (second : ∀ value, Judges stage others further (next value)) :
    Judges stage (occurrences ++ others) (count + further) (action >>= next) := by
  intro state room
  cases result : action state with
  | ok value middle =>
    obtain ⟨accepted, names, spare⟩ := first.ok (stage.room_le room) result
    have split : Acceptable (stage.names state) (occurrences ++ others) ↔
        Acceptable (stage.names state) occurrences ∧ Acceptable (stage.names middle) others :=
      Acceptable.append_iff names
    rw [bind_ok result]
    cases outcome : next value middle with
    | ok value after =>
      obtain ⟨following, known, rest⟩ := (second _).ok (spare _ room) outcome
      refine ⟨split.mpr ⟨accepted, following⟩, fun name => ?_, fun more enough => ?_⟩
      · rw [known, names, List.mem_append, or_assoc]
      · rw [Nat.add_assoc] at enough
        exact rest more (spare _ enough)
    | error failure after =>
      rcases (second _).error (spare _ room) outcome with ⟨objects, flawed⟩ | excused
      · exact .inl ⟨objects, fun acceptable => flawed (split.mp acceptable).2⟩
      · exact .inr excused
  | error failure after =>
    rw [bind_error result]
    rcases first.error (stage.room_le room) result with ⟨objects, flawed⟩ | excused
    · exact .inl ⟨objects, fun acceptable => flawed acceptable.left⟩
    · exact .inr excused

theorem map (f : α → β) (judges : Judges stage occurrences count action) :
    Judges stage occurrences count (action >>= fun value => Pure.pure (f value)) := by
  simpa using judges.bind fun value => pure (f value)

theorem ahead {first : EStateM Failure σ β} {next : β → EStateM Failure σ α}
    (skips : Judges stage [] 0 first)
    (judges : ∀ value, Judges stage occurrences count (next value)) :
    Judges stage occurrences count (first >>= next) := by
  simpa using skips.bind judges

theorem visit {expr : Expr} (made : expr.WellMade) (other : ∀ name, expr ≠ .var name)
    (judges : Judges stage occurrences count action) :
    Judges stage (.reached expr :: occurrences) count action := by
  intro state room
  have judged := judges state room
  cases result : action state with
  | ok value after =>
    rw [result] at judged
    obtain ⟨accepted, names, spare⟩ := judged
    refine ⟨(Acceptable.cons_iff other).mpr ⟨made, accepted⟩, fun name => ?_, spare⟩
    simp [names]
  | error failure after =>
    rw [result] at judged
    rcases judged with ⟨objects, flawed⟩ | excused
    · refine .inl ⟨objects, fun acceptable => flawed ?_⟩
      exact ((Acceptable.cons_iff other).mp acceptable).2
    · exact .inr excused

/-- What is not well made is refused, and whatever follows in it does not matter. -/
theorem refuse {expr : Expr} (flawed : ¬expr.WellMade) (refuses : Refuses stage count action) :
    Judges stage (.reached expr :: occurrences) count action := by
  intro state room
  obtain ⟨failure, after, failed, reason⟩ := refuses state room
  rw [failed]
  rcases reason with objects | excused
  · exact .inl ⟨objects, fun acceptable => flawed (acceptable.wellMade expr (by simp))⟩
  · exact .inr excused

variable {op : String} {args : List Expr}

theorem flawed (flawed : ¬Expr.WellMade (.form op args)) (refuses : Refuses stage count action) :
    Judges stage (Expr.reading (.form op args)) count action := by
  obtain ⟨rest, read⟩ := Expr.reading_head op args
  rw [read]
  exact .refuse flawed refuses

theorem form (made : Expr.WellMade (.form op args)) (binds : Operator.ofName op ≠ .letIn)
    (groups : Operator.ofName op ≠ .group) (straight : Operator.ofName op ≠ .ifElse)
    (judges : Judges stage (Expr.allReading args) (branches (Expr.allReading args)) action) :
    Judges stage (Expr.reading (.form op args)) (branches (Expr.reading (.form op args)))
      action := by
  rw [Expr.reading_form binds groups, branches_form, if_neg straight, Nat.zero_add]
  exact judges.visit made (by simp)

theorem letIn {members bodies : List Expr} (operator : Operator.ofName op = .letIn)
    (all : ∀ member ∈ members, member.IsBinding)
    (judges : Judges stage (Expr.headReading members ++ Expr.allReading bodies)
      (branches (Expr.headReading members ++ Expr.allReading bodies)) action) :
    Judges stage (Expr.reading (.form op (.form "" members :: bodies)))
      (branches (Expr.reading (.form op (.form "" members :: bodies)))) action := by
  rw [Expr.reading.eq_6 _ _ _ operator, branches_form, if_neg (by simp [operator]), Nat.zero_add]
  exact judges.visit ((Expr.wellMade_letIn operator).mpr all) (by simp)

theorem group (operator : Operator.ofName op = .group) (value : α) :
    Judges stage (Expr.reading (.form op args)) (branches (Expr.reading (.form op args)))
      (Pure.pure value) := by
  rw [Expr.reading.eq_5 _ _ operator, branches_form, if_neg (by simp [operator])]
  exact (pure value).visit (by simp [Expr.WellMade, operator]) (by simp)

theorem use {name : String}
    (used : ∀ state,
      match action state with
      | .ok _ after => name ∈ stage.names state ∧ after = state
      | .error failure _ => name ∉ stage.names state ∧ stage.objects failure) :
    Judges stage [.reached (.var name)] 0 action := by
  intro state _
  have known := used state
  cases result : action state with
  | ok value after =>
    rw [result] at known
    obtain ⟨member, rfl⟩ := known
    refine ⟨Acceptable.var_iff.mpr member, by simp, fun more room => ?_⟩
    rwa [Nat.zero_add] at room
  | error failure after =>
    rw [result] at known
    exact .inl ⟨known.2, fun acceptable => known.1 (Acceptable.var_iff.mp acceptable)⟩

theorem keep {name : String}
    (kept : ∀ state, ∃ value after, action state = .ok value after ∧
      (∀ other, other ∈ stage.names after ↔ other ∈ stage.names state ∨ other = name) ∧
      ∀ more, stage.room more state → stage.room more after) :
    Judges stage [.bound name] 0 action := by
  intro state _
  obtain ⟨value, after, done, names, spare⟩ := kept state
  rw [done]
  refine ⟨.bound name, fun other => ?_, fun more room => ?_⟩
  · simp [names]
  · rw [Nat.zero_add] at room
    exact spare more room

end Judges

namespace Refuses

theorem fail {failure : Failure} (objects : stage.objects failure) :
    Refuses stage count (fun state => .error failure state : EStateM Failure σ α) :=
  fun state _ => ⟨failure, state, rfl, .inl objects⟩

theorem bind (refuses : Refuses stage count action) : Refuses stage count (action >>= next) := by
  intro state room
  obtain ⟨failure, after, failed, reason⟩ := refuses state room
  exact ⟨failure, after, bind_error failed, reason⟩

theorem weaken (refuses : Refuses stage count action) : Refuses stage (count + further) action :=
  fun state room => refuses state (stage.room_le room)

/-- What fails later fails, unless there has been another failure before. -/
theorem after (first : Judges stage occurrences count action)
    (second : ∀ value, Refuses stage further (next value)) :
    Refuses stage (count + further) (action >>= next) := by
  intro state room
  cases result : action state with
  | ok value middle =>
    obtain ⟨_, _, spare⟩ := first.ok (stage.room_le room) result
    rw [bind_ok result]
    exact second value middle (spare _ room)
  | error failure middle =>
    refine ⟨failure, middle, bind_error result, ?_⟩
    exact (first.error (stage.room_le room) result).imp_left And.left

end Refuses

/-- The same stage with failures that have been put on a line. -/
def Stage.placed (stage : Stage σ) : Stage σ :=
  { stage with
    objects := fun failure => ∃ cause line, stage.objects cause ∧ failure = cause.withLine line
    excused := fun failure => ∃ cause line, stage.excused cause ∧ failure = cause.withLine line }

theorem Judges.onLine (judges : Judges stage occurrences count action) (line : Nat) :
    Judges stage.placed occurrences count (Failure.onLine line action) := by
  intro state room
  have judged := judges state room
  unfold Failure.onLine
  cases result : action state with
  | ok value after =>
    rw [result] at judged
    exact judged
  | error failure after =>
    rw [result] at judged
    rcases judged with ⟨objects, flawed⟩ | excused
    · exact .inl ⟨⟨failure, line, objects, rfl⟩, flawed⟩
    · exact .inr ⟨failure, line, excused, rfl⟩

/-- A run over a program takes up its forms one after the other, each on its line. -/
structure Sweeps (step : Expr → EStateM Failure σ α) (run : Program → EStateM Failure σ β) :
    Prop where
  nil : ∃ value, run [] = pure value
  cons : ∀ line form rest, ∃ combine : α → β → β, run (⟨line, form⟩ :: rest) =
    (do
      let first ← Failure.onLine line (step form.toExpr)
      let others ← run rest
      pure (combine first others))

namespace Sweeps
variable {step : Expr → EStateM Failure σ α} {run : Program → EStateM Failure σ β}

theorem judged (sweeps : Sweeps step run) {program : Program}
    (each : ∀ numbered ∈ program, Judges stage numbered.form.toExpr.reading
      (branches numbered.form.toExpr.reading) (step numbered.form.toExpr)) :
    Judges stage.placed (Expr.allReading program.exprs)
      (branches (Expr.allReading program.exprs)) (run program) := by
  induction program with
  | nil =>
    obtain ⟨value, same⟩ := sweeps.nil
    rw [same, Program.exprs, List.map_nil, Expr.allReading]
    exact .pure value
  | cons numbered rest ih =>
    obtain ⟨first, others⟩ := List.forall_mem_cons.mp each
    obtain ⟨combine, same⟩ := sweeps.cons numbered.line numbered.form rest
    rw [same, Program.exprs_cons, Expr.allReading, branches_append]
    exact (first.onLine numbered.line).bind fun value => (ih others).map (combine value)

/-- A run that fails has gone as far as some form, which fails. -/
theorem eq_error (sweeps : Sweeps step run) {program : Program} {failure : Failure}
    {state after : σ} (failed : run program state = .error failure after) :
    ∃ (before : Program) (line : Nat) (form : Form) (rest : Program) (value : β) (middle : σ)
      (cause : Failure), program = before ++ ⟨line, form⟩ :: rest ∧
        run before state = .ok value middle ∧ step form.toExpr middle = .error cause after ∧
        failure = cause.withLine line := by
  induction program generalizing state with
  | nil =>
    obtain ⟨value, same⟩ := sweeps.nil
    rw [same] at failed
    contradiction
  | cons numbered rest ih =>
    obtain ⟨line, form⟩ := numbered
    obtain ⟨combine, same⟩ := sweeps.cons line form rest
    rw [same, bind_apply, Failure.onLine] at failed
    cases result : step form.toExpr state with
    | error cause last =>
      simp only [result, EStateM.Result.error.injEq] at failed
      obtain ⟨rfl, rfl⟩ := failed
      obtain ⟨value, empty⟩ := sweeps.nil
      exact ⟨[], line, form, rest, value, state, cause, rfl, by rw [empty]; rfl, result, rfl⟩
    | ok first between =>
      simp only [result] at failed
      cases further : run rest between with
      | ok others last =>
        rw [bind_ok further] at failed
        contradiction
      | error cause last =>
        rw [bind_error further] at failed
        cases failed
        obtain ⟨before, inner, failing, others, value, middle, cause, rfl, done, failed, placed⟩ :=
          ih further
        obtain ⟨join, prior⟩ := sweeps.cons line form before
        have begun : Failure.onLine line (step form.toExpr) state = .ok first between := by
          rw [Failure.onLine, result]
        refine ⟨⟨line, form⟩ :: before, inner, failing, others, join first value, middle, cause,
          rfl, ?_, failed, placed⟩
        rw [prior, bind_ok begun, bind_ok done]
        rfl

/-- Where a run fails, everything before the form is acceptable, and unless the failure has another
reason the form is not acceptable after it. -/
theorem error (sweeps : Sweeps step run) {program : Program} {failure : Failure} {state after : σ}
    (each : ∀ numbered ∈ program, Judges stage numbered.form.toExpr.reading
      (branches numbered.form.toExpr.reading) (step numbered.form.toExpr))
    (room : stage.room (branches (Expr.allReading program.exprs)) state)
    (failed : run program state = .error failure after) :
    ∃ (before : Program) (line : Nat) (form : Form) (rest : Program) (value : β) (middle : σ)
      (cause : Failure), program = before ++ ⟨line, form⟩ :: rest ∧
        run before state = .ok value middle ∧ step form.toExpr middle = .error cause after ∧
        failure = cause.withLine line ∧
        Acceptable (stage.names state) (Expr.allReading before.exprs) ∧
        (stage.objects cause ∧ ¬Acceptable (stage.names state)
            (Expr.allReading (before ++ [⟨line, form⟩] : Program).exprs) ∨
          stage.excused cause) := by
  obtain ⟨before, line, form, rest, value, middle, cause, rfl, done, failing, same⟩ :=
    sweeps.eq_error failed
  refine ⟨before, line, form, rest, value, middle, cause, rfl, done, failing, same, ?_⟩
  simp only [Program.exprs_append, Program.exprs_cons, Expr.allReading_append, Expr.allReading,
    branches_append] at room ⊢
  obtain ⟨earlier, here⟩ := List.forall_mem_append.mp each
  have here := here _ List.mem_cons_self
  obtain ⟨accepted, names, spare⟩ := (sweeps.judged earlier).ok (stage.room_le room) done
  have enough := stage.room_le (spare _ room)
  refine ⟨accepted, ?_⟩
  rcases here.error enough failing with ⟨objects, flawed⟩ | excused
  · refine .inl ⟨objects, fun acceptable => flawed ?_⟩
    exact ((Acceptable.append_iff names).mp acceptable).2.left
  · exact .inr excused

end Sweeps

end StackScheme
