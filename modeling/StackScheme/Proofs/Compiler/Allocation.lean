import StackScheme.Proofs.Compiler.Accesses
import StackScheme.Proofs.Compiler.Registers
import StackScheme.Proofs.Compiler.Session

/-! The registers of a context that is used for many calls. At every point the names that have been
bound so far have the registers from zero on, in the order in which they were bound first, and no
call changes that, whether it succeeds or fails half-way. So a register that has been written into
code belongs to the same name for as long as the context is used. -/
namespace StackScheme

def Grant.bound? : Grant → Option String
  | .stored name _ => some name
  | .label _ | .loaded _ _ => none

/-- The names that have been bound, each where it was bound first. -/
def firstBound (grants : List Grant) : List String :=
  (grants.filterMap Grant.bound?).eraseDups

theorem firstBound_stored (grants : List Grant) (name : String) (register : Nat) :
    firstBound (grants ++ [.stored name register]) =
      if name ∈ firstBound grants then firstBound grants else firstBound grants ++ [name] := by
  have last : [Grant.stored name register].filterMap Grant.bound? = [name] := rfl
  simp only [firstBound, List.filterMap_append, last, List.eraseDups_append, List.mem_eraseDups]
  generalize grants.filterMap Grant.bound? = names
  by_cases earlier : name ∈ names
  · simp [earlier, List.removeAll]
  · simp [earlier, List.removeAll, List.eraseDups_cons]

theorem firstBound_other {grants others : List Grant} (none : others.filterMap Grant.bound? = []) :
    firstBound (grants ++ others) = firstBound grants := by
  simp [firstBound, none]

def Grant.Held (context : Context) : Grant → Prop
  | .label _ => True
  | .stored name register | .loaded name register =>
    context.registers.find? name = some register

namespace Context

def Keeps (context later : Context) : Prop :=
  ∀ name register, context.registers.find? name = some register →
    later.registers.find? name = some register

theorem Keeps.refl (context : Context) : context.Keeps context :=
  fun _ _ found => found

theorem Keeps.trans {context middle later : Context} (first : context.Keeps middle)
    (second : middle.Keeps later) : context.Keeps later :=
  fun name register found => second name register (first name register found)

theorem Keeps.held {context later : Context} (keeps : context.Keeps later) {grant : Grant}
    (held : grant.Held context) : grant.Held later := by
  cases grant with
  | label => trivial
  | stored name register | loaded name register => exact keeps name register held

/-- These names, and no others, have registers, which are numbered as the names stand here. -/
structure Allocated (context : Context) (names : List String) : Prop where
  keys : context.registers.keys = names
  distinct : names.Nodup
  injective : ∀ {name other register}, context.registers.find? name = some register →
    context.registers.find? other = some register → name = other
  numbers : ∀ register, (∃ name, context.registers.find? name = some register) ↔
    register < context.next
  count : context.next = names.length
  inOrder : ∀ name register, context.registers.find? name = some register ↔
    names[register]? = some name

theorem Dense.getElem?_keys {context : Context} (dense : context.Dense) {name : String}
    {register : Nat} : context.registers.find? name = some register ↔
      context.registers.keys[register]? = some name := by
  have forward {register : Nat} (found : context.registers.find? name = some register) :
      context.registers.keys[register]? = some name := by
    obtain ⟨index, place⟩ := List.mem_iff_getElem?.mp (Table.mem_of_lookup found)
    have value : context.registers.values[index]? = some register := by
      simp [Table.values, place]
    obtain ⟨_, rfl⟩ : index < context.next ∧ index = register := by
      simpa [dense.numbers, List.getElem?_eq_some_iff] using value
    simp [Table.keys, place]
  refine ⟨forward, fun place => ?_⟩
  obtain ⟨other, found⟩ := Table.mem_keys_iff.mp (List.mem_of_getElem? place)
  have bound := (List.getElem?_eq_some_iff.mp place).1
  obtain rfl := (List.getElem?_inj bound dense.distinct).mp (place.trans (forward found).symm)
  exact found

theorem Dense.allocated {context : Context} (dense : context.Dense) :
    context.Allocated context.registers.keys where
  keys := rfl
  distinct := dense.distinct
  injective := dense.injective
  numbers register := by
    simp only [dense.getElem?_keys, dense.next_eq]
    constructor
    · rintro ⟨name, place⟩
      exact (List.getElem?_eq_some_iff.mp place).1
    · exact fun bound => ⟨_, List.getElem?_eq_getElem bound⟩
  count := dense.next_eq
  inOrder _ _ := dense.getElem?_keys

end Context

namespace Record
open Context

/-- What has been handed out between two contexts, by whatever calls. -/
abbrev History : Context → List Grant → Context → Prop :=
  Trail fun _ => True

theorem Trail.history {Asked : List String → Prop} {context after : Context} {grants : List Grant}
    (trail : Trail Asked context grants after) : History context grants after := by
  induction trail with
  | none => exact .none
  | append _ _ ih ihs => exact ih.append ihs
  | labels _ draw => exact .labels trivial draw
  | stored assigned => exact .stored assigned
  | loaded found => exact .loaded found

/-- Labels have nothing to do with registers. -/
theorem Draw.same {stems : List String} {context after : Context} {grants : List Grant}
    (draw : Draw stems context grants after) : SameRegisters context after ∧
      grants.filterMap Grant.bound? = [] ∧ ∀ grant ∈ grants, grant.Held after := by
  induction draw with
  | none => exact ⟨⟨rfl, rfl⟩, rfl, by simp⟩
  | drawn first _ ih =>
    obtain ⟨⟨registers, next⟩, none, held⟩ := ih
    obtain ⟨_, _, rfl⟩ := freshLabel_eq_ok_iff.mp first
    exact ⟨⟨registers, next⟩, none, List.forall_mem_cons.mpr ⟨trivial, held⟩⟩
  | refused failed =>
    obtain ⟨_, _, rfl⟩ := freshLabel_eq_error_iff.mp failed
    exact ⟨⟨rfl, rfl⟩, rfl, by simp⟩

theorem Draw.split {stems : List String} {context after : Context} {grants done rest : List Grant}
    (draw : Draw stems context grants after) (split : grants = done ++ rest) :
    ∃ earlier later point, Draw earlier context done point ∧ Draw later point rest after := by
  induction draw generalizing done with
  | none =>
    obtain ⟨rfl, rfl⟩ := List.append_eq_nil_iff.mp split.symm
    exact ⟨[], [], _, .none, .none⟩
  | refused failed =>
    obtain ⟨rfl, rfl⟩ := List.append_eq_nil_iff.mp split.symm
    exact ⟨[], [_], _, .none, .refused failed⟩
  | drawn first further ih =>
    cases done with
    | nil =>
      subst split
      exact ⟨[], _, _, .none, .drawn first further⟩
    | cons grant done =>
      obtain ⟨rfl, following⟩ := List.cons.inj split
      obtain ⟨earlier, later, point, before, after⟩ := ih following
      exact ⟨_, later, point, .drawn first before, after⟩

namespace History
variable {context after : Context} {grants : List Grant}

theorem keeps (history : History context grants after) : context.Keeps after := by
  induction history with
  | none | loaded => exact .refl _
  | append _ _ ih ihs => exact ih.trans ihs
  | labels _ draw =>
    intro name register found
    rwa [draw.same.1.1]
  | stored assigned => exact fun name register => assign_kept assigned

theorem held (history : History context grants after) : ∀ grant ∈ grants, grant.Held after := by
  induction history with
  | none => simp
  | append _ second ih ihs =>
    exact List.forall_mem_append.mpr
      ⟨fun grant member => (keeps second).held (ih grant member), ihs⟩
  | labels _ draw => exact draw.same.2.2
  | stored assigned => simpa [Grant.Held] using assign_found assigned
  | loaded found => simpa [Grant.Held] using found

theorem dense_after (history : History context grants after) (dense : context.Dense) :
    after.Dense := by
  induction history with
  | none | loaded => exact dense
  | append _ _ ih ihs => exact ihs (ih dense)
  | labels _ draw => exact dense.of_same draw.same.1
  | stored assigned => exact dense.assign assigned

/-- A name that is bound comes last if it has no register yet. -/
theorem keys_after (history : History context grants after) {earlier : List Grant}
    (keys : context.registers.keys = firstBound earlier) :
    after.registers.keys = firstBound (earlier ++ grants) := by
  induction history generalizing earlier with
  | none => rw [List.append_nil, keys]
  | append _ _ ih ihs =>
    rw [← List.append_assoc]
    exact ihs (ih keys)
  | labels _ draw =>
    obtain ⟨same, none, _⟩ := draw.same
    rw [same.1, keys, firstBound_other none]
  | loaded found => rw [keys, firstBound_other rfl]
  | stored assigned =>
    rw [firstBound_stored, ← keys]
    obtain ⟨found, rfl⟩ | ⟨absent, _, rfl⟩ := assign_cases assigned
    · rw [if_pos (Table.mem_keys_iff.mpr ⟨_, found⟩)]
    · rw [if_neg (Table.find?_eq_none_iff.mp absent)]
      exact (Table.insert_new absent _).1

theorem dense (history : History context grants after) {earlier : List Grant}
    (dense : context.Dense) (keys : context.registers.keys = firstBound earlier) :
    after.Dense ∧ after.registers.keys = firstBound (earlier ++ grants) :=
  ⟨history.dense_after dense, history.keys_after keys⟩

/-- Between what has been handed out and what is still to come there is a context. -/
theorem split (history : History context grants after) {done rest : List Grant}
    (split : grants = done ++ rest) :
    ∃ point, History context done point ∧ History point rest after := by
  induction history generalizing done rest with
  | none =>
    obtain ⟨rfl, rfl⟩ := List.append_eq_nil_iff.mp split.symm
    exact ⟨_, .none, .none⟩
  | append first second ih ihs =>
    rcases List.append_eq_append_iff.mp split with ⟨between, rfl, inside⟩ | ⟨between, inside, rfl⟩
    · obtain ⟨point, before, later⟩ := ihs inside
      exact ⟨point, first.append before, later⟩
    · obtain ⟨point, before, later⟩ := ih inside
      exact ⟨point, before, later.append second⟩
  | labels _ draw =>
    obtain ⟨_, _, point, before, later⟩ := draw.split split
    exact ⟨point, .labels trivial before, .labels trivial later⟩
  | stored assigned =>
    rcases List.singleton_eq_append_iff.mp split with ⟨rfl, rfl⟩ | ⟨rfl, rfl⟩
    · exact ⟨_, .none, .stored assigned⟩
    · exact ⟨_, .stored assigned, .none⟩
  | loaded found =>
    rcases List.singleton_eq_append_iff.mp split with ⟨rfl, rfl⟩ | ⟨rfl, rfl⟩
    · exact ⟨_, .none, .loaded found⟩
    · exact ⟨_, .loaded found, .none⟩

end History
end Record

def allGrants (steps : List Step) : List Grant :=
  steps.flatMap Step.grants

def lastContext : List Call → Context → Context
  | [], context => context
  | call :: rest, context => lastContext rest (Step.after ⟨call, context⟩)

/-- The names that a call binds or uses occur here, in reading order. -/
def Call.reading : Call → List Occurrence
  | .bind name => [.bound name]
  | .registerFor name => [.reached (.var name)]
  | .freshLabel _ => []
  | .compile expr => expr.reading
  | .compileForm form => form.toExpr.reading
  | .compileProgram program => Expr.allReading program.exprs

def Answer.Accesses (answer : Answer) (accesses : Code) : Prop :=
  match answer with
  | .code returned => returned.accesses = accesses
  | .register _ | .label _ => True

open Record in
theorem Call.grants (call : Call) : Grants call.reading call.run Answer.Accesses := by
  cases call with
  | bind name =>
    rw [run]
    exact (Grants.assign name).map fun _ _ _ => trivial
  | registerFor name =>
    rw [run]
    exact (Grants.registerOf name).map fun _ _ _ => trivial
  | freshLabel stem =>
    rw [run]
    exact (Grants.freshLabel stem).map fun _ _ _ => trivial
  | compile expr =>
    rw [run]
    exact (compile_grants expr).map fun _ _ accesses => accesses
  | compileForm form =>
    rw [run]
    exact (compile_grants form.toExpr).map fun _ _ accesses => accesses
  | compileProgram program =>
    rw [run]
    exact (compileForms_grants program).map fun _ _ accesses => accesses

namespace Step
open Stateful Context Record

theorem history (step : Step) : History step.before step.grants step.after :=
  step.trail.history

/-- A call that succeeds has been granted a register for each name that occurs in it, and one that
fails for the first of them. -/
theorem granted (step : Step) :
    match step.result with
    | .ok answer _ => step.grants.filterMap Grant.occurrence? = Occurrence.named step.call.reading ∧
        answer.Accesses (step.grants.filterMap Grant.access?)
    | .error _ _ =>
        step.grants.filterMap Grant.occurrence? <+: Occurrence.named step.call.reading := by
  obtain ⟨_, _, same⟩ := step.call.recorded step.before
  obtain ⟨grants, added, told⟩ := step.call.grants ⟨step.before, []⟩
  obtain rfl : step.grants = grants := added
  rw [same] at told
  unfold Step.result
  cases result : step.call.run step.before with
  | ok answer after | error failure after =>
    rw [result] at told
    exact told

theorem granted_accesses {step : Step} {code : Code} (returned : code ∈ step.code?) :
    code.accesses = step.grants.filterMap Grant.access? := by
  have told := step.granted
  unfold Step.code? at returned
  split at returned
  · rename_i done
    cases returned
    rw [done] at told
    exact told.2
  · contradiction

theorem granted_occurrences (step : Step) :
    ∃ missing, Occurrence.named step.call.reading =
        step.grants.filterMap Grant.occurrence? ++ missing ∧
      (failure? step.result = none → missing = []) := by
  have told := step.granted
  cases result : step.result with
  | ok answer context =>
    rw [result] at told
    exact ⟨[], by rw [told.1, List.append_nil], fun _ => rfl⟩
  | error failure context =>
    rw [result] at told
    obtain ⟨missing, whole⟩ := told
    exact ⟨missing, whole.symm, fun none => by simp [failure?] at none⟩

theorem registerFor {step : Step} {name : String} (asked : step.call = .registerFor name) :
    failure? step.result = if name ∈ step.before.registers.keys then none
      else some (.ofFault (.compile (.undefinedVariable name))) := by
  rw [Step.result, asked, Call.run, bind_apply, Context.supply_registerOf, Context.registerOf]
  cases found : step.before.registers.find? name with
  | some register =>
    rw [if_pos (Table.mem_keys_iff.mpr ⟨register, found⟩)]
    rfl
  | none =>
    rw [if_neg (Table.find?_eq_none_iff.mp found)]
    rfl

/-- How registers are given in a call: `earlier` is what has been handed out before it, and `last` is
the context that the session leaves. -/
structure Regular (step : Step) (earlier : List Grant) (last : Context) : Prop where
  before : step.before.Allocated (firstBound earlier)
  after : step.after.Allocated (firstBound (earlier ++ step.grants))
  kept : step.before.Keeps step.after
  lasting : step.after.Keeps last
  /-- Whatever of the call has been done, the names that have been bound until then have registers,
  those that have been handed out during the call still belong to their names, and all that will be
  so to the end. -/
  points : ∀ done rest, step.grants = done ++ rest → ∃ point,
    History step.before done point ∧ History point rest step.after ∧
    point.Allocated (firstBound (earlier ++ done)) ∧ (∀ grant ∈ done, grant.Held point) ∧
    step.before.Keeps point ∧ point.Keeps last
  /-- The stores and loads that are returned are those that registers have been granted for. -/
  accesses : ∀ code ∈ step.code?, code.accesses = step.grants.filterMap Grant.access?
  /-- They are granted for the bindings and variables of the source, in order. -/
  occurrences : ∃ missing, Occurrence.named step.call.reading =
    step.grants.filterMap Grant.occurrence? ++ missing ∧
    (failure? step.result = none → missing = [])
  unbound : ∀ name, step.call = .registerFor name →
    failure? step.result = if name ∈ firstBound earlier then none
      else some (.ofFault (.compile (.undefinedVariable name)))

end Step

open Stateful Context Record

theorem session_trail (calls : List Call) (context : Context) :
    History context (allGrants (session calls context)) (lastContext calls context) := by
  induction calls generalizing context with
  | nil => exact .none
  | cons call rest ih => exact (Step.history ⟨call, context⟩).append (ih _)

/-- The calls before a step lead from the first context to the step, and those after it from the
step to the last context. -/
theorem session_history {calls : List Call} {context : Context} {before after : List Step}
    {step : Step} (split : session calls context = before ++ step :: after) :
    History context (allGrants before) step.before ∧
      History step.after (allGrants after) (lastContext calls context) := by
  induction before generalizing calls context with
  | nil =>
    cases calls with
    | nil => contradiction
    | cons call rest =>
      obtain ⟨rfl, rfl⟩ := List.cons.inj split
      exact ⟨.none, session_trail rest _⟩
  | cons first before ih =>
    cases calls with
    | nil => contradiction
    | cons call rest =>
      obtain ⟨rfl, following⟩ := List.cons.inj split
      obtain ⟨earlier, later⟩ := ih following
      exact ⟨(Step.history _).append earlier, later⟩

/-- In a session with a new context, whatever the calls are and whichever of them fail, each call is
given registers as it should be: they are numbered from zero on in the order in which the names have
been bound first, and each belongs to its name from then on. -/
theorem session_registers {calls : List Call} {before after : List Step} {step : Step}
    (split : session calls {} = before ++ step :: after) :
    step.Regular (allGrants before) (lastContext calls {}) := by
  obtain ⟨earlier, later⟩ := session_history split
  have start : Table.keys ({} : Context).registers = firstBound [] := rfl
  obtain ⟨dense, keys⟩ := earlier.dense dense_empty start
  obtain ⟨denseAfter, keysAfter⟩ := step.history.dense dense keys
  refine
    { before := keys ▸ dense.allocated
      after := keysAfter ▸ denseAfter.allocated
      kept := step.history.keeps
      lasting := later.keeps
      points := ?points
      accesses := fun _ => Step.granted_accesses
      occurrences := step.granted_occurrences
      unbound := ?unbound }
  case points =>
    intro done rest handed
    obtain ⟨point, first, second⟩ := step.history.split handed
    obtain ⟨densePoint, keysPoint⟩ := first.dense dense keys
    exact ⟨point, first, second, keysPoint ▸ densePoint.allocated, first.held, first.keeps,
      second.keeps.trans later.keeps⟩
  case unbound =>
    intro name asked
    rw [Step.registerFor asked, keys]
    rfl

/-- A form that fails when it has bound a name, and a name that is not bound, come before the last
call. -/
theorem session_registers_interrupted :
    let calls : List Call := [.bind "a",
      .compileForm ⟨"let", [.form "" [.binding "x" (.var "a")], .var "y"]⟩,
      .registerFor "y"]
    let last : Call := .compile
      (.form "let" [.form "" [.binding "y" (.var "x"), .binding "a" (.int 1)], .var "y"])
    let steps := session calls {}
    let step : Step := ⟨last, lastContext calls {}⟩
    steps.map (fun step => failure? step.result) = [none,
      some (.ofFault (.compile (.undefinedVariable "y"))),
      some (.ofFault (.compile (.undefinedVariable "y")))] ∧
    firstBound (allGrants steps) = ["a", "x"] ∧
    step.code? = some [.load 1, .store 2, .push 1, .store 0, .load 2] ∧
    session (calls ++ [last]) {} = steps ++ [step] ∧
    step.Regular (allGrants steps) (lastContext (calls ++ [last]) {}) := by
  intro calls last steps step
  have split : session (calls ++ [last]) {} = steps ++ [step] := rfl
  exact ⟨by decide +kernel, by decide +kernel, by decide +kernel, split, session_registers split⟩

end StackScheme
