import StackScheme.Proofs.Compiler.Labels

/-! Compiling with a record of what is handed out. A compilation that fails returns no code, but the
labels it has drawn and the registers it has assigned are gone all the same. A context that keeps a
record of them supplies the compiler with the same registers and labels as the context by itself, so
compiling comes to the same results and leaves the same contexts. -/
namespace StackScheme

/-- What a context hands out. -/
inductive Grant
  | label (label : String)
  /-- A register for a name that is bound. -/
  | stored (name : String) (register : Nat)
  /-- The register of a name that is used. -/
  | loaded (name : String) (register : Nat)
deriving DecidableEq

def Grant.label? : Grant → Option String
  | .label name => some name
  | .stored _ _ | .loaded _ _ => none

/-- A context and what it has handed out, in order. -/
structure Record where
  context : Context := {}
  grants : List Grant := []

abbrev RecordM := EStateM Failure Record

namespace Record
open Stateful Compiler

/-- Notes what an action has handed out when it has succeeded. -/
def noting {α : Type} (note : α → List Grant) (action : CompileM α) : RecordM α := fun record =>
  match action record.context with
  | .ok value context => .ok value ⟨context, record.grants ++ note value⟩
  | .error failure context => .error failure ⟨context, record.grants⟩

instance : Supply Record where
  assign name := noting (fun register => [.stored name register]) (Context.assign name)
  registerOf name := noting (fun register => [.loaded name register]) (Context.registerOf name)
  freshLabel stem := noting (fun label => [.label label]) (Context.freshLabel stem)

/-- Labels drawn from these stems, one after the other, until one is refused. -/
inductive Draw : List String → Context → List Grant → Context → Prop
  | none {context} : Draw [] context [] context
  | drawn {stem stems label context middle grants after}
      (first : Context.freshLabel stem context = .ok label middle)
      (rest : Draw stems middle grants after) :
      Draw (stem :: stems) context (.label label :: grants) after
  | refused {stem stems failure context after}
      (failed : Context.freshLabel stem context = .error failure after) :
      Draw (stem :: stems) context [] after

/-- What has been handed out between two contexts, where labels are drawn from the rows of stems
that may be asked for. -/
inductive Trail (Asked : List String → Prop) : Context → List Grant → Context → Prop
  | none {context} : Trail Asked context [] context
  | append {context middle after grants others} (first : Trail Asked context grants middle)
      (second : Trail Asked middle others after) : Trail Asked context (grants ++ others) after
  | labels {context after stems grants} (asked : Asked stems)
      (draw : Draw stems context grants after) : Trail Asked context grants after
  | stored {context after name} {register : Nat}
      (assigned : Context.assign name context = .ok register after) :
      Trail Asked context [.stored name register] after
  | loaded {context name} {register : Nat}
      (found : context.registers.find? name = some register) :
      Trail Asked context [.loaded name register] context

/-- The recorded action does what the action does, and adds to the record what it hands out. -/
def Records {α : Type} (Asked : List String → Prop) (recorded : RecordM α)
    (action : CompileM α) : Prop :=
  ∀ context, ∃ grants, Trail Asked context grants (Stateful.final (action context)) ∧
    ∀ earlier, recorded ⟨context, earlier⟩ =
      Stateful.mapState (fun after => ⟨after, earlier ++ grants⟩) (action context)

namespace Records
variable {α β : Type} {Asked : List String → Prop}

theorem pure (value : α) : Records Asked (pure value) (pure value) := by
  intro context
  exact ⟨[], .none, fun earlier => by rw [List.append_nil]; rfl⟩

theorem bind {recorded : RecordM α} {action : CompileM α} {next : α → RecordM β}
    {following : α → CompileM β} (first : Records Asked recorded action)
    (second : ∀ value, Records Asked (next value) (following value)) :
    Records Asked (recorded >>= next) (action >>= following) := by
  intro context
  obtain ⟨grants, trail, same⟩ := first context
  cases result : action context with
  | ok value middle =>
    obtain ⟨others, further, rest⟩ := second value middle
    rw [result] at trail same
    refine ⟨grants ++ others, ?_, fun earlier => ?_⟩
    · rw [bind_ok result]
      exact trail.append further
    · rw [bind_ok result, bind_ok (same earlier), rest, List.append_assoc]
  | error failure middle =>
    rw [result] at trail same
    refine ⟨grants, ?_, fun earlier => ?_⟩
    · rw [bind_error result]
      exact trail
    · rw [bind_error result, bind_error (same earlier)]
      rfl

theorem noting {note : α → List Grant} {action : CompileM α}
    (explained : ∀ context,
      match action context with
      | .ok value after => Trail Asked context (note value) after
      | .error _ after => Trail Asked context [] after) :
    Records Asked (noting note action) action := by
  intro context
  have trail := explained context
  unfold Record.noting
  cases result : action context with
  | ok value after =>
    simp only [result] at trail
    exact ⟨note value, trail, fun earlier => by simp only [result]; rfl⟩
  | error failure after =>
    simp only [result] at trail
    exact ⟨[], trail, fun earlier => by simp only [result, List.append_nil]; rfl⟩

theorem fail (failure : Failure) :
    Records Asked (fun record => .error failure record : RecordM α)
      (fun context => .error failure context) := by
  intro context
  exact ⟨[], .none, fun earlier => by rw [List.append_nil]; rfl⟩

theorem lift (result : Except Failure α) :
    Records Asked (Failure.lift result) (Failure.lift result) := by
  intro context
  cases result with
  | ok value => exact ⟨[], .none, fun earlier => by rw [List.append_nil]; rfl⟩
  | error failure => exact ⟨[], .none, fun earlier => by rw [List.append_nil]; rfl⟩

theorem onLine {recorded : RecordM α} {action : CompileM α}
    (records : Records Asked recorded action) (line : Nat) :
    Records Asked (Failure.onLine line recorded) (Failure.onLine line action) := by
  intro context
  obtain ⟨grants, trail, same⟩ := records context
  refine ⟨grants, ?_, fun earlier => ?_⟩
  · unfold Failure.onLine
    cases result : action context with
    | ok value after | error failure after =>
      rw [result] at trail
      exact trail
  · unfold Failure.onLine
    rw [same earlier]
    cases action context <;> rfl

theorem assign (name : String) :
    Records Asked (Supply.assign name) (Context.assign name) := by
  apply noting
  intro context
  cases result : Context.assign name context with
  | ok register after => exact .stored result
  | error failure after =>
    unfold Context.assign at result
    split at result <;> contradiction

theorem registerOf (name : String) :
    Records Asked (Supply.registerOf name) (Context.registerOf name) := by
  apply noting
  intro context
  unfold Context.registerOf
  cases found : context.registers.find? name with
  | some register => exact .loaded found
  | none => exact .none

theorem freshLabel {stem : String} (asked : Asked [stem]) :
    Records Asked (Supply.freshLabel stem) (Context.freshLabel stem) := by
  apply noting
  intro context
  cases result : Context.freshLabel stem context with
  | ok label after => exact .labels asked (.drawn result .none)
  | error failure after => exact .labels asked (.refused result)

/-- The labels of a branch are drawn together. -/
theorem branch (asked : Asked ["fls", "tru", "done"])
    {next : String → String → String → RecordM α}
    {following : String → String → String → CompileM α}
    (each : ∀ onFalse onTrue done,
      Records Asked (next onFalse onTrue done) (following onFalse onTrue done)) :
    Records Asked
      (do
        let onFalse ← Supply.freshLabel "fls"
        let onTrue ← Supply.freshLabel "tru"
        let done ← Supply.freshLabel "done"
        next onFalse onTrue done)
      (do
        let onFalse ← Context.freshLabel "fls"
        let onTrue ← Context.freshLabel "tru"
        let done ← Context.freshLabel "done"
        following onFalse onTrue done) := by
  intro context
  simp only [bind_apply, Supply.freshLabel, Record.noting]
  cases first : Context.freshLabel "fls" context with
  | error failure after =>
    exact ⟨[], .labels asked (.refused first), fun earlier => by rw [List.append_nil]; rfl⟩
  | ok onFalse second =>
  dsimp only
  cases next : Context.freshLabel "tru" second with
  | error failure after =>
    exact ⟨_, .labels asked (.drawn first (.refused next)), fun _ => rfl⟩
  | ok onTrue third =>
  dsimp only
  cases last : Context.freshLabel "done" third with
  | error failure after =>
    refine ⟨_, .labels asked (.drawn first (.drawn next (.refused last))), fun earlier => ?_⟩
    rw [List.append_assoc]
    rfl
  | ok done drawn =>
  obtain ⟨grants, trail, same⟩ := each onFalse onTrue done drawn
  have draw := Draw.drawn first (.drawn next (.drawn last .none))
  refine ⟨_, (Trail.labels asked draw).append trail, fun earlier => ?_⟩
  simp only [same, List.append_assoc, List.cons_append, List.nil_append]

end Records

section
variable {Asked : List String → Prop} (asked : Asked ["fls", "tru", "done"])
include asked

/-- The induction follows the compiler, one case for each of its branches. -/
theorem all_recorded : (∀ expr, Records Asked (compile expr) (compile expr)) ∧
    (∀ args, Records Asked (compileLet args) (compileLet args)) ∧
    (∀ exprs, Records Asked (compileAll exprs) (compileAll exprs)) ∧
    (∀ members, Records Asked (compileBindings members) (compileBindings members)) ∧
    (∀ op args, Records Asked (compileOperands op args) (compileOperands op args)) := by
  refine compile.mutual_induct _ _ _ _ _ ?int ?bool ?var ?outside ?println ?printCount ?arith
    ?tooFew ?letIn ?ifElse ?branchCount ?group ?unknown ?bound ?unbound ?noBodies ?body ?binding
    ?noBindings ?noOperands ?operand
  case int | bool =>
    intro value
    rw [compile, compile]
    exact .pure _
  case var =>
    intro name
    rw [compile, compile]
    exact (Records.registerOf name).bind fun _ => .pure _
  case outside =>
    intro name value
    rw [compile, compile]
    exact .fail _
  case println =>
    intro op arg operator ih
    rw [compile.eq_5 _ _ operator, compile.eq_5 _ _ operator]
    exact ih.bind fun _ => .pure _
  case printCount =>
    intro op args other operator
    rw [compile.eq_6 _ _ operator other, compile.eq_6 _ _ operator other]
    exact .fail _
  case arith =>
    intro op f first second rest operator ih ihs
    rw [compile.eq_7 _ _ _ _ _ operator, compile.eq_7 _ _ _ _ _ operator]
    exact ih.bind fun _ => ihs.bind fun _ => .pure _
  case tooFew =>
    intro op f args other operator
    rw [compile.eq_8 _ _ _ operator other, compile.eq_8 _ _ _ operator other]
    exact .fail _
  case letIn =>
    intro op args operator ih
    rw [compile.eq_9 _ _ operator, compile.eq_9 _ _ operator]
    exact (Records.lift _).bind fun _ => ih
  case ifElse =>
    intro op condition positive negative operator ihTest ihTrue ihFalse
    rw [compile.eq_10 _ _ _ _ operator, compile.eq_10 _ _ _ _ operator]
    apply ihTest.bind
    intro tested
    apply Records.branch asked
    intro onFalse onTrue done
    exact ihTrue.bind fun _ => ihFalse.bind fun _ => .pure _
  case branchCount =>
    intro op args other operator
    rw [compile.eq_11 _ _ operator other, compile.eq_11 _ _ operator other]
    exact .fail _
  case group =>
    intro op args operator
    rw [compile.eq_12 _ _ operator, compile.eq_12 _ _ operator]
    exact .pure _
  case unknown =>
    intro op args operator
    rw [compile.eq_13 _ _ operator, compile.eq_13 _ _ operator]
    exact .fail _
  case bound =>
    intro members bodies ihBindings ihBodies
    rw [compileLet, compileLet]
    exact ihBindings.bind fun _ => ihBodies.bind fun _ => .pure _
  case unbound =>
    intro args other
    rw [compileLet.eq_2 _ other, compileLet.eq_2 _ other]
    exact .pure _
  case noBodies =>
    rw [compileAll, compileAll]
    exact .pure _
  case body =>
    intro expr rest ih ihs
    rw [compileAll, compileAll]
    exact ih.bind fun _ => ihs.bind fun _ => .pure _
  case binding =>
    intro name value rest ih ihs
    rw [compileBindings, compileBindings]
    exact ih.bind fun _ => (Records.assign name).bind fun _ => ihs.bind fun _ => .pure _
  case noBindings =>
    intro members other
    rw [compileBindings.eq_2 _ other, compileBindings.eq_2 _ other]
    exact .pure _
  case noOperands =>
    intro op
    rw [compileOperands, compileOperands]
    exact .pure _
  case operand =>
    intro op arg rest ih ihs
    rw [compileOperands, compileOperands]
    exact ih.bind fun _ => ihs.bind fun _ => .pure _

theorem compile_recorded (expr : Expr) : Records Asked (compile expr) (compile expr) :=
  (all_recorded asked).1 expr

theorem compileForms_recorded (program : Program) :
    Records Asked (compileForms program) (compileForms program) := by
  induction program with
  | nil => exact .pure _
  | cons numbered rest ih =>
    obtain ⟨line, form⟩ := numbered
    simp only [compileForms]
    exact ((compile_recorded asked form.toExpr).onLine line).bind fun _ => ih.bind fun _ => .pure _

end

end Record
end StackScheme
