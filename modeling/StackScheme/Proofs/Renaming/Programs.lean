import StackScheme.Proofs.Renaming.Names
import StackScheme.Proofs.Static.Acceptance
import Mathlib.Logic.Equiv.Basic

/-! Names carry no meaning but their identity. Where two names are never replaced by the same one, a
program and the program with other names have the same code, and they do the same when they are
evaluated. -/
namespace StackScheme
open Stateful

/-- The context in which the registers belong to the other names. -/
def Context.rename (ρ : String → String) (context : Context) : Context :=
  { context with registers := context.registers.mapKeys ρ }

/-- The values of the names are those of the other names, and the same has been printed. -/
structure Evaluation.Renamed (ρ : String → String) (state other : Evaluation) : Prop where
  env : other.env = state.env.mapKeys ρ
  output : other.output = state.output

namespace Compiler

/-- Both come to the same, or fail alike, and leave the same registers for names and other names. -/
abbrev Renames {α : Type} (ρ : String → String) (action other : CompileM α) : Prop :=
  Parallel (fun context context' => context' = context.rename ρ) (Failure.Renamed ρ) action other

section
variable {α : Type} {ρ : String → String}

theorem renames_fail {fault other : FormFault} (same : FormFault.Renamed ρ fault other) :
    Renames ρ (fail fault : CompileM α) (fail other) :=
  fun _ _ start => .error (.program (.compile same)) start

theorem renames_showing {expr : Expr} {fault : String → FormFault}
    (same : FormFault.Renamed ρ (fault expr.text) (fault (expr.rename ρ).text)) :
    Renames ρ (showing expr fault : CompileM α) (showing (expr.rename ρ) fault) :=
  fun _ _ start => .error (.showing (.compile same)) start

theorem renames_freshLabel (stem : String) :
    Renames ρ (Context.freshLabel stem) (Context.freshLabel stem) := by
  rintro context _ rfl
  simp only [Context.freshLabel, Context.rename]
  cases Numeral.write ((context.counters.find? stem).getD 0) with
  | ok digits => exact .ok rfl
  | error fault => exact .error (.numeral fault) rfl

/-- A binding list and the one with other names are both passed, or objected to alike. -/
theorem checkBindings_rename (ρ : String → String) (members : List Expr) :
    (∃ pairs others, checkBindings members = .ok pairs ∧
        checkBindings (Expr.renameAll ρ members) = .ok others) ∨
      ∃ failure other, checkBindings members = .error failure ∧
        checkBindings (Expr.renameAll ρ members) = .error other ∧
        Failure.Renamed ρ failure other := by
  induction members with
  | nil => exact .inl ⟨[], [], rfl, rfl⟩
  | cons member rest ih =>
    rw [Expr.renameAll]
    by_cases binds : member.IsBinding
    · obtain ⟨name, value, rfl⟩ := binds
      rw [Expr.rename, checkBindings, checkBindings]
      rcases ih with ⟨pairs, others, passed, passed'⟩ | ⟨failure, other, refused, refused', same⟩
      · exact .inl ⟨_, _, by rw [passed]; rfl, by rw [passed']; rfl⟩
      · exact .inr ⟨failure, other, by rw [refused]; rfl, by rw [refused']; rfl, same⟩
    · have single : ∀ name value, member = .binding name value → False :=
        fun name value same => binds ⟨name, value, same⟩
      rw [checkBindings.eq_3 _ _ single, checkBindings.eq_3 _ _ (Expr.rename_ne_binding single)]
      exact .inr ⟨_, _, rfl, rfl, .showing (.compile (.notBinding member))⟩

theorem bindingsOf_rename (ρ : String → String) (args : List Expr) :
    (∃ pairs others, bindingsOf args = .ok pairs ∧
        bindingsOf (Expr.renameAll ρ args) = .ok others) ∨
      ∃ failure other, bindingsOf args = .error failure ∧
        bindingsOf (Expr.renameAll ρ args) = .error other ∧ Failure.Renamed ρ failure other := by
  cases args with
  | nil => exact .inr ⟨_, _, rfl, rfl, .program (.compile (.notBindingList none))⟩
  | cons head bodies =>
    rw [Expr.renameAll]
    by_cases group : ∃ members, head = .form "" members
    · obtain ⟨members, rfl⟩ := group
      rw [Expr.rename]
      exact checkBindings_rename ρ members
    · have other : ∀ members, head = .form "" members → False :=
        fun members same => group ⟨members, same⟩
      rw [bindingsOf.eq_2 _ _ other, bindingsOf.eq_2 _ _ (Expr.rename_ne_group other)]
      exact .inr ⟨_, _, rfl, rfl, .showing (.compile (.notBindingList (some head)))⟩

/-- Binding lists are checked before anything is compiled. -/
theorem renames_bindingsOf {action other : CompileM α} (args : List Expr)
    (same : Renames ρ action other) :
    Renames ρ
      (do
        let _ ← Failure.lift (bindingsOf args)
        action)
      (do
        let _ ← Failure.lift (bindingsOf (Expr.renameAll ρ args))
        other) := by
  intro context context' start
  rcases bindingsOf_rename ρ args with
    ⟨pairs, others, passed, passed'⟩ | ⟨failure, fault, refused, refused', alike⟩
  · rw [passed, passed']
    exact same context context' start
  · rw [refused, refused']
    exact .error alike start

end

section
variable {ρ : String → String} (injective : Function.Injective ρ)
include injective

theorem renames_registerOf (name : String) :
    Renames ρ (Context.registerOf name) (Context.registerOf (ρ name)) := by
  rintro context _ rfl
  simp only [Context.registerOf, Context.rename, Table.find?_mapKeys injective]
  cases context.registers.find? name with
  | some register => exact .ok rfl
  | none => exact .error (.program (.compile (.undefinedVariable name))) rfl

theorem renames_assign (name : String) :
    Renames ρ (Context.assign name) (Context.assign (ρ name)) := by
  rintro context _ rfl
  simp only [Context.assign, Context.rename, Table.find?_mapKeys injective,
    Table.insert_mapKeys injective]
  cases context.registers.find? name with
  | some register => exact .ok rfl
  | none => exact .ok rfl

/-- The induction follows the compiler, one case for each of its branches. -/
theorem all_renamed : (∀ expr, Renames ρ (compile expr) (compile (expr.rename ρ))) ∧
    (∀ args, Renames ρ (compileLet args) (compileLet (Expr.renameAll ρ args))) ∧
    (∀ exprs, Renames ρ (compileAll exprs) (compileAll (Expr.renameAll ρ exprs))) ∧
    (∀ members, Renames ρ (compileBindings members)
      (compileBindings (Expr.renameAll ρ members))) ∧
    (∀ op args, Renames ρ (compileOperands op args)
      (compileOperands op (Expr.renameAll ρ args))) := by
  refine compile.mutual_induct _ _ _ _ _ ?int ?bool ?var ?outside ?println ?printCount ?arith
    ?tooFew ?letIn ?ifElse ?branchCount ?group ?unknown ?bound ?unbound ?noBodies ?body ?binding
    ?noBindings ?noOperands ?operand
  case int =>
    intro value
    rw [Expr.rename, compile]
    exact .pure _
  case bool =>
    intro value
    rw [Expr.rename, compile]
    exact .pure _
  case var =>
    intro name
    rw [Expr.rename, compile, compile]
    exact (renames_registerOf injective name).bind fun _ => .pure _
  case outside =>
    intro name value
    have shown : Renames ρ (showing (.binding name value) .bindingOutsideLet : CompileM Code)
        (showing (Expr.rename ρ (.binding name value)) .bindingOutsideLet) :=
      renames_showing (.bindingOutsideLet _)
    rw [Expr.rename] at shown
    rwa [Expr.rename, compile, compile]
  case println =>
    intro op arg operator ih
    rw [Expr.rename, Expr.renameAll, Expr.renameAll, compile.eq_5 _ _ operator,
      compile.eq_5 _ _ operator]
    exact ih.bind fun _ => .pure _
  case printCount =>
    intro op args other operator
    rw [Expr.rename, compile.eq_6 _ _ operator other,
      compile.eq_6 _ _ operator (Expr.renameAll_ne_one other), Expr.length_renameAll]
    exact renames_fail (.wrongCount op 1 _)
  case arith =>
    intro op f first second rest operator ih ihs
    rw [Expr.rename, Expr.renameAll, Expr.renameAll, compile.eq_7 _ _ _ _ _ operator,
      compile.eq_7 _ _ _ _ _ operator]
    exact ih.bind fun _ => ihs.bind fun _ => .pure _
  case tooFew =>
    intro op f args other operator
    rw [Expr.rename, compile.eq_8 _ _ _ operator other,
      compile.eq_8 _ _ _ operator (Expr.renameAll_ne_more other), Expr.length_renameAll]
    exact renames_fail (.tooFew op _)
  case letIn =>
    intro op args operator ih
    rw [Expr.rename, compile.eq_9 _ _ operator, compile.eq_9 _ _ operator]
    exact renames_bindingsOf args ih
  case ifElse =>
    intro op condition positive negative operator ihTest ihTrue ihFalse
    simp only [Expr.rename, Expr.renameAll]
    rw [compile.eq_10 _ _ _ _ operator, compile.eq_10 _ _ _ _ operator]
    refine ihTest.bind fun tested => ?_
    refine (renames_freshLabel "fls").bind fun onFalse => ?_
    refine (renames_freshLabel "tru").bind fun onTrue => ?_
    refine (renames_freshLabel "done").bind fun done => ?_
    exact ihTrue.bind fun _ => ihFalse.bind fun _ => .pure _
  case branchCount =>
    intro op args other operator
    rw [Expr.rename, compile.eq_11 _ _ operator other,
      compile.eq_11 _ _ operator (Expr.renameAll_ne_three other), Expr.length_renameAll]
    exact renames_fail (.wrongCount op 3 _)
  case group =>
    intro op args operator
    rw [Expr.rename, compile.eq_12 _ _ operator, compile.eq_12 _ _ operator]
    exact .pure _
  case unknown =>
    intro op args operator
    rw [Expr.rename, compile.eq_13 _ _ operator, compile.eq_13 _ _ operator]
    exact renames_fail (.unknownOperator op)
  case bound =>
    intro members bodies ihBindings ihBodies
    rw [Expr.renameAll, Expr.rename, compileLet, compileLet]
    exact ihBindings.bind fun _ => ihBodies.bind fun _ => .pure _
  case unbound =>
    intro args other
    rw [compileLet.eq_2 _ other, compileLet.eq_2 _ (Expr.renameAll_ne_group other)]
    exact .pure _
  case noBodies =>
    rw [Expr.renameAll, compileAll]
    exact .pure _
  case body =>
    intro expr rest ih ihs
    rw [Expr.renameAll, compileAll, compileAll]
    exact ih.bind fun _ => ihs.bind fun _ => .pure _
  case binding =>
    intro name value rest ih ihs
    rw [Expr.renameAll, Expr.rename, compileBindings, compileBindings]
    exact ih.bind fun _ => (renames_assign injective name).bind fun _ =>
      ihs.bind fun _ => .pure _
  case noBindings =>
    intro members other
    rw [compileBindings.eq_2 _ other,
      compileBindings.eq_2 _ (Expr.renameAll_ne_binding other)]
    exact .pure _
  case noOperands =>
    intro op
    rw [Expr.renameAll, compileOperands]
    exact .pure _
  case operand =>
    intro op arg rest ih ihs
    rw [Expr.renameAll, compileOperands, compileOperands]
    exact ih.bind fun _ => ihs.bind fun _ => .pure _

theorem compileProgram_renames (program : Program) :
    Renames ρ (compileProgram program) (compileProgram (program.rename ρ)) := by
  induction program with
  | nil => exact .pure _
  | cons numbered rest ih =>
    obtain ⟨line, form⟩ := numbered
    have first := (all_renamed injective).1 form.toExpr
    rw [← Form.toExpr_rename] at first
    exact (Failure.parallel_onLine first line).bind fun _ => ih.bind fun _ => .pure _

end

end Compiler

namespace Evaluator

/-- Both come to the same, or fail alike, with the same values for names and other names. -/
abbrev Renames {α : Type} (ρ : String → String) (action other : EvalM α) : Prop :=
  Parallel (Evaluation.Renamed ρ) (Failure.Renamed ρ) action other

section
variable {α : Type} {ρ : String → String}

theorem renames_fail {fault other : FormFault} (same : FormFault.Renamed ρ fault other) :
    Renames ρ (fail fault : EvalM α) (fail other) :=
  fun _ _ start => .error (.program (.evaluate same)) start

theorem renames_showing {expr : Expr} {fault : String → FormFault}
    (same : FormFault.Renamed ρ (fault expr.text) (fault (expr.rename ρ).text)) :
    Renames ρ (showing expr fault : EvalM α) (showing (expr.rename ρ) fault) :=
  fun _ _ start => .error (.showing (.evaluate same)) start

theorem renames_printLine (value : Int) : Renames ρ (printLine value) (printLine value) := by
  intro state other same
  unfold printLine
  cases Numeral.write value with
  | ok text => exact .ok ⟨same.env, by rw [same.output]⟩
  | error fault => exact .error (.numeral fault) same

/-- What is remarked is not compared: a remark shows the names. -/
theorem renames_remark (expr other : Expr) (bodies : List Expr) :
    Renames ρ (remark expr bodies) (remark other (Expr.renameAll ρ bodies)) := by
  intro state state' same
  rw [remark, remark, Expr.isEmpty_renameAll]
  by_cases empty : bodies.isEmpty
  · rw [if_pos empty, if_pos empty]
    exact .ok ⟨same.env, same.output⟩
  · rw [if_neg empty, if_neg empty]
    exact .ok same

theorem renames_demand (expr : Expr) (value : Option Int) :
    Renames ρ (demand expr value) (demand (expr.rename ρ) value) := by
  intro state other same
  cases value with
  | some value => exact .ok same
  | none => exact .error (.showing (.noValue expr)) same

theorem renames_valued {expr : Expr} {action other : EvalM (Option Int)}
    {next following : Int → EvalM α} (first : Renames ρ action other)
    (second : ∀ value, Renames ρ (next value) (following value)) :
    Renames ρ
      (do
        let value ← action
        next (← demand expr value))
      (do
        let value ← other
        following (← demand (expr.rename ρ) value)) :=
  first.bind fun value => (renames_demand expr value).bind second

end

section
variable {ρ : String → String} (injective : Function.Injective ρ)
include injective

theorem renames_lookup (name : String) : Renames ρ (lookup name) (lookup (ρ name)) := by
  intro state other same
  unfold lookup
  rw [same.env, Table.find?_mapKeys injective]
  cases state.env.find? name with
  | some value => exact .ok same
  | none => exact .error (.program (.evaluate (.undefinedVariable name))) same

theorem renames_bindName (name : String) (value : Int) :
    Renames ρ (bindName name value) (bindName (ρ name) value) := by
  intro state other same
  refine .ok ⟨?_, same.output⟩
  rw [same.env, Table.insert_mapKeys injective]

/-- The induction follows the evaluator, one case for each of its branches. -/
theorem all_renamed : (∀ expr, Renames ρ (evaluate expr) (evaluate (expr.rename ρ))) ∧
    (∀ last exprs, Renames ρ (evaluateBodies last exprs)
      (evaluateBodies last (Expr.renameAll ρ exprs))) ∧
    (∀ members, Renames ρ (evaluateBindings members)
      (evaluateBindings (Expr.renameAll ρ members))) ∧
    (∀ op soFar args, Renames ρ (evaluateOperands op soFar args)
      (evaluateOperands op soFar (Expr.renameAll ρ args))) := by
  refine evaluate.mutual_induct _ _ _ _ ?int ?bool ?var ?outside ?println ?printCount ?arith ?tooFew
    ?letIn ?notGroup ?noHead ?ifElse ?branchCount ?group ?unknown ?noBodies ?body ?noBindings
    ?binding ?notBinding ?noOperands ?operand
  case int =>
    intro value
    rw [Expr.rename, evaluate]
    exact .pure _
  case bool =>
    intro value
    rw [Expr.rename, evaluate]
    exact .pure _
  case var =>
    intro name
    rw [Expr.rename, evaluate, evaluate]
    exact (renames_lookup injective name).bind fun _ => .pure _
  case outside =>
    intro name value
    have shown : Renames ρ (showing (.binding name value) .bindingOutsideLet : EvalM (Option Int))
        (showing (Expr.rename ρ (.binding name value)) .bindingOutsideLet) :=
      renames_showing (.bindingOutsideLet _)
    rw [Expr.rename] at shown
    rwa [Expr.rename, evaluate, evaluate]
  case println =>
    intro op arg operator ih
    rw [Expr.rename, Expr.renameAll, Expr.renameAll, evaluate.eq_5 _ _ operator,
      evaluate.eq_5 _ _ operator]
    exact renames_valued ih fun value => (renames_printLine value).bind fun _ => .pure _
  case printCount =>
    intro op args other operator
    rw [Expr.rename, evaluate.eq_6 _ _ operator other,
      evaluate.eq_6 _ _ operator (Expr.renameAll_ne_one other), Expr.length_renameAll]
    exact renames_fail (.wrongCount op 1 _)
  case arith =>
    intro op f first second rest operator ih ihs
    rw [Expr.rename, Expr.renameAll, Expr.renameAll, evaluate.eq_7 _ _ _ _ _ operator,
      evaluate.eq_7 _ _ _ _ _ operator]
    exact renames_valued ih fun value => (ihs value).bind fun _ => .pure _
  case tooFew =>
    intro op f args other operator
    rw [Expr.rename, evaluate.eq_8 _ _ _ operator other,
      evaluate.eq_8 _ _ _ operator (Expr.renameAll_ne_more other), Expr.length_renameAll]
    exact renames_fail (.tooFew op _)
  case letIn =>
    intro op members bodies operator ihBindings ihBodies
    rw [Expr.rename, Expr.renameAll, Expr.rename, evaluate.eq_9 _ _ _ operator,
      evaluate.eq_9 _ _ _ operator]
    exact ihBindings.bind fun _ => (renames_remark _ _ bodies).bind fun _ => ihBodies
  case notGroup =>
    intro op other tail head operator
    rw [Expr.rename, Expr.renameAll, evaluate.eq_10 _ _ _ head operator,
      evaluate.eq_10 _ _ _ (Expr.rename_ne_group head) operator]
    exact renames_showing (.notBindingList (some other))
  case noHead =>
    intro op operator
    rw [Expr.rename, Expr.renameAll, evaluate.eq_11 _ operator]
    exact renames_fail (.notBindingList none)
  case ifElse =>
    intro op condition positive negative operator ihTest ihTrue ihFalse
    simp only [Expr.rename, Expr.renameAll]
    rw [evaluate.eq_12 _ _ _ _ operator, evaluate.eq_12 _ _ _ _ operator]
    refine renames_valued ihTest fun value => ?_
    by_cases taken : value ≠ 0
    · rw [if_pos taken, if_pos taken]
      exact ihTrue
    · rw [if_neg taken, if_neg taken]
      exact ihFalse
  case branchCount =>
    intro op args other operator
    rw [Expr.rename, evaluate.eq_13 _ _ operator other,
      evaluate.eq_13 _ _ operator (Expr.renameAll_ne_three other), Expr.length_renameAll]
    exact renames_fail (.wrongCount op 3 _)
  case group =>
    intro op args operator
    rw [Expr.rename, evaluate.eq_14 _ _ operator, evaluate.eq_14 _ _ operator]
    exact .pure _
  case unknown =>
    intro op args operator
    rw [Expr.rename, evaluate.eq_15 _ _ operator, evaluate.eq_15 _ _ operator]
    exact renames_fail (.unknownOperator op)
  case noBodies =>
    intro last
    rw [Expr.renameAll, evaluateBodies]
    exact .pure _
  case body =>
    intro last body rest ih ihs
    rw [Expr.renameAll, evaluateBodies, evaluateBodies]
    exact ih.bind ihs
  case noBindings =>
    rw [Expr.renameAll, evaluateBindings]
    exact .pure _
  case binding =>
    intro name value rest ih ihs
    rw [Expr.renameAll, Expr.rename, evaluateBindings, evaluateBindings]
    exact renames_valued ih fun number =>
      (renames_bindName injective name number).bind fun _ => ihs
  case notBinding =>
    intro other tail single
    rw [Expr.renameAll, evaluateBindings.eq_3 _ _ single,
      evaluateBindings.eq_3 _ _ (Expr.rename_ne_binding single)]
    exact renames_showing (.notBinding other)
  case noOperands =>
    intro op soFar
    rw [Expr.renameAll, evaluateOperands]
    exact .pure _
  case operand =>
    intro op soFar arg rest ih ihs
    rw [Expr.renameAll, evaluateOperands, evaluateOperands]
    exact renames_valued ih ihs

theorem evaluateProgram_renames (program : Program) :
    Renames ρ (evaluateProgram program) (evaluateProgram (program.rename ρ)) := by
  induction program with
  | nil => exact .pure _
  | cons numbered rest ih =>
    obtain ⟨line, form⟩ := numbered
    have first := (all_renamed injective).1 form.toExpr
    rw [← Form.toExpr_rename] at first
    exact (Failure.parallel_onLine first line).bind fun _ => ih

end

end Evaluator

/-- A program and the program with other names compile to the same code, in which the other names
have the registers of the names, or both are refused for the same reason on the same line. When
they are evaluated they print the same, they both come to their ends or fail for the same reason on
the same line, and the other names have the values of the names. -/
theorem names_are_identities {ρ : String → String} (injective : Function.Injective ρ)
    {program : Program} (fits : ∀ n ∈ Expr.allIntegers program.exprs, Numeral.Fits n)
    (few : branches (Expr.allReading program.exprs) < Numeral.ceiling) :
    Paired
      (fun context context' => context' = context.rename ρ ∧
        ∀ name, context'.registers.find? (ρ name) = context.registers.find? name)
      (fun failure failure' => ∃ (line : Nat) (fault fault' : FormFault),
        failure = .program ⟨.compile fault, some line⟩ ∧
        failure' = .program ⟨.compile fault', some line⟩ ∧ FormFault.Renamed ρ fault fault')
      (Compiler.compileProgram program {}) (Compiler.compileProgram (program.rename ρ) {}) ∧
    Paired (Evaluation.Renamed ρ) (Failure.Renamed ρ)
      (Evaluator.evaluateProgram program {}) (Evaluator.evaluateProgram (program.rename ρ) {}) := by
  constructor
  · refine (Compiler.compileProgram_renames injective program {} {} rfl).weaken ?_ ?_
    · rintro context _ rfl
      exact ⟨rfl, Table.find?_mapKeys injective context.registers⟩
    · intro failure state other failed alike
      obtain ⟨_, line, _, _, fault, _, rfl, _⟩ := Compiler.refused_at fits few failed
      obtain ⟨⟨same⟩⟩ := alike
      exact ⟨line, _, _, rfl, rfl, same⟩
  · exact Evaluator.evaluateProgram_renames injective program {} {} ⟨rfl, rfl⟩

/-- A variable and a variable with the name of an operator change places. The second form fails. -/
theorem names_are_identities_operator :
    let ρ : String → String := Equiv.swap "x" "+"
    let program : Program :=
      [⟨1, "let", [.form "" [.binding "x" (.int 2)],
          .form "println" [.form "+" [.var "x", .int 1]]]⟩,
        ⟨3, "println", [.var "+"]⟩]
    (program.rename ρ).exprs.map Expr.text =
      ["(let ([+ 2]) (println (+ + 1)))", "(println x)"] ∧
    (final (Evaluator.evaluateProgram program {})).output = "3\n" ∧
    failure? (Compiler.compileProgram program {}) =
      some (.program ⟨.compile (.undefinedVariable "+"), some 3⟩) ∧
    Paired
      (fun context context' => context' = context.rename ρ ∧
        ∀ name, context'.registers.find? (ρ name) = context.registers.find? name)
      (fun failure failure' => ∃ (line : Nat) (fault fault' : FormFault),
        failure = .program ⟨.compile fault, some line⟩ ∧
        failure' = .program ⟨.compile fault', some line⟩ ∧ FormFault.Renamed ρ fault fault')
      (Compiler.compileProgram program {}) (Compiler.compileProgram (program.rename ρ) {}) ∧
    Paired (Evaluation.Renamed ρ) (Failure.Renamed ρ)
      (Evaluator.evaluateProgram program {}) (Evaluator.evaluateProgram (program.rename ρ) {}) := by
  intro ρ program
  have injective : Function.Injective ρ := (Equiv.swap "x" "+").injective
  have none : branches (Expr.allReading program.exprs) = 0 := by
    decide +kernel
  have few : branches (Expr.allReading program.exprs) < Numeral.ceiling :=
    none ▸ Numeral.fits_natCast.mp (Numeral.fits_small (by decide))
  exact ⟨by decide +kernel, by decide +kernel, by decide +kernel,
    names_are_identities injective (by decide +kernel) few⟩

end StackScheme
