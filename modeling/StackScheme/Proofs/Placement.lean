import StackScheme.Machine
import StackScheme.Proofs.Reader.Failures
import StackScheme.Proofs.Relocation

/-! Where failures get their lines. Nothing that is done with a single line or form says on which
line it fails; this is said by the loop that goes through the lines or forms, and by nothing else.
So a text that is moved down fails as before, on lines further down. -/
namespace StackScheme
open Stateful

namespace Failure
variable {σ α β : Type}

/-- Nothing is said about a line. -/
def Lineless (failure : Failure) : Prop :=
  failure.unplaced = failure

theorem lineless_ofFault (fault : Fault) : Lineless (ofFault fault) := rfl

theorem lineless_numeral (fault : NumeralFault) : Lineless (numeral fault) := rfl

theorem lineless_showing (expr : Expr) (fault : String → Fault) :
    Lineless (showing expr fault) := by
  unfold showing
  split <;> rfl

/-- The failure of a text as that of a longer one, in which so many lines stand above it. -/
def below (lines : Nat) : Failure → Failure
  | .program fault => .program { fault with line := fault.line.map (· + lines) }
  | failure => failure

theorem Lineless.below_withLine {failure : Failure} (lineless : failure.Lineless)
    (line lines : Nat) :
    (failure.withLine line).below lines = failure.withLine (line + lines : Nat) := by
  cases failure with
  | program fault =>
    obtain ⟨cause, place⟩ := fault
    obtain rfl : none = place := congrArg Located.line (Failure.program.inj lineless)
    rfl
  | _ => rfl

/-- No failure of the action says anything about a line. -/
def FailsLineless (action : EStateM Failure σ α) : Prop :=
  Ensures Lineless (fun _ => True) action fun _ _ => True

namespace FailsLineless

theorem pure (value : α) : FailsLineless (pure value : EStateM Failure σ α) :=
  Ensures.pure fun _ _ => trivial

theorem bind {action : EStateM Failure σ α} {next : α → EStateM Failure σ β}
    (first : FailsLineless action) (second : ∀ value, FailsLineless (next value)) :
    FailsLineless (action >>= next) :=
  Ensures.bind first second

theorem map {action : EStateM Failure σ α} (lineless : FailsLineless action) (f : α → β) :
    FailsLineless (action >>= fun value => Pure.pure (f value)) :=
  lineless.bind fun _ => pure _

theorem fail {failure : Failure} (lineless : failure.Lineless) :
    FailsLineless (fun state => .error failure state : EStateM Failure σ α) :=
  fun _ _ => lineless

theorem lift {result : Except Failure α}
    (lineless : ∀ failure, result = .error failure → failure.Lineless) :
    FailsLineless (Failure.lift result : EStateM Failure σ α) := by
  intro state _
  cases result with
  | ok value => trivial
  | error failure => exact lineless failure rfl

theorem lineless {action : EStateM Failure σ α} (lineless : FailsLineless action)
    {failure : Failure} {state after : σ} (failed : action state = .error failure after) :
    failure.Lineless := by
  have ended := lineless state trivial
  rwa [failed] at ended

/-- On a line further down, the action does the same and fails there. -/
theorem below_onLine {action : EStateM Failure σ α} (lineless : FailsLineless action)
    (line lines : Nat) :
    (onLine line action).adaptExcept (below lines) = onLine (line + lines) action := by
  funext state
  simp only [EStateM.adaptExcept, onLine]
  cases result : action state with
  | ok value after => rfl
  | error failure after => simp only [(lineless.lineless result).below_withLine]

end FailsLineless
end Failure

open Failure

theorem Reader.readLine_lineless {line : String} {failure : Failure}
    (failed : readLine line = .error failure) : failure.Lineless := by
  rcases readLine_eq_error failed with ⟨fault, rfl⟩ | ⟨_, _, _, _, _, _, _, rfl⟩
  · exact lineless_ofFault _
  · exact lineless_numeral _

theorem Instr.decode_lineless {line : String} {failure : Failure}
    (failed : decode line = .error failure) : failure.Lineless := by
  unfold decode at failed
  split at failed
  · contradiction
  · split at failed
    · contradiction
    · obtain rfl := Except.error.inj failed
      exact lineless_numeral _
    · obtain rfl := Except.error.inj failed
      exact lineless_ofFault _

theorem Machine.loadLine_lineless (line : String) : FailsLineless (loadLine line) := by
  intro machine _
  unfold loadLine
  cases decoded : Instr.decode line with
  | error failure => exact Instr.decode_lineless decoded
  | ok found =>
    cases found with
    | none => trivial
    | some instr => cases instr <;> trivial

namespace Compiler
open Context

theorem registerOf_lineless (name : String) : FailsLineless (registerOf name) := by
  intro context _
  unfold registerOf
  cases context.registers.find? name with
  | some register => trivial
  | none => exact lineless_ofFault _

theorem assign_lineless (name : String) : FailsLineless (assign name) := by
  intro context _
  unfold assign
  cases context.registers.find? name <;> trivial

theorem freshLabel_lineless (stem : String) : FailsLineless (freshLabel stem) := by
  intro context _
  unfold freshLabel
  dsimp only
  cases Numeral.write ((context.counters.find? stem).getD 0 : Nat) with
  | ok digits => trivial
  | error fault => exact lineless_numeral fault

theorem fail_lineless {α : Type} (fault : FormFault) : FailsLineless (fail fault : CompileM α) :=
  .fail (lineless_ofFault _)

theorem checkBindings_lineless {members : List Expr} {failure : Failure}
    (failed : checkBindings members = .error failure) : failure.Lineless := by
  fun_induction checkBindings members with
  | case1 => contradiction
  | case2 name value rest ih =>
    cases checked : checkBindings rest with
    | ok pairs =>
      rw [checked] at failed
      contradiction
    | error reason =>
      rw [checked] at failed
      obtain rfl := Except.error.inj failed
      exact ih checked
  | case3 other rest =>
    obtain rfl := Except.error.inj failed
    exact lineless_showing _ _

theorem bindingsOf_lineless {args : List Expr} {failure : Failure}
    (failed : bindingsOf args = .error failure) : failure.Lineless := by
  unfold bindingsOf at failed
  split at failed
  · exact checkBindings_lineless failed
  · obtain rfl := Except.error.inj failed
    exact lineless_showing _ _
  · obtain rfl := Except.error.inj failed
    exact lineless_ofFault _

/-- The induction follows the compiler, one case for each of its branches. -/
theorem all_lineless :
    (∀ expr, FailsLineless (compile expr : CompileM Code)) ∧
    (∀ args, FailsLineless (compileLet args : CompileM Code)) ∧
    (∀ exprs, FailsLineless (compileAll exprs : CompileM Code)) ∧
    (∀ members, FailsLineless (compileBindings members : CompileM Code)) ∧
    (∀ op args, FailsLineless (compileOperands op args : CompileM Code)) := by
  refine compile.mutual_induct _ _ _ _ _ ?int ?bool ?var ?outside ?println ?printCount ?arith
    ?tooFew ?letIn ?ifElse ?branchCount ?group ?unknown ?bound ?unbound ?noBodies ?body ?binding
    ?noBindings ?noOperands ?operand
  case int | bool =>
    intro value
    rw [compile]
    exact .pure _
  case var =>
    intro name
    rw [compile]
    exact (registerOf_lineless name).map _
  case outside =>
    intro name value
    rw [compile]
    exact .fail (lineless_showing _ _)
  case println =>
    intro op arg operator ih
    rw [compile.eq_5 _ _ operator]
    exact ih.map _
  case printCount =>
    intro op args other operator
    rw [compile.eq_6 _ _ operator other]
    exact fail_lineless _
  case arith =>
    intro op f first second rest operator ih ihs
    rw [compile.eq_7 _ _ _ _ _ operator]
    exact ih.bind fun _ => ihs.map _
  case tooFew =>
    intro op f args other operator
    rw [compile.eq_8 _ _ _ operator other]
    exact fail_lineless _
  case letIn =>
    intro op args operator ih
    rw [compile.eq_9 _ _ operator]
    exact (FailsLineless.lift fun _ failed => bindingsOf_lineless failed).bind fun _ => ih
  case ifElse =>
    intro op condition positive negative operator ihTest ihTrue ihFalse
    rw [compile.eq_10 _ _ _ _ operator]
    exact ihTest.bind fun _ => (freshLabel_lineless _).bind fun _ =>
      (freshLabel_lineless _).bind fun _ => (freshLabel_lineless _).bind fun _ =>
        ihTrue.bind fun _ => ihFalse.map _
  case branchCount =>
    intro op args other operator
    rw [compile.eq_11 _ _ operator other]
    exact fail_lineless _
  case group =>
    intro op args operator
    rw [compile.eq_12 _ _ operator]
    exact .pure _
  case unknown =>
    intro op args operator
    rw [compile.eq_13 _ _ operator]
    exact fail_lineless _
  case bound =>
    intro members bodies ihBindings ihBodies
    rw [compileLet]
    exact ihBindings.bind fun _ => ihBodies.map _
  case unbound =>
    intro args other
    rw [compileLet.eq_2 _ other]
    exact .pure _
  case noBodies =>
    rw [compileAll]
    exact .pure _
  case body =>
    intro expr rest ih ihs
    rw [compileAll]
    exact ih.bind fun _ => ihs.map _
  case binding =>
    intro name value rest ih ihs
    rw [compileBindings]
    exact ih.bind fun _ => (assign_lineless name).bind fun _ => ihs.map _
  case noBindings =>
    intro members other
    rw [compileBindings.eq_2 _ other]
    exact .pure _
  case noOperands =>
    intro op
    rw [compileOperands]
    exact .pure _
  case operand =>
    intro op arg rest ih ihs
    rw [compileOperands]
    exact ih.bind fun _ => ihs.map _

theorem compile_lineless (expr : Expr) : FailsLineless (compile expr : CompileM Code) :=
  all_lineless.1 expr

end Compiler

namespace Evaluator

theorem lookup_lineless (name : String) : FailsLineless (lookup name) := by
  intro state _
  unfold lookup
  cases state.env.find? name with
  | some value => trivial
  | none => exact lineless_ofFault _

theorem bindName_lineless (name : String) (value : Int) : FailsLineless (bindName name value) :=
  fun _ _ => trivial

theorem printLine_lineless (value : Int) : FailsLineless (printLine value) := by
  intro state _
  unfold printLine
  cases Numeral.write value with
  | ok text => trivial
  | error fault => exact lineless_numeral fault

theorem remark_lineless (expr : Expr) (bodies : List Expr) : FailsLineless (remark expr bodies) := by
  intro state _
  unfold remark
  cases bodies <;> trivial

theorem fail_lineless {α : Type} (fault : FormFault) : FailsLineless (fail fault : EvalM α) :=
  .fail (lineless_ofFault _)

/-- An expression whose value is needed. -/
theorem valued_lineless {α : Type} {expr : Expr} {action : EvalM (Option Int)}
    {next : Int → EvalM α} (first : FailsLineless action)
    (second : ∀ value, FailsLineless (next value)) :
    FailsLineless (do
      let value ← action
      next (← demand expr value)) := by
  refine first.bind fun value => .bind (fun state _ => ?_) second
  cases value with
  | some number => trivial
  | none => exact lineless_showing _ _

/-- The induction follows the evaluator, one case for each of its branches. -/
theorem all_lineless :
    (∀ expr, FailsLineless (evaluate expr)) ∧
    (∀ last exprs, FailsLineless (evaluateBodies last exprs)) ∧
    (∀ members, FailsLineless (evaluateBindings members)) ∧
    (∀ op soFar args, FailsLineless (evaluateOperands op soFar args)) := by
  refine evaluate.mutual_induct _ _ _ _ ?int ?bool ?var ?outside ?println ?printCount ?arith ?tooFew
    ?letIn ?notGroup ?noHead ?ifElse ?branchCount ?group ?unknown ?noBodies ?body ?noBindings
    ?binding ?notBinding ?noOperands ?operand
  case int | bool =>
    intro value
    rw [evaluate]
    exact .pure _
  case var =>
    intro name
    rw [evaluate]
    exact (lookup_lineless name).map _
  case outside =>
    intro name value
    rw [evaluate]
    exact .fail (lineless_showing _ _)
  case println =>
    intro op arg operator ih
    rw [evaluate.eq_5 _ _ operator]
    exact valued_lineless ih fun value => (printLine_lineless value).map _
  case printCount =>
    intro op args other operator
    rw [evaluate.eq_6 _ _ operator other]
    exact fail_lineless _
  case arith =>
    intro op f first second rest operator ih ihs
    rw [evaluate.eq_7 _ _ _ _ _ operator]
    exact valued_lineless ih fun value => (ihs value).map _
  case tooFew =>
    intro op f args other operator
    rw [evaluate.eq_8 _ _ _ operator other]
    exact fail_lineless _
  case letIn =>
    intro op members bodies operator ihBindings ihBodies
    rw [evaluate.eq_9 _ _ _ operator]
    exact ihBindings.bind fun _ => (remark_lineless _ bodies).bind fun _ => ihBodies
  case notGroup =>
    intro op other tail head operator
    rw [evaluate.eq_10 _ _ _ head operator]
    exact .fail (lineless_showing _ _)
  case noHead =>
    intro op operator
    rw [evaluate.eq_11 _ operator]
    exact fail_lineless _
  case ifElse =>
    intro op condition positive negative operator ihTest ihTrue ihFalse
    rw [evaluate.eq_12 _ _ _ _ operator]
    refine valued_lineless ihTest fun value => ?_
    split
    · exact ihTrue
    · exact ihFalse
  case branchCount =>
    intro op args other operator
    rw [evaluate.eq_13 _ _ operator other]
    exact fail_lineless _
  case group =>
    intro op args operator
    rw [evaluate.eq_14 _ _ operator]
    exact .pure _
  case unknown =>
    intro op args operator
    rw [evaluate.eq_15 _ _ operator]
    exact fail_lineless _
  case noBodies =>
    intro last
    rw [evaluateBodies]
    exact .pure _
  case body =>
    intro last body rest ih ihs
    rw [evaluateBodies]
    exact ih.bind fun value => ihs value
  case noBindings =>
    rw [evaluateBindings]
    exact .pure _
  case binding =>
    intro name value rest ih ihs
    rw [evaluateBindings]
    exact valued_lineless ih fun number => (bindName_lineless name number).bind fun _ => ihs
  case notBinding =>
    intro other tail single
    rw [evaluateBindings.eq_3 _ _ single]
    exact .fail (lineless_showing _ _)
  case noOperands =>
    intro op soFar
    rw [evaluateOperands]
    exact .pure _
  case operand =>
    intro op soFar arg rest ih ihs
    rw [evaluateOperands]
    exact valued_lineless ih fun value => ihs value

theorem evaluate_lineless (expr : Expr) : FailsLineless (evaluate expr) :=
  all_lineless.1 expr

end Evaluator
end StackScheme
