import StackScheme.Compiler
import StackScheme.Proofs.Sequence

/-! What successful compiling emits, as one rule for each kind of phrase. Everything about emitted
code is an induction over these rules; nothing else looks into the compiler. -/
namespace StackScheme.Compiler
open Stateful

/-- What is compiled at once: an expression, the further operands of an operator, the members of a
binding list, or a row of bodies. -/
inductive Phrase
  | expr (expr : Expr)
  | operands (op : Arith) (args : List Expr)
  | bindings (members : List Expr)
  | bodies (exprs : List Expr)

/-- The code of a phrase, between the contexts before and after it. -/
inductive Emits : Context → Phrase → Code → Context → Prop
  | int {context value} : Emits context (.expr (.int value)) [.push value] context
  | bool {context value} : Emits context (.expr (.bool value)) [.push (Expr.truth value)] context
  | var {context name} {register : Nat} (assigned : context.registers.find? name = some register) :
      Emits context (.expr (.var name)) [.load register] context
  | println {context after op arg code} (operator : Operator.ofName op = .println)
      (argument : Emits context (.expr arg) code after) :
      Emits context (.expr (.form op [arg])) (code ++ [.print]) after
  | arith {context middle after op f first second rest code codes}
      (operator : Operator.ofName op = .arith f)
      (start : Emits context (.expr first) code middle)
      (further : Emits middle (.operands f (second :: rest)) codes after) :
      Emits context (.expr (.form op (first :: second :: rest))) (code ++ codes) after
  | letIn {context middle after op members bodies code codes}
      (operator : Operator.ofName op = .letIn)
      (bound : Emits context (.bindings members) code middle)
      (inside : Emits middle (.bodies bodies) codes after) :
      Emits context (.expr (.form op (.form "" members :: bodies))) (code ++ codes) after
  | ifElse {context tested₀ tested₁ tested₂ tested₃ middle after op condition positive negative
      tested taken other onFalse onTrue done} (operator : Operator.ofName op = .ifElse)
      (test : Emits context (.expr condition) tested tested₀)
      (first : Context.freshLabel "fls" tested₀ = .ok onFalse tested₁)
      (second : Context.freshLabel "tru" tested₁ = .ok onTrue tested₂)
      (third : Context.freshLabel "done" tested₂ = .ok done tested₃)
      (whenTrue : Emits tested₃ (.expr positive) taken middle)
      (whenFalse : Emits middle (.expr negative) other after) :
      Emits context (.expr (.form op [condition, positive, negative]))
        (tested ++ [.jumpIfZero onFalse, .label onTrue] ++ taken ++
          [.jump done, .label onFalse] ++ other ++ [.label done]) after
  | group {context op args} (operator : Operator.ofName op = .group) :
      Emits context (.expr (.form op args)) [] context
  | noOperands {context op} : Emits context (.operands op []) [] context
  | operand {context middle after op arg rest code codes}
      (argument : Emits context (.expr arg) code middle)
      (further : Emits middle (.operands op rest) codes after) :
      Emits context (.operands op (arg :: rest)) (code ++ [.arith op] ++ codes) after
  | noBindings {context} : Emits context (.bindings []) [] context
  | binding {context valued assigned after name value rest code codes} {register : Nat}
      (evaluated : Emits context (.expr value) code valued)
      (stored : Context.assign name valued = .ok register assigned)
      (further : Emits assigned (.bindings rest) codes after) :
      Emits context (.bindings (.binding name value :: rest))
        (code ++ [.store register] ++ codes) after
  | noBodies {context} : Emits context (.bodies []) [] context
  | body {context middle after expr rest code codes}
      (head : Emits context (.expr expr) code middle)
      (further : Emits middle (.bodies rest) codes after) :
      Emits context (.bodies (expr :: rest)) (code ++ codes) after

theorem registerOf_eq_ok_iff {name : String} {register : Nat} {context after : Context} :
    Context.registerOf name context = .ok register after ↔
      context.registers.find? name = some register ∧ after = context := by
  unfold Context.registerOf
  cases context.registers.find? name with
  | none => simp
  | some register => simp [eq_comm]

theorem lift_eq_ok_iff {α : Type} {result : Except Failure α} {value : α}
    {context after : Context} : Failure.lift result context = .ok value after ↔
      result = .ok value ∧ context = after := by
  unfold Failure.lift
  cases result <;> simp

/-- Whenever the action succeeds, it has emitted the phrase. -/
def EmitsWhenDone (phrase : Phrase) (action : CompileM Code) : Prop :=
  ∀ {context after code}, action context = .ok code after → Emits context phrase code after

theorem emitsWhenDone_fail {phrase : Phrase} (fault : FormFault) :
    EmitsWhenDone phrase (fail fault) :=
  fun failed => by contradiction

/-- The induction follows the compiler, one case for each of its branches. -/
theorem all_emit : (∀ expr, EmitsWhenDone (.expr expr) (compile expr)) ∧
    (∀ args, ∀ {op pairs}, Operator.ofName op = .letIn → bindingsOf args = .ok pairs →
      EmitsWhenDone (.expr (.form op args)) (compileLet args)) ∧
    (∀ exprs, EmitsWhenDone (.bodies exprs) (compileAll exprs)) ∧
    (∀ members, ∀ {pairs}, checkBindings members = .ok pairs →
      EmitsWhenDone (.bindings members) (compileBindings members)) ∧
    (∀ op args, EmitsWhenDone (.operands op args) (compileOperands op args)) := by
  refine compile.mutual_induct _ _ _ _ _ ?int ?bool ?var ?outside ?println ?printCount ?arith
    ?tooFew ?letIn ?ifElse ?branchCount ?group ?unknown ?bound ?unbound ?noBodies ?body ?binding
    ?noBindings ?noOperands ?operand
  case int =>
    intro value context after code compiled
    rw [compile] at compiled
    obtain ⟨rfl, rfl⟩ := pure_eq_ok.mp compiled
    exact .int
  case bool =>
    intro value context after code compiled
    rw [compile] at compiled
    obtain ⟨rfl, rfl⟩ := pure_eq_ok.mp compiled
    exact .bool
  case var =>
    intro name context after code compiled
    rw [compile] at compiled
    obtain ⟨register, middle, found, finished⟩ := bind_eq_ok.mp compiled
    obtain ⟨rfl, rfl⟩ := pure_eq_ok.mp finished
    obtain ⟨assigned, rfl⟩ := registerOf_eq_ok_iff.mp found
    exact .var assigned
  case outside =>
    intro name value context after code compiled
    rw [compile] at compiled
    contradiction
  case println =>
    intro op arg operator ih context after code compiled
    rw [compile.eq_5 _ _ operator] at compiled
    obtain ⟨code, middle, argument, finished⟩ := bind_eq_ok.mp compiled
    obtain ⟨rfl, rfl⟩ := pure_eq_ok.mp finished
    exact .println operator (ih argument)
  case printCount =>
    intro op args other operator
    rw [compile.eq_6 _ _ operator other]
    exact emitsWhenDone_fail _
  case arith =>
    intro op f first second rest operator ih ihs context after code compiled
    rw [compile.eq_7 _ _ _ _ _ operator] at compiled
    obtain ⟨code, middle, start, finished⟩ := bind_eq_ok.mp compiled
    obtain ⟨codes, after, further, finished⟩ := bind_eq_ok.mp finished
    obtain ⟨rfl, rfl⟩ := pure_eq_ok.mp finished
    exact .arith operator (ih start) (ihs further)
  case tooFew =>
    intro op f args other operator
    rw [compile.eq_8 _ _ _ operator other]
    exact emitsWhenDone_fail _
  case letIn =>
    intro op args operator ih context after code compiled
    rw [compile.eq_9 _ _ operator] at compiled
    obtain ⟨pairs, middle, lifted, finished⟩ := bind_eq_ok.mp compiled
    obtain ⟨checked, rfl⟩ := lift_eq_ok_iff.mp lifted
    exact ih operator checked finished
  case ifElse =>
    intro op condition positive negative operator ihTest ihTrue ihFalse context after code compiled
    rw [compile.eq_10 _ _ _ _ operator] at compiled
    obtain ⟨tested, _, test, finished⟩ := bind_eq_ok.mp compiled
    obtain ⟨onFalse, _, first, finished⟩ := bind_eq_ok.mp finished
    obtain ⟨onTrue, _, second, finished⟩ := bind_eq_ok.mp finished
    obtain ⟨done, _, third, finished⟩ := bind_eq_ok.mp finished
    obtain ⟨taken, _, whenTrue, finished⟩ := bind_eq_ok.mp finished
    obtain ⟨other, _, whenFalse, finished⟩ := bind_eq_ok.mp finished
    obtain ⟨rfl, rfl⟩ := pure_eq_ok.mp finished
    exact .ifElse operator (ihTest test) first second third (ihTrue whenTrue) (ihFalse whenFalse)
  case branchCount =>
    intro op args other operator
    rw [compile.eq_11 _ _ operator other]
    exact emitsWhenDone_fail _
  case group =>
    intro op args operator context after code compiled
    rw [compile.eq_12 _ _ operator] at compiled
    obtain ⟨rfl, rfl⟩ := pure_eq_ok.mp compiled
    exact .group operator
  case unknown =>
    intro op args operator
    rw [compile.eq_13 _ _ operator]
    exact emitsWhenDone_fail _
  case bound =>
    intro members bodies ihBindings ihBodies op pairs operator checked context after code compiled
    rw [compileLet] at compiled
    obtain ⟨code, middle, bound, finished⟩ := bind_eq_ok.mp compiled
    obtain ⟨codes, after, inside, finished⟩ := bind_eq_ok.mp finished
    obtain ⟨rfl, rfl⟩ := pure_eq_ok.mp finished
    exact .letIn operator (ihBindings checked bound) (ihBodies inside)
  case unbound =>
    intro args other op pairs operator checked
    unfold bindingsOf at checked
    split at checked
    · exact (other _ _ rfl).elim
    · contradiction
    · contradiction
  case noBodies =>
    intro context after code compiled
    rw [compileAll] at compiled
    obtain ⟨rfl, rfl⟩ := pure_eq_ok.mp compiled
    exact .noBodies
  case body =>
    intro expr rest ih ihs context after code compiled
    rw [compileAll] at compiled
    obtain ⟨code, middle, head, finished⟩ := bind_eq_ok.mp compiled
    obtain ⟨codes, after, further, finished⟩ := bind_eq_ok.mp finished
    obtain ⟨rfl, rfl⟩ := pure_eq_ok.mp finished
    exact .body (ih head) (ihs further)
  case binding =>
    intro name value rest ih ihs pairs checked context after code compiled
    obtain ⟨others, following, _⟩ := Fallible.bind_eq_ok.mp checked
    rw [compileBindings] at compiled
    obtain ⟨code, valued, evaluated, finished⟩ := bind_eq_ok.mp compiled
    obtain ⟨register, assigned, stored, finished⟩ := bind_eq_ok.mp finished
    obtain ⟨codes, after, further, finished⟩ := bind_eq_ok.mp finished
    obtain ⟨rfl, rfl⟩ := pure_eq_ok.mp finished
    exact .binding (ih evaluated) stored (ihs following further)
  case noBindings =>
    intro members other pairs checked context after code compiled
    cases members with
    | nil =>
      rw [compileBindings.eq_2 _ other] at compiled
      obtain ⟨rfl, rfl⟩ := pure_eq_ok.mp compiled
      exact .noBindings
    | cons member rest =>
      cases member with
      | binding name value => exact (other _ _ _ rfl).elim
      | _ => contradiction
  case noOperands =>
    intro op context after code compiled
    rw [compileOperands] at compiled
    obtain ⟨rfl, rfl⟩ := pure_eq_ok.mp compiled
    exact .noOperands
  case operand =>
    intro op arg rest ih ihs context after code compiled
    rw [compileOperands] at compiled
    obtain ⟨code, middle, argument, finished⟩ := bind_eq_ok.mp compiled
    obtain ⟨codes, after, further, finished⟩ := bind_eq_ok.mp finished
    obtain ⟨rfl, rfl⟩ := pure_eq_ok.mp finished
    exact .operand (ih argument) (ihs further)

theorem compile_emits {expr : Expr} {context after : Context} {code : Code}
    (compiled : compile expr context = .ok code after) :
    Emits context (.expr expr) code after :=
  all_emit.1 expr compiled

theorem onLine_eq_ok_iff {α : Type} {line : Nat} {step : CompileM α} {value : α}
    {context after : Context} : Failure.onLine line step context = .ok value after ↔
      step context = .ok value after := by
  unfold Failure.onLine
  cases step context <;> simp

/-- A program is compiled like a row of bodies. -/
theorem compileProgram_emits {program : Program} {context after : Context} {code : Code}
    (compiled : compileProgram program context = .ok code after) :
    Emits context (.bodies program.exprs) code after := by
  induction program generalizing context code with
  | nil =>
    obtain ⟨rfl, rfl⟩ := pure_eq_ok.mp compiled
    exact .noBodies
  | cons numbered rest ih =>
    obtain ⟨line, form⟩ := numbered
    simp only [compileProgram] at compiled
    obtain ⟨code, middle, head, compiled⟩ := bind_eq_ok.mp compiled
    obtain ⟨codes, after, further, compiled⟩ := bind_eq_ok.mp compiled
    obtain ⟨rfl, rfl⟩ := pure_eq_ok.mp compiled
    exact .body (compile_emits (onLine_eq_ok_iff.mp head)) (ih further)

end StackScheme.Compiler
