import StackScheme.Bytecode.Instr
import StackScheme.Compiler.Context
import StackScheme.Log
import StackScheme.Reader

/-! Compiling forms to stack code. An expression leaves on the stack what its parts leave there; a
group, which only makes sense at the head of a `let`, leaves nothing and has no code. -/
namespace StackScheme.Compiler

variable {σ : Type}

def fail {α : Type} (fault : FormFault) : EStateM Failure σ α := fun state =>
  .error (.ofFault (.compile fault)) state

def showing {α : Type} (expr : Expr) (fault : String → FormFault) : EStateM Failure σ α :=
  fun state => .error (.showing expr fun shown => .compile (fault shown)) state

/-- Every member of a binding list is a binding. -/
def checkBindings : List Expr → Except Failure (List (String × Expr))
  | [] => .ok []
  | .binding name value :: rest => return (name, value) :: (← checkBindings rest)
  | other :: _ => .error (.showing other fun shown => .compile (.notBinding shown))

/-- The bindings at the head of a `let` with these operands. -/
def bindingsOf : List Expr → Except Failure (List (String × Expr))
  | .form "" members :: _ => checkBindings members
  | other :: _ =>
    .error (.showing other fun shown => .compile (.notBindingList (some shown)))
  | [] => .error (.ofFault (.compile (.notBindingList none)))

variable [Supply σ]

mutual
def compile : Expr → EStateM Failure σ Code
  | .int value => return [.push value]
  | .bool value => return [.push (Expr.truth value)]
  | .var name => return [.load (← Supply.registerOf name)]
  | .binding name value => showing (.binding name value) .bindingOutsideLet
  | .form op args =>
    match Operator.ofName op, args with
    | .println, [arg] => return (← compile arg) ++ [.print]
    | .println, args => fail (.wrongCount op 1 args.length)
    | .arith f, first :: second :: rest => do
      return (← compile first) ++ (← compileOperands f (second :: rest))
    | .arith _, args => fail (.tooFew op args.length)
    | .letIn, args => do
      let _ ← Failure.lift (bindingsOf args)
      compileLet args
    | .ifElse, [condition, positive, negative] => do
      let tested ← compile condition
      let onFalse ← Supply.freshLabel "fls"
      let onTrue ← Supply.freshLabel "tru"
      let done ← Supply.freshLabel "done"
      let positive ← compile positive
      let negative ← compile negative
      return tested ++ [.jumpIfZero onFalse, .label onTrue] ++ positive ++
        [.jump done, .label onFalse] ++ negative ++ [.label done]
    | .ifElse, args => fail (.wrongCount op 3 args.length)
    | .group, _ => return []
    | .unknown, _ => fail (.unknownOperator op)

/-- Each further operand is combined with what the operands before it have come to. -/
def compileOperands (op : Arith) : List Expr → EStateM Failure σ Code
  | [] => return []
  | arg :: rest => return (← compile arg) ++ [.arith op] ++ (← compileOperands op rest)

def compileLet : List Expr → EStateM Failure σ Code
  | .form "" members :: bodies => return (← compileBindings members) ++ (← compileAll bodies)
  | _ => return []

/-- A name has its register once its value has been compiled. -/
def compileBindings : List Expr → EStateM Failure σ Code
  | .binding name value :: rest => do
    let value ← compile value
    let register ← Supply.assign name
    return value ++ [.store register] ++ (← compileBindings rest)
  | _ => return []

def compileAll : List Expr → EStateM Failure σ Code
  | [] => return []
  | expr :: rest => return (← compile expr) ++ (← compileAll rest)
end

def compileForms : Program → EStateM Failure σ Code
  | [] => return []
  | ⟨line, form⟩ :: rest =>
    return (← Failure.onLine line (compile form.toExpr)) ++ (← compileForms rest)

abbrev compileProgram (program : Program) : CompileM Code :=
  compileForms program

def compileSource (source : String) : CompileM Code := do
  compileProgram (← Failure.lift (Reader.readSource source))

theorem compileSource_read {source : String} {program : Program}
    (read : Reader.readSource source = .ok program) :
    compileSource source = compileProgram program := by
  funext context
  rw [compileSource, read]
  rfl

/-- The bytecode text of a source by itself. -/
def bytecode (source : String) : Except Failure String :=
  match compileSource source {} with
  | .ok code _ =>
    match encode code with
    | .ok text => .ok text
    | .error fault => .error (.numeral fault)
  | .error failure _ => .error failure

/-- The forms that are taken up: all of them, or those as far as the first that fails. -/
def attempted : Program → Context → List Form
  | [], _ => []
  | ⟨_, form⟩ :: rest, context =>
    form :: match compile form.toExpr context with
      | .ok _ context => attempted rest context
      | .error _ _ => []

/-- Each form is reported as it is taken up. -/
def log (forms : Program) (context : Context) : List LogRecord :=
  (attempted forms context).map fun form => ⟨.info, "Parsing " ++ form.toExpr.text⟩

end StackScheme.Compiler
