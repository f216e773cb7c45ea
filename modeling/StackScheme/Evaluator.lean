import StackScheme.Log
import StackScheme.Operator
import StackScheme.Reader
import StackScheme.Table

/-! Evaluating forms without bytecode. All names live in one environment for the whole run, as they
live in one set of registers when they are compiled. -/
namespace StackScheme

structure Evaluation where
  env : Table String Int := {}
  output : String := ""
  log : List LogRecord := []

/-- Names bound and lines printed before a failure stay. -/
abbrev EvalM := EStateM Failure Evaluation

namespace Evaluator

def fail {α : Type} (fault : FormFault) : EvalM α := fun state =>
  .error (.ofFault (.evaluate fault)) state

def showing {α : Type} (expr : Expr) (fault : String → FormFault) : EvalM α := fun state =>
  .error (.showing expr fun shown => .evaluate (fault shown)) state

def lookup (name : String) : EvalM Int := fun state =>
  match state.env.find? name with
  | some value => .ok value state
  | none => .error (.ofFault (.evaluate (.undefinedVariable name))) state

def bindName (name : String) (value : Int) : EvalM Unit := fun state =>
  .ok () { state with env := state.env.insert name value }

def printLine (value : Int) : EvalM Unit := fun state =>
  match Numeral.write value with
  | .ok text => .ok () { state with output := state.output ++ text ++ "\n" }
  | .error fault => .error (.numeral fault) state

/-- A `let` that only binds is worth a remark. -/
def remark (expr : Expr) (bodies : List Expr) : EvalM Unit := fun state =>
  if bodies.isEmpty then
    .ok () { state with log := state.log ++ [⟨.debug, "let with no body: " ++ expr.text⟩] }
  else .ok () state

/-- The value where one is needed. -/
def demand (expr : Expr) (value : Option Int) : EvalM Int := fun state =>
  match value with
  | some value => .ok value state
  | none => .error (.showing expr .noValue) state

mutual
/-- Printing, groups, and a `let` or `if` that ends in one of them have no value. -/
def evaluate : Expr → EvalM (Option Int)
  | .int value => return some value
  | .bool value => return some (Expr.truth value)
  | .var name => return some (← lookup name)
  | .binding name value => showing (.binding name value) .bindingOutsideLet
  | .form op args =>
    match Operator.ofName op, args with
    | .println, [arg] => do
      printLine (← demand arg (← evaluate arg))
      return none
    | .println, args => fail (.wrongCount op 1 args.length)
    | .arith f, first :: second :: rest => do
      let start ← demand first (← evaluate first)
      return some (← evaluateOperands f start (second :: rest))
    | .arith _, args => fail (.tooFew op args.length)
    | .letIn, .form "" members :: bodies => do
      evaluateBindings members
      remark (.form op (.form "" members :: bodies)) bodies
      evaluateBodies none bodies
    | .letIn, other :: _ => showing other fun shown => .notBindingList (some shown)
    | .letIn, [] => fail (.notBindingList none)
    | .ifElse, [condition, positive, negative] => do
      if (← demand condition (← evaluate condition)) ≠ 0 then evaluate positive
      else evaluate negative
    | .ifElse, args => fail (.wrongCount op 3 args.length)
    | .group, _ => return none
    | .unknown, _ => fail (.unknownOperator op)

/-- Combines what the operands so far have come to with each further one. -/
def evaluateOperands (op : Arith) (soFar : Int) : List Expr → EvalM Int
  | [] => return soFar
  | arg :: rest => do
    let operand ← demand arg (← evaluate arg)
    evaluateOperands op (op.apply soFar operand) rest

/-- Each binding is checked when its turn comes and holds from then on. -/
def evaluateBindings : List Expr → EvalM Unit
  | [] => return
  | .binding name value :: rest => do
    bindName name (← demand value (← evaluate value))
    evaluateBindings rest
  | other :: _ => showing other .notBinding

/-- The value of the last body, or what came before if there is none. -/
def evaluateBodies (last : Option Int) : List Expr → EvalM (Option Int)
  | [] => return last
  | body :: rest => do evaluateBodies (← evaluate body) rest
end

@[simp] theorem evaluate_int (value : Int) : evaluate (.int value) = pure (some value) := by
  rw [evaluate]

@[simp] theorem evaluate_bool (value : Bool) :
    evaluate (.bool value) = pure (some (Expr.truth value)) := by
  rw [evaluate]

def valueOf (expr : Expr) : EvalM Int := do
  demand expr (← evaluate expr)

def evaluateProgram : Program → EvalM Unit
  | [] => return
  | ⟨line, form⟩ :: rest => do
    let _ ← Failure.onLine line (evaluate form.toExpr)
    evaluateProgram rest

def evaluateSource (source : String) : EvalM Unit := do
  evaluateProgram (← Failure.lift (Reader.readSource source))

theorem evaluateSource_read {source : String} {program : Program}
    (read : Reader.readSource source = .ok program) :
    evaluateSource source = evaluateProgram program := by
  funext state
  rw [evaluateSource, read]
  rfl

end Evaluator
end StackScheme
