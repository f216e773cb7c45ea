import StackScheme.Failure
import StackScheme.Text.Line
import StackScheme.Token

/-! Reading source text. A line holds at most one form. The reader takes the tokens of a line one by
one and keeps the forms and bindings that are still open, the innermost first; each has what it
holds so far, the newest first. -/
namespace StackScheme.Reader

inductive Frame
  /-- A parenthesis has been read, and its operator has not. -/
  | opened
  | form (op : String) (args : List Expr)
  /-- A bracket, the name once it has been read, and the values after it. -/
  | binding (name : Option String) (values : List Expr)

/-- The open frames and the finished form of a line. -/
structure Builder where
  stack : List Frame := []
  result : Option Form := none

def fail {α : Type} (fault : ReadFault) : Except Failure α :=
  .error (.ofFault (.read fault))

/-- Gives an operand to the innermost open form or binding. -/
def give (arg : Expr) : List Frame → Except Failure (List Frame)
  | .form op args :: rest => .ok (.form op (arg :: args) :: rest)
  | .binding (some name) values :: rest => .ok (.binding (some name) (arg :: values) :: rest)
  | .binding none _ :: _ => .error (.showing arg fun shown => .read (.nameExpectedGot shown))
  | .opened :: _ | [] => .error .pastEnd

/-- The atom that a word stands for in operand position. -/
def atom (word : String) : Except Failure Expr :=
  if Token.isInteger word then
    match Numeral.read word.toList with
    | .ok value => .ok (.int value)
    | .error fault => .error (.numeral fault)
  else if word = "#t" then .ok (.bool true)
  else if word = "#f" then .ok (.bool false)
  else .ok (.var word)

/-- A word inside a form or binding: the name that a binding waits for, or an operand. -/
def addWord (word : String) (stack : List Frame) : Except Failure (List Frame) := do
  match ← atom word, stack with
  | .var name, .binding none values :: rest => return .binding (some name) values :: rest
  | arg, stack => give arg stack

def closeParen (builder : Builder) : Except Failure Builder :=
  match builder.stack with
  | [] => fail .unmatchedParen
  | .opened :: _ => fail .emptyForm
  | .binding _ _ :: _ => fail .unclosedBinding
  | [.form op args] => .ok ⟨[], some ⟨op, args.reverse⟩⟩
  | .form op args :: rest => return { builder with stack := ← give (.form op args.reverse) rest }

def openBracket (builder : Builder) : Except Failure Builder :=
  match builder.stack with
  | [] => fail (.unrecognizedToken "[")
  | .opened :: rest => .ok { builder with stack := .binding none [] :: .form "" [] :: rest }
  | .binding none _ :: _ => fail .nameExpected
  | stack => .ok { builder with stack := .binding none [] :: stack }

def closeBracket (builder : Builder) : Except Failure Builder :=
  match builder.stack with
  | .opened :: _ => fail (.operatorExpected "]")
  | .binding (some name) [value] :: rest =>
    return { builder with stack := ← give (.binding name value) rest }
  | .binding _ _ :: _ => fail .bindingShape
  | .form _ _ :: _ | [] => fail .unmatchedBracket

def openParen (builder : Builder) : Except Failure Builder :=
  match builder.stack, builder.result with
  | .opened :: _, _ => fail (.operatorExpected "(")
  | [], some _ => fail .secondForm
  | stack, _ => .ok { builder with stack := .opened :: stack }

def word (text : String) (builder : Builder) : Except Failure Builder :=
  match builder.stack with
  | [] => fail (if Token.isInteger text then .topLevelNumber text else .unrecognizedToken text)
  | .opened :: rest => .ok { builder with stack := .form text [] :: rest }
  | stack => return { builder with stack := ← addWord text stack }

def step (builder : Builder) : Token → Except Failure Builder
  | .openParen => openParen builder
  | .closeParen => closeParen builder
  | .openBracket => openBracket builder
  | .closeBracket => closeBracket builder
  | .word text => word text builder

/-- What has been read when the line ends. -/
def finish (builder : Builder) : Except Failure (Option Form) :=
  match builder.stack with
  | [] => .ok builder.result
  | .opened :: _ => fail .emptyForm
  | _ => fail .unterminated

def readTokens (tokens : List Token) : Except Failure (Option Form) := do
  finish (← tokens.foldlM step {})

/-- The form on a line, if there is one. -/
def readLine (line : String) : Except Failure (Option Form) :=
  readTokens (Token.ofLine line)

/-- The forms of these lines, the first of which has this number. -/
def readLines (number : Nat) : List String → Except Failure Program
  | [] => .ok []
  | line :: rest =>
    match readLine line with
    | .error failure => .error (failure.withLine number)
    | .ok none => readLines (number + 1) rest
    | .ok (some form) => return ⟨number, form⟩ :: (← readLines (number + 1) rest)

/-- The forms of a text; lines are counted from one. -/
def readSource (source : String) : Except Failure Program :=
  readLines 1 (Text.lines source)

end StackScheme.Reader
