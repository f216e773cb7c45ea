/-! The operators of the language and the arithmetic that programs and machines share. -/
namespace StackScheme

inductive Arith
  | add
  | sub
  | mul
deriving DecidableEq

def Arith.apply : Arith → Int → Int → Int
  | .add, m, n => m + n
  | .sub, m, n => m - n
  | .mul, m, n => m * n

/-- What a form asks for, by the word after its parenthesis. A group has no such word: it is the
binding list at the head of a `let`. -/
inductive Operator
  | println
  | arith (op : Arith)
  | letIn
  | ifElse
  | group
  | unknown
deriving DecidableEq

def Operator.ofName (name : String) : Operator :=
  if name = "println" then .println
  else if name = "+" then .arith .add
  else if name = "-" then .arith .sub
  else if name = "*" then .arith .mul
  else if name = "let" then .letIn
  else if name = "if" then .ifElse
  else if name = "" then .group
  else .unknown

end StackScheme
