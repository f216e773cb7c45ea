import StackScheme.Numeral

/-! Expressions, and the text that shows them. A program is a list of forms, one to a line. Bindings
are expressions too: only compiling or evaluating a form decides where a binding makes sense. -/
namespace StackScheme

inductive Expr
  | int (value : Int)
  | bool (value : Bool)
  | var (name : String)
  | binding (name : String) (value : Expr)
  | form (op : String) (args : List Expr)

/-- A parenthesised expression; a group has the empty operator. -/
structure Form where
  op : String
  args : List Expr

def Form.toExpr (form : Form) : Expr :=
  .form form.op form.args

/-- A form and the line it stands on. -/
structure NumberedForm where
  line : Nat
  form : Form

abbrev Program := List NumberedForm

/-- The forms without their lines. -/
def Program.exprs (program : Program) : List Expr :=
  program.map fun numbered => numbered.form.toExpr

namespace Expr

/-- Words set apart by single spaces. -/
def spaced : List String → String :=
  " ".intercalate

mutual
def text : Expr → String
  | .int value => toString value
  | .bool value => if value then "#t" else "#f"
  | .var name => name
  | .binding name value => "[" ++ spaced [name, value.text] ++ "]"
  | .form op args => "(" ++ spaced (if op = "" then texts args else op :: texts args) ++ ")"

def texts : List Expr → List String
  | [] => []
  | arg :: rest => arg.text :: texts rest
end

mutual
/-- The integer literals, from left to right. -/
def integers : Expr → List Int
  | .int value => [value]
  | .bool _ | .var _ => []
  | .binding _ value => value.integers
  | .form _ args => allIntegers args

def allIntegers : List Expr → List Int
  | [] => []
  | arg :: rest => arg.integers ++ allIntegers rest
end

/-- The text of the expression, unless one of its literals is too long to be written. -/
def write (expr : Expr) : Except NumeralFault String :=
  Numeral.writeAmong expr.integers expr.text

/-- True counts as one and false as zero. -/
def truth (value : Bool) : Int :=
  if value then 1 else 0

end Expr
end StackScheme
