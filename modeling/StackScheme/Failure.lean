import StackScheme.Expr
import StackScheme.Text.Quoted

/-! Everything that can go wrong, as causes; the wording of each is in one place. A fault of a
program says on which line it was met, once that is known. -/
namespace StackScheme

/-- A cause, and the line it belongs to. -/
structure Located (κ : Type) where
  cause : κ
  line : Option Int := none
deriving DecidableEq

namespace Located
variable {κ ι : Type}

/-- The first line attached is the innermost one and stays. -/
def withLine (line : Int) (located : Located κ) : Located κ :=
  { located with line := located.line <|> some line }

def map (f : κ → ι) (located : Located κ) : Located ι :=
  ⟨f located.cause, located.line⟩

def message (located : Located String) : String :=
  match located.line with
  | none => located.cause
  | some line => s!"line {line}: {located.cause}"

end Located

/-- Why a line is no form. -/
inductive ReadFault
  | secondForm
  | emptyForm
  | operatorExpected (token : String)
  | unmatchedParen
  | unclosedBinding
  | nameExpected
  | nameExpectedGot (found : String)
  | unmatchedBracket
  | bindingShape
  | topLevelNumber (word : String)
  | unrecognizedToken (token : String)
  | unterminated
deriving DecidableEq

def ReadFault.message : ReadFault → String
  | .secondForm => "one top-level form per line"
  | .emptyForm => "empty form"
  | .operatorExpected token => s!"expected an operator after '(', got {Text.quoted token}"
  | .unmatchedParen => "unmatched ')'"
  | .unclosedBinding => "malformed binding: missing ']'"
  | .nameExpected => "malformed binding: expected a name"
  | .nameExpectedGot found => s!"malformed binding: expected a name, got {found}"
  | .unmatchedBracket => "malformed binding: unmatched ']'"
  | .bindingShape => "malformed binding: expected [name value]"
  | .topLevelNumber word => s!"top-level numbers not permitted: {word}"
  | .unrecognizedToken token => s!"unrecognized token: {Text.quoted token}"
  | .unterminated => "unterminated form"

/-- Why a form has no meaning. Compiling and evaluating object to the same things. -/
inductive FormFault
  | undefinedVariable (name : String)
  | bindingOutsideLet (shown : String)
  | wrongCount (op : String) (expected found : Nat)
  | tooFew (op : String) (found : Nat)
  | notBindingList (shown : Option String)
  | notBinding (shown : String)
  | unknownOperator (op : String)
deriving DecidableEq

def FormFault.message : FormFault → String
  | .undefinedVariable name => s!"undefined variable '{name}'"
  | .bindingOutsideLet shown => s!"unexpected binding {shown} outside of let"
  | .wrongCount op expected found => s!"{op}: expected {expected} args, got {found}"
  | .tooFew op found => s!"{op}: expected at least 2 args, got {found}"
  | .notBindingList (some shown) => s!"let: expected a binding list, got {shown}"
  | .notBindingList none => "let: expected a binding list, got None"
  | .notBinding shown => s!"let: expected [name val], got {shown}"
  | .unknownOperator op => s!"unrecognized operator '{op}'"

/-- Why bytecode does not load or a step is not taken. -/
inductive MachineFault
  | undecodable (line : String)
  | notExecutable (label : String)
  | stackUnderflow (pc : Int)
  | undefinedLabel (label : String)
  | unsetRegister (register : Int)
deriving DecidableEq

def MachineFault.message : MachineFault → String
  | .undecodable line => s!"unrecognized instruction: {Text.quoted line}"
  | .notExecutable label => s!"unrecognized instruction: {label}:"
  | .stackUnderflow pc => s!"stack underflow at pc {pc}"
  | .undefinedLabel label => s!"undefined label '{label}'"
  | .unsetRegister register => s!"LOAD of unset register {register}"

/-- The faults a program can have, by the stage that finds them. -/
inductive Fault
  | read (fault : ReadFault)
  | compile (fault : FormFault)
  | evaluate (fault : FormFault)
  | noValue (shown : String)
  | machine (fault : MachineFault)
deriving DecidableEq

def Fault.message : Fault → String
  | .read fault => fault.message
  | .compile fault | .evaluate fault => fault.message
  | .noValue shown => s!"{shown} has no value"
  | .machine fault => fault.message

/-- Why a file cannot be used. -/
inductive FileCause
  | notFound
  | isDirectory
  | notDirectory
  | nameTooLong
  | embeddedNull
  | notText
  | endless
  | noSpace
deriving DecidableEq

structure FileFault where
  cause : FileCause
  name : String
deriving DecidableEq

def FileFault.message (fault : FileFault) : String :=
  match fault.cause with
  | .notFound => s!"[Errno 2] No such file or directory: {Text.quoted fault.name}"
  | .isDirectory => s!"[Errno 21] Is a directory: {Text.quoted fault.name}"
  | .notDirectory => s!"[Errno 20] Not a directory: {Text.quoted fault.name}"
  | .nameTooLong => s!"[Errno 36] File name too long: {Text.quoted fault.name}"
  | .embeddedNull => "embedded null byte"
  | .notText => s!"not UTF-8 text: {Text.quoted fault.name}"
  | .endless => s!"endless file: {Text.quoted fault.name}"
  | .noSpace => "[Errno 28] No space left on device"

/-- How an operation fails. Only the faults of a program carry a line: a numeral beyond the limit, a
step past the end of the code and a file that cannot be used are not faults of a form. -/
inductive Failure
  | program (fault : Located Fault)
  | numeral (fault : NumeralFault)
  | pastEnd
  | file (fault : FileFault)
deriving DecidableEq

namespace Failure

def ofFault (fault : Fault) : Failure :=
  .program ⟨fault, none⟩

/-- The failure that shows an expression; one that cannot be written fails for that reason. -/
def showing (expr : Expr) (fault : String → Fault) : Failure :=
  match expr.write with
  | .ok shown => ofFault (fault shown)
  | .error fault => .numeral fault

/-- An expression whose literals can be written can be shown. -/
theorem showing_eq {expr : Expr} (fits : ∀ n ∈ expr.integers, Numeral.Fits n)
    (fault : String → Fault) : showing expr fault = ofFault (fault expr.text) := by
  simp only [showing, Expr.write, Numeral.writeAmong, if_pos fits]

def withLine (line : Int) : Failure → Failure
  | .program fault => .program (fault.withLine line)
  | failure => failure

def message : Failure → String
  | .program fault => (fault.map Fault.message).message
  | .numeral fault => fault.message
  | .pastEnd => "list index out of range"
  | .file fault => fault.message

/-- A result that needs no state, as a step that keeps the state. -/
def lift {σ α : Type} (result : Except Failure α) : EStateM Failure σ α := fun state =>
  match result with
  | .ok value => .ok value state
  | .error failure => .error failure state

/-- Runs a step that stands on a line; its failure is put there. -/
def onLine {σ α : Type} (line : Nat) (step : EStateM Failure σ α) : EStateM Failure σ α :=
  fun state =>
    match step state with
    | .ok result state => .ok result state
    | .error failure state => .error (failure.withLine line) state

end Failure
end StackScheme
