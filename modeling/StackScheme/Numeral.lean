import StackScheme.Text.Digit

/-! Decimal numerals. Arithmetic has no bound, but a numeral of more than 4300 digits is neither
read nor written. A sign is no digit; leading zeros are. -/
namespace StackScheme

inductive NumeralFault
  | tooLongToRead (digits : Nat)
  | tooLongToWrite
deriving DecidableEq

namespace Numeral

def limit : Nat := 4300

end Numeral

open Numeral in
def NumeralFault.message : NumeralFault → String
  | .tooLongToRead digits =>
    s!"Exceeds the limit ({limit} digits) for integer string conversion: value has {digits} " ++
      "digits; use sys.set_int_max_str_digits() to increase the limit"
  | .tooLongToWrite =>
    s!"Exceeds the limit ({limit} digits) for integer string conversion; " ++
      "use sys.set_int_max_str_digits() to increase the limit"

namespace Numeral
open Text

/-- The number that a row of decimal digits stands for. -/
def value (digits : List Char) : Nat :=
  digits.foldl (fun n c => 10 * n + (digitValue? c).getD 0) 0

def read (digits : List Char) : Except NumeralFault Nat :=
  if digits.length ≤ limit then .ok (value digits) else .error (.tooLongToRead digits.length)

def isDigits (text : List Char) : Bool :=
  !text.isEmpty && text.all isDecimal

/-- The first number with too many digits. It stays folded, because it is much too large to count
up to. -/
@[irreducible] def ceiling : Nat :=
  Nat.pow 10 limit

/-- The number has no more digits than may be written. -/
def Fits (n : Int) : Prop :=
  n.natAbs < ceiling

instance (n : Int) : Decidable (Fits n) :=
  inferInstanceAs (Decidable (n.natAbs < ceiling))

def write (n : Int) : Except NumeralFault String :=
  if Fits n then .ok (toString n) else .error .tooLongToWrite

/-- Text that holds these numbers is written only if each of them can be. -/
def writeAmong (numbers : List Int) (text : String) : Except NumeralFault String :=
  if ∀ n ∈ numbers, Fits n then .ok text else .error .tooLongToWrite

end Numeral
end StackScheme
