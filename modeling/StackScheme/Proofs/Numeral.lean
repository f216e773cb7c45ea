import StackScheme.Numeral
import Mathlib.Data.List.Basic

/-! Reading undoes writing for every number that may be written, and a canonical row of digits is
written back as it was. Canonical rows are zero alone and rows that do not begin with zero. -/
namespace StackScheme

namespace Text

theorem digitValue?_ascii {c : Char} (digit : c.isDigit = true) :
    digitValue? c = some (c.toNat - 48) := by
  have range := Char.isDigit_iff_toNat.mp digit
  simp only [Char.reduceToNat] at range
  have found : (decide (0x30 ≤ c.toNat) && decide (c.toNat < 0x30 + 10)) = true := by
    simp only [Bool.and_eq_true, decide_eq_true_eq]
    omega
  simp [digitValue?, zeros, found]

theorem isDecimal_ascii {c : Char} (digit : c.isDigit = true) : isDecimal c = true := by
  simp [isDecimal, digitValue?_ascii digit]

end Text

namespace Numeral
open Text

/-- Stated with the folded power, which nothing should try to compute. -/
theorem ceiling_eq : ceiling = Nat.pow 10 limit := by
  unfold ceiling
  exact Eq.refl _

theorem lt_ceiling_iff {n : Nat} : n < ceiling ↔ (Nat.toDigits 10 n).length ≤ limit := by
  have positive : 0 < limit := by decide
  generalize ceiling_eq = power
  generalize limit = width at positive power
  rw [Nat.length_toDigits_le_iff (by decide) positive, power]
  exact Iff.rfl

theorem fits_natCast {n : Nat} : Fits n ↔ n < ceiling := by
  simp only [Fits, Int.natAbs_natCast]

theorem fits_small {n : Nat} (small : n < 10) : Fits n := by
  rw [fits_natCast, lt_ceiling_iff, Nat.toDigits_of_lt_base small, List.length_singleton]
  decide

theorem fits_truth (b : Bool) : Fits (if b then 1 else 0) := by
  cases b with
  | true => exact fits_small (by decide : 1 < 10)
  | false => exact fits_small (by decide : 0 < 10)

theorem isDigit_toDigits {n : Nat} {c : Char} (member : c ∈ Nat.toDigits 10 n) :
    c.isDigit = true :=
  Nat.isDigit_of_mem_toDigits (by decide) (by decide) member

theorem isDigits_toDigits (n : Nat) : isDigits (Nat.toDigits 10 n) = true := by
  have decimal : ∀ c ∈ Nat.toDigits 10 n, isDecimal c = true :=
    fun c member => isDecimal_ascii (isDigit_toDigits member)
  simpa [isDigits] using decimal

/-- On ASCII digits the value is the usual one. -/
theorem value_ascii {digits : List Char} (ascii : ∀ c ∈ digits, c.isDigit = true) :
    value digits = Nat.ofDigitChars 10 digits 0 := by
  simp only [value, Nat.ofDigitChars_eq_foldl]
  apply List.foldl_ext
  intro n c member
  rw [digitValue?_ascii (ascii c member)]
  rfl

theorem value_toDigits (n : Nat) : value (Nat.toDigits 10 n) = n := by
  rw [value_ascii fun c => isDigit_toDigits, Nat.ofDigitChars_ten_toDigits]

theorem read_toDigits {n : Nat} (fits : Fits n) : read (Nat.toDigits 10 n) = .ok n := by
  have short := lt_ceiling_iff.mp (fits_natCast.mp fits)
  simp only [read, short, if_true, value_toDigits]

theorem digitChar_ascii {c : Char} (digit : c.isDigit = true) :
    c.toNat - 48 < 10 ∧ Nat.digitChar (c.toNat - 48) = c := by
  have range := Char.isDigit_iff_toNat.mp digit
  simp only [Char.reduceToNat] at range
  have small : c.toNat - 48 < 10 := by omega
  refine ⟨small, Char.toNat_inj.mp ?_⟩
  rw [Nat.toNat_digitChar_of_lt_ten small]
  omega

/-- Digits that follow a positive number stand behind its own digits. -/
theorem toDigits_ofDigitChars {digits : List Char} (ascii : ∀ c ∈ digits, c.isDigit = true)
    {start : Nat} (positive : 0 < start) :
    Nat.toDigits 10 (Nat.ofDigitChars 10 digits start) = Nat.toDigits 10 start ++ digits := by
  induction digits generalizing start with
  | nil => simp
  | cons c rest ih =>
    obtain ⟨small, rebuilt⟩ := digitChar_ascii (ascii c (by simp))
    have shifted := Nat.toDigits_append_toDigits (by decide : 1 < 10) positive small
    rw [Nat.toDigits_of_lt_base small, rebuilt] at shifted
    rw [Nat.ofDigitChars_cons]
    change Nat.toDigits 10 (Nat.ofDigitChars 10 rest (10 * start + (c.toNat - 48))) = _
    rw [ih (fun d member => ascii d (by simp [member])) (by omega), ← shifted]
    simp

/-- A row of ASCII digits that does not begin with zero is how its value is written. -/
theorem toDigits_value {first : Char} {rest : List Char} (nonzero : first ≠ '0')
    (ascii : ∀ c ∈ first :: rest, c.isDigit = true) :
    Nat.toDigits 10 (value (first :: rest)) = first :: rest := by
  obtain ⟨small, rebuilt⟩ := digitChar_ascii (ascii first (by simp))
  have positive : 0 < first.toNat - 48 := by
    have range := Char.isDigit_iff_toNat.mp (ascii first (by simp))
    have other : first.toNat ≠ '0'.toNat := fun same => nonzero (Char.toNat_inj.mp same)
    simp only [Char.reduceToNat] at range other
    omega
  rw [value_ascii ascii, Nat.ofDigitChars_cons]
  change Nat.toDigits 10 (Nat.ofDigitChars 10 rest (10 * 0 + (first.toNat - 48))) = _
  rw [Nat.mul_zero, Nat.zero_add,
    toDigits_ofDigitChars (fun c member => ascii c (by simp [member])) positive,
    Nat.toDigits_of_lt_base small, rebuilt]
  rfl

/-- The digits of a positive number do not begin with zero. -/
theorem head_toDigits {n : Nat} (positive : 0 < n) : (Nat.toDigits 10 n).head? ≠ some '0' := by
  induction n using Nat.strongRecOn with
  | ind n ih =>
    rcases Nat.lt_or_ge n 10 with small | large
    · have digits : ∀ d < 10, 0 < d → Nat.digitChar d ≠ '0' := by decide
      simpa [Nat.toDigits_of_lt_base small] using digits n small positive
    · have shorter := ih (n / 10) (by omega) (by omega)
      rw [Nat.toDigits_of_base_le (by decide) large]
      rwa [List.head?_append_of_ne_nil _ Nat.toDigits_ne_nil]

/-- The text of a number: its digits, after a minus sign if it is negative. -/
theorem toList_toString (n : Int) :
    (toString n).toList =
      if 0 ≤ n then Nat.toDigits 10 n.natAbs else '-' :: Nat.toDigits 10 n.natAbs := by
  rw [Int.toString_eq_repr, Int.repr_eq_if]
  split
  · rw [Nat.toList_repr, show n.toNat = n.natAbs by omega]
  · rw [String.toList_append, Nat.toList_repr, show (-n).toNat = n.natAbs by omega]
    rfl

theorem toList_toString_natCast (n : Nat) : (toString (n : Int)).toList = Nat.toDigits 10 n := by
  simp only [toList_toString, Int.natCast_nonneg, if_true, Int.natAbs_natCast]

end Numeral
end StackScheme
