import StackScheme.Proofs.Machine.Pieces
import Mathlib.Algebra.Group.Nat.Defs
import Mathlib.Data.List.ReduceOption

/-! The canonical spelling of bytecode. A text may spell its code in many ways: with any blanks and
line breaks, with the digits of any script and with leading zeros. What is read from it is always
code that can be written, so each text can be rewritten, and rewriting changes nothing but the
spelling. -/
namespace StackScheme

namespace Numeral
open Text

theorem digitValue?_lt {c : Char} {digit : Nat} (found : digitValue? c = some digit) :
    digit < 10 := by
  obtain ⟨first, inRow, rfl⟩ := Option.map_eq_some_iff.mp found
  have inside := List.find?_some inRow
  simp only [Bool.and_eq_true, decide_eq_true_eq] at inside
  omega

/-- Each character of a numeral is worth less than ten, so a row of them is worth less than a power
of ten, after any number. -/
theorem foldl_digits_lt (digits : List Char) (start : Nat) :
    digits.foldl (fun n c => 10 * n + (digitValue? c).getD 0) start <
      (start + 1) * 10 ^ digits.length := by
  induction digits generalizing start with
  | nil => simp
  | cons c rest ih =>
    have small : (digitValue? c).getD 0 < 10 := by
      cases found : digitValue? c with
      | none => simp
      | some digit => simpa using digitValue?_lt found
    have step : 10 * start + (digitValue? c).getD 0 + 1 ≤ (start + 1) * 10 := by omega
    calc (c :: rest).foldl (fun n c => 10 * n + (digitValue? c).getD 0) start
        < (10 * start + (digitValue? c).getD 0 + 1) * 10 ^ rest.length := ih _
      _ ≤ (start + 1) * 10 * 10 ^ rest.length := Nat.mul_le_mul_right _ step
      _ = (start + 1) * 10 ^ (c :: rest).length := by
        rw [List.length_cons, Nat.pow_succ, Nat.mul_comm (10 ^ rest.length), Nat.mul_assoc]

theorem value_lt (digits : List Char) : value digits < 10 ^ digits.length := by
  simpa [value] using foldl_digits_lt digits 0

/-- A number that has been read can be written. -/
theorem fits_of_read {digits : List Char} {n : Nat} (done : read digits = .ok n) : Fits n := by
  unfold read at done
  split at done
  · rename_i short
    obtain rfl := Except.ok.inj done
    rw [fits_natCast, ceiling_eq]
    -- the limit must not be counted up to
    generalize limit = width at short
    exact (value_lt digits).trans_le (Nat.pow_le_pow_right (by decide) short)
  · contradiction

end Numeral

namespace Instr
open Text

theorem name?_sound {text : List Char} {label : String} (found : name? text = some label) :
    Named label := by
  unfold name? at found
  split at found
  · contradiction
  · rename_i solid
    obtain rfl := Option.some.inj found
    simpa [Named] using solid

theorem unsigned?_sound {text : List Char} {n : Int} (found : unsigned? text = some (.ok n)) :
    0 ≤ n ∧ Numeral.Fits n := by
  unfold unsigned? at found
  split at found
  · cases done : Numeral.read text with
    | error fault => simp [done, Except.map] at found
    | ok k =>
      obtain rfl : (k : Int) = n := by simpa [done, Except.map] using found
      exact ⟨Int.natCast_nonneg k, Numeral.fits_of_read done⟩
  · contradiction

theorem signed?_sound {text : List Char} {n : Int} (found : signed? text = some (.ok n)) :
    Numeral.Fits n := by
  unfold signed? at found
  split at found
  · rename_i digits
    obtain ⟨number, unsigned, negated⟩ := Option.map_eq_some_iff.mp found
    cases number with
    | error fault => contradiction
    | ok k =>
      obtain rfl : -k = n := Except.ok.inj negated
      simpa [Numeral.Fits] using (unsigned?_sound unsigned).2
  · exact (unsigned?_sound found).2

theorem label?_sound {word : List Char} {instr : Instr} (found : label? word = some instr) :
    instr.WellFormed := by
  unfold label? at found
  split at found
  · obtain ⟨name, named, rfl⟩ := Option.map_eq_some_iff.mp found
    exact ⟨name?_sound named, by simp [integers]⟩
  · contradiction

theorem plain?_sound {word : String} {instr : Instr} (found : plain? word = some instr) :
    instr.WellFormed := by
  unfold plain? at found
  split at found
  case h_5 => contradiction
  all_goals
    obtain rfl := Option.some.inj found
    exact ⟨trivial, by simp [integers]⟩

/-- An operand that is read is of the kind that belongs to the mnemonic before it. -/
theorem applied?_sound {mnemonic : String} {operand : List Char} {instr : Instr}
    (found : applied? mnemonic operand = some (.ok instr)) : instr.WellFormed := by
  have number {read : Option (Except NumeralFault Int)} {make : Int → Instr}
      (done : (read.map fun number => number.map make) = some (.ok instr)) :
      ∃ n, read = some (.ok n) ∧ make n = instr := by
    obtain ⟨result, found, made⟩ := Option.map_eq_some_iff.mp done
    cases result with
    | error fault => contradiction
    | ok n => exact ⟨n, found, Except.ok.inj made⟩
  have name {make : String → Instr}
      (done : ((name? operand).map fun target =>
        (.ok (make target) : Except NumeralFault Instr)) = some (.ok instr)) :
      ∃ target, Named target ∧ make target = instr := by
    obtain ⟨target, found, made⟩ := Option.map_eq_some_iff.mp done
    exact ⟨target, name?_sound found, Except.ok.inj made⟩
  unfold applied? at found
  split at found
  case h_1 =>
    obtain ⟨n, written, rfl⟩ := number found
    exact ⟨trivial, by simpa [integers] using signed?_sound written⟩
  case h_2 | h_3 =>
    obtain ⟨n, written, rfl⟩ := number found
    obtain ⟨nonneg, fits⟩ := unsigned?_sound written
    exact ⟨nonneg, by simpa [integers] using fits⟩
  case h_4 | h_5 | h_6 =>
    obtain ⟨target, named, rfl⟩ := name found
    exact ⟨named, by simp [integers]⟩
  case h_7 => contradiction

theorem ofWords?_sound {parts : List (List Char)} {instr : Instr}
    (found : ofWords? parts = some (.ok instr)) : instr.WellFormed := by
  unfold ofWords? at found
  split at found
  · obtain ⟨single, known, made⟩ := Option.map_eq_some_iff.mp found
    obtain rfl := Except.ok.inj made
    rcases Option.or_eq_some_iff.mp known with label | ⟨_, plain⟩
    · exact label?_sound label
    · exact plain?_sound plain
  · exact applied?_sound found
  · contradiction

/-- Whatever the spelling, what is read from a line can be written. -/
theorem decode_wellFormed {line : String} {instr : Instr}
    (decoded : decode line = .ok (some instr)) : instr.WellFormed := by
  unfold decode at decoded
  split at decoded
  · cases decoded
  · split at decoded
    · rename_i found
      cases decoded
      exact ofWords?_sound found
    · contradiction
    · contradiction

end Instr

namespace Code
open Fallible

/-- The instructions and labels of a text, each of whose lines holds one or is blank. -/
def read (text : String) : Except Failure Code :=
  return (← (Text.lines text).mapM Instr.decode).reduceOption

/-- Writes anew what stands in a text. -/
def rewrite (text : String) : Except Failure String := do
  (encode (← read text)).mapError .numeral

theorem ofLines_wellFormed (lines : List String) : ∀ instr ∈ ofLines lines, instr.WellFormed := by
  intro instr member
  obtain ⟨line, _, found⟩ := List.mem_filterMap.mp member
  split at found
  · rename_i decoded
    exact Instr.decode_wellFormed (decoded.trans (congrArg Except.ok found))
  · contradiction

theorem decode_lines_eq {lines : List String} (readable : Machine.Readable lines) :
    ∃ found, lines.mapM Instr.decode = .ok found ∧ found.reduceOption = ofLines lines := by
  induction lines with
  | nil => exact ⟨[], rfl, rfl⟩
  | cons line rest ih =>
    obtain ⟨⟨first, decoded⟩, following⟩ := List.forall_mem_cons.mp readable
    obtain ⟨others, done, same⟩ := ih following
    refine ⟨first :: others, ?_, ?_⟩
    · rw [List.mapM_cons, decoded]
      exact bind_eq_ok.mpr ⟨first, rfl, bind_eq_ok.mpr ⟨others, done, rfl⟩⟩
    · cases first with
      | none => simpa [ofLines, decoded, List.reduceOption_cons_of_none] using same
      | some instr => simpa [ofLines, decoded, List.reduceOption_cons_of_some] using same

theorem read_of_readable {text : String} (readable : Machine.Readable (Text.lines text)) :
    read text = .ok (ofLines (Text.lines text)) := by
  obtain ⟨found, done, same⟩ := decode_lines_eq readable
  rw [← same]
  exact bind_eq_ok.mpr ⟨found, done, rfl⟩

theorem read_encode {code : Code} {text : String} (readable : ∀ instr ∈ code, instr.Readable)
    (encoded : encode code = .ok text) : read text = .ok code := by
  have lines := Machine.loadListing_eq_ok_iff.mp (Machine.loadListing_encode readable encoded {})
  rw [read_of_readable lines.1, ofLines_encode readable encoded]

theorem rewrite_of_read {code : Code} {text again : String} (found : read text = .ok code)
    (encoded : encode code = .ok again) : rewrite text = .ok again := by
  rw [rewrite, found]
  change (encode code).mapError _ = _
  rw [encoded]
  rfl

end Code

namespace Machine
open Stateful

/-- A text that a machine loads can be rewritten. Its new text has one line for each instruction and
each label, which is read back as the one it was written from; every machine loads both texts
alike, and the new text is rewritten as it stands. -/
theorem rewrite_canonical {text : String}
    (loads : ∃ machine loaded, loadListing text machine = .ok () loaded) :
    ∃ code again, Code.read text = .ok code ∧ encode code = .ok again ∧
      Text.lines again = code.map Instr.text ∧
      (∀ instr ∈ code, Instr.decode instr.text = .ok (some instr)) ∧
      (∀ machine, ∃ loaded, loadListing text machine = .ok () loaded ∧
        loadListing again machine = .ok () loaded) ∧
      Code.rewrite text = .ok again ∧ Code.rewrite again = .ok again := by
  obtain ⟨_, _, loads⟩ := loads
  have accepted := (loadListing_eq_ok_iff.mp loads).1
  have wellFormed := Code.ofLines_wellFormed (Text.lines text)
  have readable : ∀ instr ∈ Code.ofLines (Text.lines text), instr.Readable :=
    fun instr member => (wellFormed instr member).1
  have encoded := Code.encode_eq_ok_iff.mpr
    ⟨fun instr member => (wellFormed instr member).2, rfl⟩
  have found := Code.read_of_readable accepted
  refine ⟨_, _, found, encoded, Code.lines_encode readable encoded,
    fun instr member => Instr.decode_text (wellFormed instr member), fun machine => ?_,
    Code.rewrite_of_read found encoded,
    Code.rewrite_of_read (Code.read_encode readable encoded) encoded⟩
  exact ⟨_, loadListing_eq_ok_iff.mpr ⟨accepted, rfl⟩,
    loadListing_encode readable encoded machine⟩

/-- Digits of three scripts, leading zeros, a negative zero, five kinds of line breaks, blanks that
are not ASCII, and a label that is spelled like a jump. -/
theorem rewrite_canonical_scripts :
    let text := "\u3000PUSH\u00a0-\u0663\u0660\r\nJMP:\x0b STOR 007\u2028\u2009LOAD\t\u0967" ++
      "\x0c\n\nPUSH -0\rJNZ ²é\u0085 ²é:"
    Code.rewrite text = .ok "PUSH -30\nJMP:\nSTOR 7\nLOAD 1\nPUSH 0\nJNZ ²é\n²é:\n" ∧
      ∃ code again, Code.read text = .ok code ∧ encode code = .ok again ∧
        Text.lines again = code.map Instr.text ∧
        (∀ instr ∈ code, Instr.decode instr.text = .ok (some instr)) ∧
        (∀ machine, ∃ loaded, loadListing text machine = .ok () loaded ∧
          loadListing again machine = .ok () loaded) ∧
        Code.rewrite text = .ok again ∧ Code.rewrite again = .ok again := by
  intro text
  have loads : passes (fun _ _ => true) (loadListing text {}) := by
    decide +kernel
  obtain ⟨_, loaded, done, _⟩ := passes_iff.mp loads
  exact ⟨by decide +kernel, rewrite_canonical ⟨{}, loaded, done⟩⟩

end Machine
end StackScheme
