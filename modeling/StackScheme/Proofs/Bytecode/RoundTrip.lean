import StackScheme.Bytecode.Decode
import StackScheme.Proofs.Numeral
import StackScheme.Proofs.Sequence
import StackScheme.Proofs.Text.Classes
import StackScheme.Proofs.Text.Lines
import StackScheme.Proofs.Text.Words

/-! Bytecode text is read back as the instructions it was made from, provided that every operand is
of the kind that its opcode takes and every number may be written. -/
namespace StackScheme

namespace Instr
open Text

/-- A label is a row of one or more characters of names. -/
def Named (label : String) : Prop :=
  label.toList ≠ [] ∧ ∀ c ∈ label.toList, isWord c = true

/-- The operand is one that the text of the opcode can have. -/
def Readable : Instr → Prop
  | .store register | .load register => 0 ≤ register
  | .jump name | .jumpIfZero name | .jumpIfNonzero name | .label name => Named name
  | .push _ | .print | .arith _ => True

/-- The instruction has a text, which reads back as the instruction. -/
def WellFormed (instr : Instr) : Prop :=
  instr.Readable ∧ ∀ n ∈ instr.integers, Numeral.Fits n

instance (label : String) : Decidable (Named label) :=
  decidable_of_iff (label.toList ≠ [] ∧ label.toList.all isWord = true) (by simp [Named])

instance : (instr : Instr) → Decidable instr.Readable
  | .store register | .load register => inferInstanceAs (Decidable (0 ≤ register))
  | .jump name | .jumpIfZero name | .jumpIfNonzero name | .label name =>
    inferInstanceAs (Decidable (Named name))
  | .push _ | .print | .arith _ => inferInstanceAs (Decidable True)

instance (instr : Instr) : Decidable instr.WellFormed :=
  inferInstanceAs (Decidable (_ ∧ _))

theorem name?_named {label : String} (named : Named label) :
    name? label.toList = some label := by
  have solid : label.toList.any (fun c => !isWord c) = false := by
    simpa using named.2
  simp [name?, solid, named.1]

theorem unsigned?_toDigits {n : Nat} (fits : Numeral.Fits n) :
    unsigned? (Nat.toDigits 10 n) = some (.ok (n : Int)) := by
  simp only [unsigned?, Numeral.isDigits_toDigits, if_true, Numeral.read_toDigits fits]
  rfl

theorem unsigned?_toString {n : Int} (nonneg : 0 ≤ n) (fits : Numeral.Fits n) :
    unsigned? (toString n).toList = some (.ok n) := by
  obtain ⟨k, rfl⟩ := Int.eq_ofNat_of_zero_le nonneg
  rw [Numeral.toList_toString_natCast, unsigned?_toDigits fits]

theorem signed?_toString {n : Int} (fits : Numeral.Fits n) :
    signed? (toString n).toList = some (.ok n) := by
  have absolute : Numeral.Fits (n.natAbs : Int) := Numeral.fits_natCast.mpr fits
  have digits := unsigned?_toDigits absolute
  rw [Numeral.toList_toString]
  split
  · rename_i nonneg
    have unsigned : ∀ rest, Nat.toDigits 10 n.natAbs = '-' :: rest → False := by
      intro rest same
      have minus := Numeral.isDigit_toDigits (n := n.natAbs) (c := '-') (by simp [same])
      contradiction
    rw [signed?.eq_2 _ unsigned, digits, Int.natAbs_of_nonneg nonneg]
  · rename_i negative
    have back : -(n.natAbs : Int) = n := by omega
    simp only [signed?, digits, Option.map_some, Except.map, back]

theorem decode_of_words {line : String} {parts : List (List Char)} {instr : Instr}
    (split : words line.toList = parts) (nonempty : parts ≠ [])
    (read : ofWords? parts = some (.ok instr)) : decode line = .ok (some instr) := by
  unfold decode
  rw [split]
  split
  · contradiction
  · simp [read]

theorem mnemonic_solid (opcode : Opcode) :
    opcode.mnemonic.toList ≠ [] ∧ ∀ c ∈ opcode.mnemonic.toList, isBlank c = false := by
  have solid {text : List Char} (all : text.all (fun c => !isBlank c) = true) :
      ∀ c ∈ text, isBlank c = false := by
    simpa using all
  cases opcode with
  | arith op => cases op <;> exact ⟨by decide, solid (by decide)⟩
  | _ => exact ⟨by decide, solid (by decide)⟩

theorem toList_applied (opcode : Opcode) (operand : String) :
    (opcode.applied operand).toList = opcode.mnemonic.toList ++ ' ' :: operand.toList := by
  simp [Opcode.applied]

theorem decode_applied {opcode : Opcode} {operand : String} {instr : Instr}
    (nonempty : operand.toList ≠ []) (solid : ∀ c ∈ operand.toList, isBlank c = false)
    (read : applied? opcode.mnemonic operand.toList = some (.ok instr)) :
    decode (opcode.applied operand) = .ok (some instr) := by
  obtain ⟨started, shown⟩ := mnemonic_solid opcode
  have split := words_two started nonempty shown solid
  rw [← toList_applied] at split
  refine decode_of_words split (by simp) ?_
  simpa only [ofWords?, String.ofList_toList] using read

theorem named_solid {label : String} (named : Named label) :
    ∀ c ∈ label.toList, isBlank c = false :=
  fun c member => isBlank_word (named.2 c member)

theorem number_solid (n : Int) :
    (toString n).toList ≠ [] ∧ ∀ c ∈ (toString n).toList, isBlank c = false := by
  have digits : ∀ c ∈ Nat.toDigits 10 n.natAbs, isBlank c = false :=
    fun c member => isBlank_word (isWord_digit (Numeral.isDigit_toDigits member))
  rw [Numeral.toList_toString]
  split
  · exact ⟨Nat.toDigits_ne_nil, digits⟩
  · refine ⟨by simp, ?_⟩
    intro c member
    rcases List.mem_cons.mp member with rfl | member
    · decide
    · exact digits c member

theorem decode_word {word : String} {instr : Instr} (nonempty : word.toList ≠ [])
    (solid : ∀ c ∈ word.toList, isBlank c = false)
    (read : (label? word.toList).or (plain? word) = some instr) :
    decode word = .ok (some instr) := by
  refine decode_of_words (words_one nonempty solid) (by simp) ?_
  simp [ofWords?, read]

theorem decode_label {name : String} (named : Named name) :
    decode (name ++ ":") = .ok (some (.label name)) := by
  have shape : (name ++ ":").toList = name.toList ++ [':'] := by simp
  refine decode_word (by simp [shape]) ?_ ?_
  · intro c member
    rw [shape] at member
    rcases List.mem_append.mp member with member | member
    · exact named_solid named c member
    · obtain rfl := List.mem_singleton.mp member
      decide
  · simp [label?, name?_named named]

/-- Reading a line of bytecode undoes writing it. -/
theorem decode_text {instr : Instr} (wellFormed : instr.WellFormed) :
    decode instr.text = .ok (some instr) := by
  obtain ⟨readable, fits⟩ := wellFormed
  cases instr with
  | push n =>
    obtain ⟨nonempty, solid⟩ := number_solid n
    apply decode_applied nonempty solid
    simp only [Opcode.mnemonic, applied?, signed?_toString (fits n (by simp [integers]))]
    rfl
  | store n | load n =>
    obtain ⟨nonempty, solid⟩ := number_solid n
    apply decode_applied nonempty solid
    simp only [Opcode.mnemonic, applied?, unsigned?_toString readable (fits n (by simp [integers]))]
    rfl
  | print =>
    obtain ⟨nonempty, solid⟩ := mnemonic_solid .print
    exact decode_word nonempty solid rfl
  | arith op =>
    obtain ⟨nonempty, solid⟩ := mnemonic_solid (.arith op)
    apply decode_word nonempty solid
    cases op <;> rfl
  | jump name | jumpIfZero name | jumpIfNonzero name =>
    apply decode_applied readable.1 (named_solid readable)
    simp only [Opcode.mnemonic, applied?, name?_named readable]
    rfl
  | label name => exact decode_label readable

theorem applied_unbroken (opcode : Opcode) {operand : String}
    (solid : ∀ c ∈ operand.toList, isBlank c = false) :
    Unbroken (opcode.applied operand).toList := by
  intro c member
  rw [toList_applied] at member
  rcases List.mem_append.mp member with member | member
  · exact isLineBreak_solid ((mnemonic_solid opcode).2 c member)
  · rcases List.mem_cons.mp member with rfl | member
    · decide
    · exact isLineBreak_solid (solid c member)

theorem text_unbroken {instr : Instr} (readable : instr.Readable) :
    Unbroken instr.text.toList := by
  cases instr with
  | push n => exact applied_unbroken .push (number_solid n).2
  | store n => exact applied_unbroken .store (number_solid n).2
  | load n => exact applied_unbroken .load (number_solid n).2
  | jump name => exact applied_unbroken .jump (named_solid readable)
  | jumpIfZero name => exact applied_unbroken .jumpIfZero (named_solid readable)
  | jumpIfNonzero name => exact applied_unbroken .jumpIfNonzero (named_solid readable)
  | print => exact fun c member => isLineBreak_solid ((mnemonic_solid .print).2 c member)
  | arith op => exact fun c member => isLineBreak_solid ((mnemonic_solid (.arith op)).2 c member)
  | label name =>
    intro c member
    simp only [text, String.toList_append, List.mem_append] at member
    rcases member with member | member
    · exact isLineBreak_solid (named_solid readable c member)
    · obtain rfl : c = ':' := by simpa using member
      decide

theorem write_eq_ok_iff {instr : Instr} {line : String} :
    instr.write = .ok line ↔ (∀ n ∈ instr.integers, Numeral.Fits n) ∧ line = instr.text := by
  unfold write Numeral.writeAmong
  split
  · rename_i fits
    exact ⟨fun same => ⟨fits, (Except.ok.inj same).symm⟩, fun ⟨_, same⟩ => same ▸ rfl⟩
  · rename_i tooLong
    exact ⟨fun same => by contradiction, fun ⟨fits, _⟩ => absurd fits tooLong⟩

end Instr

namespace Code
open Fallible

theorem mapM_write_eq_ok_iff {code : Code} {lines : List String} :
    (code.map CodeLine.full).mapM CodeLine.write = .ok lines ↔
      (∀ instr ∈ code, ∀ n ∈ instr.integers, Numeral.Fits n) ∧ lines = code.map Instr.text := by
  induction code generalizing lines with
  | nil => simp [pure, Except.pure, eq_comm]
  | cons instr rest ih =>
    rw [List.map_cons, List.mapM_cons]
    constructor
    · intro written
      obtain ⟨line, first, written⟩ := bind_eq_ok.mp written
      obtain ⟨others, following, written⟩ := bind_eq_ok.mp written
      obtain ⟨fits, rfl⟩ := Instr.write_eq_ok_iff.mp first
      obtain ⟨restFit, rfl⟩ := ih.mp following
      obtain rfl := Except.ok.inj written
      exact ⟨by simpa using ⟨fits, restFit⟩, rfl⟩
    · rintro ⟨fits, rfl⟩
      have first := Instr.write_eq_ok_iff.mpr ⟨fits instr (by simp), rfl⟩
      have following := ih.mpr ⟨fun other member => fits other (by simp [member]), rfl⟩
      exact bind_eq_ok.mpr ⟨_, first, bind_eq_ok.mpr ⟨_, following, rfl⟩⟩

/-- Code has a text exactly if all its numbers may be written. -/
theorem encode_eq_ok_iff {code : Code} {text : String} :
    encode code = .ok text ↔ (∀ instr ∈ code, ∀ n ∈ instr.integers, Numeral.Fits n) ∧
      text = String.join ((code.map Instr.text).map (· ++ "\n")) := by
  constructor
  · intro encoded
    obtain ⟨lines, written, joined⟩ := bind_eq_ok.mp encoded
    obtain ⟨fits, rfl⟩ := mapM_write_eq_ok_iff.mp written
    exact ⟨fits, (Except.ok.inj joined).symm⟩
  · rintro ⟨fits, rfl⟩
    exact bind_eq_ok.mpr ⟨_, mapM_write_eq_ok_iff.mpr ⟨fits, rfl⟩, rfl⟩

theorem lines_encode {code : Code} {text : String} (readable : ∀ instr ∈ code, instr.Readable)
    (encoded : encode code = .ok text) : Text.lines text = code.map Instr.text := by
  rw [(encode_eq_ok_iff.mp encoded).2]
  apply Text.lines_ended
  intro line member
  obtain ⟨instr, inside, rfl⟩ := List.mem_map.mp member
  exact Instr.text_unbroken (readable instr inside)

/-- The lines of encoded code are read back as the code. -/
theorem decode_lines {code : Code} {text : String} (readable : ∀ instr ∈ code, instr.Readable)
    (encoded : encode code = .ok text) :
    (Text.lines text).map Instr.decode = code.map fun instr => .ok (some instr) := by
  have fits := (encode_eq_ok_iff.mp encoded).1
  rw [lines_encode readable encoded, List.map_map]
  exact List.map_congr_left fun instr member =>
    Instr.decode_text ⟨readable instr member, fits instr member⟩

end Code
end StackScheme
