import StackScheme.Reader
import StackScheme.Proofs.Numeral
import StackScheme.Proofs.Reader.Padding
import Mathlib.Data.List.TakeWhile

/-! The grammar of forms: which expressions can be written, and the tokens that each is written
with. The words of a line are all plain, and a word is the only token of the atom it stands for. -/
namespace StackScheme

namespace Token

/-- A word that a line can hold: it is not empty, and none of its characters is a blank, a bracket
or a semicolon. -/
def Plain (word : String) : Prop :=
  word ≠ "" ∧ ∀ c ∈ word.toList, Text.isBlank c = false ∧ isBracket c = false ∧ c ≠ ';'

instance (word : String) : Decidable (Plain word) :=
  decidable_of_iff (word ≠ "" ∧
      word.toList.all (fun c => !Text.isBlank c && !isBracket c && c ≠ ';') = true)
    (by simp [Plain, and_assoc])

/-- Zero, or a row of ASCII digits that does not begin with zero. -/
def Integer (word : String) : Prop :=
  word = "0" ∨ ∃ first rest, word.toList = first :: rest ∧ first ≠ '0' ∧
    ∀ c ∈ first :: rest, c.isDigit = true

/-- A plain word that stands for no literal. -/
structure Name (word : String) : Prop where
  plain : Plain word
  notInteger : ¬ Integer word
  notTrue : word ≠ "#t"
  notFalse : word ≠ "#f"

theorem isInteger_iff {word : String} : isInteger word = true ↔ Integer word := by
  unfold isInteger Integer
  split
  · rename_i empty
    have differs : word ≠ "0" := by
      rintro rfl
      simp at empty
    simp [empty, differs]
  · rename_i first rest shape
    rw [shape]
    simp only [Bool.or_eq_true, Bool.and_eq_true, decide_eq_true_eq, List.all_eq_true]
    constructor
    · rintro (zero | ⟨nonzero, digits⟩)
      · exact Or.inl zero
      · exact Or.inr ⟨first, rest, rfl, nonzero, digits⟩
    · rintro (zero | ⟨_, _, same, nonzero, digits⟩)
      · exact Or.inl zero
      · cases same
        exact Or.inr ⟨nonzero, digits⟩

theorem ofPiece_solid {piece : List Char} (solid : ∀ c ∈ piece, isSolid c = true) :
    ofPiece piece = .word (String.ofList piece) := by
  unfold ofPiece
  split
  · simpa [isSolid, isBracket] using solid '(' (by simp)
  · simpa [isSolid, isBracket] using solid ')' (by simp)
  · simpa [isSolid, isBracket] using solid '[' (by simp)
  · simpa [isSolid, isBracket] using solid ']' (by simp)
  · rfl

theorem ofPiece_bracket {c : Char} (bracket : isBracket c = true) (text : String) :
    ofPiece [c] ≠ .word text := by
  rcases isBracket_cases bracket with rfl | rfl | rfl | rfl <;> simp [ofPiece]

/-- The words of a line are plain. -/
theorem plain_of_mem {line word : String} (member : .word word ∈ ofLine line) : Plain word := by
  rw [ofLine_eq] at member
  obtain ⟨piece, inside, same⟩ := List.mem_map.mp member
  rcases Text.piece_shape inside with ⟨c, rfl, apart, shown⟩ | solid
  · have bracket : isBracket c = true := by
      simpa [isSolid, shown] using apart
    exact absurd same (ofPiece_bracket bracket word)
  · rw [ofPiece_solid solid] at same
    obtain rfl := Token.word.inj same
    constructor
    · have nonempty := Text.piece_ne_nil inside
      simpa [← String.toList_inj] using nonempty
    · intro c member
      rw [String.toList_ofList] at member
      have kinds : Text.isBlank c = false ∧ isBracket c = false := by
        simpa [isSolid] using solid c member
      have counted := List.mem_takeWhile_imp (Text.mem_of_mem_pieces inside member)
      exact ⟨kinds.1, kinds.2, by simpa using counted⟩

end Token

namespace Expr

/-- The expressions that can be written. A group has no operator, and begins with a binding. -/
inductive WellFormed : Expr → Prop
  | int {value} (nonneg : 0 ≤ value) (fits : Numeral.Fits value) : WellFormed (.int value)
  | bool {value} : WellFormed (.bool value)
  | var {name} (named : Token.Name name) : WellFormed (.var name)
  | binding {name value} (named : Token.Name name) (bound : WellFormed value) :
      WellFormed (.binding name value)
  | form {op args} (operator : Token.Plain op) (operands : ∀ arg ∈ args, WellFormed arg) :
      WellFormed (.form op args)
  | group {name value rest} (first : WellFormed (.binding name value))
      (others : ∀ arg ∈ rest, WellFormed arg) : WellFormed (.form "" (.binding name value :: rest))

mutual
/-- The tokens that an expression is written with. -/
def tokens : Expr → List Token
  | .int value => [.word (toString value)]
  | .bool value => [.word (if value then "#t" else "#f")]
  | .var name => [.word name]
  | .binding name value => .openBracket :: .word name :: (value.tokens ++ [.closeBracket])
  | .form op args =>
    .openParen :: ((if op = "" then [] else [.word op]) ++ allTokens args ++ [.closeParen])

def allTokens : List Expr → List Token
  | [] => []
  | arg :: rest => arg.tokens ++ allTokens rest
end

@[simp] theorem allTokens_append (exprs others : List Expr) :
    allTokens (exprs ++ others) = allTokens exprs ++ allTokens others := by
  induction exprs with
  | nil => rfl
  | cons expr rest ih => simp [allTokens, ih]

end Expr

/-- The form can be written. -/
def Form.WellFormed (form : Form) : Prop :=
  form.toExpr.WellFormed

def Form.tokens (form : Form) : List Token :=
  form.toExpr.tokens

namespace Reader

theorem integer_toDigits {word : String} {n : Nat} (shape : word.toList = Nat.toDigits 10 n) :
    Token.Integer word := by
  rcases Nat.eq_zero_or_pos n with rfl | positive
  · exact Or.inl (String.toList_inj.mp (by rw [shape]; rfl))
  · have nonempty : Nat.toDigits 10 n ≠ [] := Nat.toDigits_ne_nil
    obtain ⟨first, rest, digits⟩ := List.exists_cons_of_ne_nil nonempty
    refine Or.inr ⟨first, rest, shape.trans digits, ?_, ?_⟩
    · rintro rfl
      exact Numeral.head_toDigits positive (by rw [digits]; rfl)
    · rw [← digits]
      exact fun c => Numeral.isDigit_toDigits

/-- The digits of an integer literal are those of the number that they are read as. -/
theorem toDigits_integer {word : String} (integer : Token.Integer word) :
    Nat.toDigits 10 (Numeral.value word.toList) = word.toList := by
  rcases integer with rfl | ⟨first, rest, shape, nonzero, ascii⟩
  · decide
  · rw [shape]
    exact Numeral.toDigits_value nonzero ascii

theorem atom_int {value : Int} (nonneg : 0 ≤ value) (fits : Numeral.Fits value) :
    atom (toString value) = .ok (.int value) := by
  obtain ⟨n, rfl⟩ := Int.eq_ofNat_of_zero_le nonneg
  have shape := Numeral.toList_toString_natCast n
  have integer := Token.isInteger_iff.mpr (integer_toDigits shape)
  simp only [atom, integer, if_true, shape, Numeral.read_toDigits fits]

theorem atom_bool (value : Bool) :
    atom (if value then "#t" else "#f") = .ok (.bool value) := by
  cases value <;> rfl

theorem atom_name {name : String} (named : Token.Name name) : atom name = .ok (.var name) := by
  have word : Token.isInteger name = false :=
    Bool.eq_false_iff.mpr fun integer => named.notInteger (Token.isInteger_iff.mp integer)
  simp [atom, word, named.notTrue, named.notFalse]

/-- The atom that a plain word is read as is written with this word. -/
theorem atom_sound {word : String} {arg : Expr} (plain : Token.Plain word)
    (read : atom word = .ok arg) : arg.WellFormed ∧ arg.tokens = [.word word] := by
  unfold atom at read
  split at read
  · rename_i integer
    have digits := toDigits_integer (Token.isInteger_iff.mp integer)
    unfold Numeral.read at read
    split at read
    · rename_i value same
      split at same
      · rename_i short
        obtain rfl := Except.ok.inj same
        obtain rfl := Except.ok.inj read
        rw [← digits] at short
        refine ⟨.int (Int.natCast_nonneg _) ?_, ?_⟩
        · exact Numeral.fits_natCast.mpr (Numeral.lt_ceiling_iff.mpr short)
        · have text : toString (Numeral.value word.toList : Int) = word := by
            rw [← String.toList_inj, Numeral.toList_toString_natCast, digits]
          rw [Expr.tokens, text]
      · contradiction
    · contradiction
  · rename_i notInteger
    split at read
    · rename_i same
      obtain rfl := Except.ok.inj read
      exact ⟨.bool, by rw [same]; rfl⟩
    · split at read
      · rename_i same
        obtain rfl := Except.ok.inj read
        exact ⟨.bool, by rw [same]; rfl⟩
      · rename_i notTrue notFalse
        obtain rfl := Except.ok.inj read
        have word : ¬ Token.Integer word := fun integer =>
          notInteger (Token.isInteger_iff.mpr integer)
        exact ⟨.var ⟨plain, word, notTrue, notFalse⟩, rfl⟩

end Reader
end StackScheme
