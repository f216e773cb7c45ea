import StackScheme.Proofs.Reader.Soundness
import StackScheme.Proofs.Text.Classes
import StackScheme.Proofs.Text.Lines

/-! Reading undoes rendering. The text of an expression that can be written falls into the tokens of
the expression again, begins no comment and holds no line break; so forms that are rendered one to a
line are read back as they were. -/
namespace StackScheme

namespace Token
open Text

/-- The tokens of characters of which none begins a comment. -/
def ofChars (chars : List Char) : List Token :=
  (pieces isSolid chars).map ofPiece

theorem ofLine_eq_ofChars {line : String} (counted : ∀ c ∈ line.toList, c ≠ ';') :
    ofLine line = ofChars line.toList := by
  have whole : uncommented line = line.toList :=
    List.takeWhile_eq_self_iff.mpr (by simpa using counted)
  rw [ofLine_eq, whole, ofChars]

theorem ofChars_bracket (before after : List Char) {c : Char} (bracket : isBracket c = true) :
    ofChars (before ++ c :: after) = ofChars before ++ ofPiece [c] :: ofChars after := by
  simp [ofChars, pieces_append_apart before after (isSolid_bracket bracket)
    (isBlank_bracket bracket)]

theorem ofChars_enclosed (inner : List Char) {opening closing : Char}
    (opens : isBracket opening = true) (closes : isBracket closing = true) :
    ofChars (opening :: (inner ++ [closing])) =
      ofPiece [opening] :: (ofChars inner ++ [ofPiece [closing]]) := by
  have first := ofChars_bracket [] (inner ++ [closing]) opens
  rw [ofChars_bracket inner [] closes] at first
  exact first

theorem ofChars_space (before after : List Char) :
    ofChars (before ++ ' ' :: after) = ofChars before ++ ofChars after := by
  have blank : isBlank ' ' = true := by decide
  simp [ofChars, pieces_append_blank isSolid_separates before after blank]

/-- A plain word is a token by itself. -/
theorem ofChars_plain {word : String} (plain : Plain word) :
    ofChars word.toList = [.word word] := by
  have solid : ∀ c ∈ word.toList, isSolid c = true := by
    intro c member
    obtain ⟨shown, apart, _⟩ := plain.2 c member
    simp [isSolid, shown, apart]
  have nonempty : word.toList ≠ [] := by simpa using plain.1
  rw [ofChars, pieces_joined nonempty solid isSolid_separates, List.map_singleton,
    ofPiece_solid solid, String.ofList_toList]

theorem toList_spaced (text next : String) (rest : List String) :
    (Expr.spaced (text :: next :: rest)).toList =
      text.toList ++ ' ' :: (Expr.spaced (next :: rest)).toList := by
  simp [Expr.spaced, String.intercalate_cons_cons]

theorem ofChars_spaced (texts : List String) :
    ofChars (Expr.spaced texts).toList = texts.flatMap fun text => ofChars text.toList := by
  induction texts with
  | nil => rfl
  | cons text rest ih =>
    cases rest with
    | nil => simp [Expr.spaced, String.intercalate_singleton]
    | cons next rest =>
      rw [toList_spaced, ofChars_space, ih]
      rfl

/-- A row of digits is a plain word. -/
theorem plain_of_integer {word : String} (integer : Integer word) : Plain word := by
  have digits : ∀ c ∈ word.toList, c.isDigit = true := by
    rcases integer with rfl | ⟨first, rest, shape, _, digits⟩
    · simp
    · rwa [shape]
  constructor
  · rintro rfl
    rcases integer with zero | ⟨first, rest, shape, _⟩
    · exact absurd zero (by decide)
    · simp at shape
  · intro c member
    have digit := digits c member
    refine ⟨isBlank_word (isWord_digit digit), Bool.eq_false_iff.mpr fun bracket => ?_, ?_⟩
    · rcases isBracket_cases bracket with rfl | rfl | rfl | rfl <;> contradiction
    · rintro rfl
      contradiction

/-- The digits of a number are a plain word. -/
theorem plain_integer {value : Int} (nonneg : 0 ≤ value) : Plain (toString value) := by
  obtain ⟨n, rfl⟩ := Int.eq_ofNat_of_zero_le nonneg
  exact plain_of_integer (Reader.integer_toDigits (Numeral.toList_toString_natCast n))

theorem plain_bool (value : Bool) : Plain (if value then "#t" else "#f") := by
  cases value <;> decide

end Token

namespace Expr
open Token

/-- The text of the expression falls into its tokens. -/
def Splits (expr : Expr) : Prop :=
  ofChars expr.text.toList = expr.tokens

theorem splits_word {expr : Expr} {word : String} (plain : Plain word) (text : expr.text = word)
    (tokens : expr.tokens = [.word word]) : expr.Splits := by
  rw [Splits, text, tokens, ofChars_plain plain]

theorem splits_all {exprs : List Expr} (each : ∀ expr ∈ exprs, expr.Splits) :
    ((texts exprs).flatMap fun text => ofChars text.toList) = allTokens exprs := by
  induction exprs with
  | nil => rfl
  | cons expr rest ih =>
    obtain ⟨first, others⟩ := List.forall_mem_cons.mp each
    rw [texts, List.flatMap_cons, allTokens, ih others, first]

theorem splits_form {op : String} {args : List Expr} (plain : op ≠ "" → Plain op)
    (each : ∀ arg ∈ args, arg.Splits) : Splits (.form op args) := by
  have enclosed := ofChars_enclosed
    (spaced (if op = "" then texts args else op :: texts args)).toList
    (rfl : isBracket '(' = true) (rfl : isBracket ')' = true)
  have shape : (Expr.text (.form op args)).toList =
      '(' :: ((spaced (if op = "" then texts args else op :: texts args)).toList ++ [')']) := by
    simp [text]
  rw [Splits, shape, enclosed, ofChars_spaced, tokens]
  by_cases group : op = ""
  · simp only [group, if_true, splits_all each]
    rfl
  · simp only [group, if_false, List.flatMap_cons, splits_all each, ofChars_plain (plain group)]
    rfl

theorem splits_binding {name : String} {value : Expr} (plain : Plain name)
    (splits : value.Splits) : Splits (.binding name value) := by
  have enclosed := ofChars_enclosed (spaced [name, value.text]).toList
    (rfl : isBracket '[' = true) (rfl : isBracket ']' = true)
  have shape : (Expr.text (.binding name value)).toList =
      '[' :: ((spaced [name, value.text]).toList ++ [']']) := by
    simp [text]
  have inner : ([name, value.text].flatMap fun text => ofChars text.toList) =
      .word name :: value.tokens := by
    simp [ofChars_plain plain, splits.symm]
  rw [Splits, shape, enclosed, ofChars_spaced, inner, tokens]
  rfl

theorem WellFormed.splits {expr : Expr} (wellFormed : expr.WellFormed) : expr.Splits := by
  induction wellFormed with
  | int nonneg _ => exact splits_word (plain_integer nonneg) rfl rfl
  | bool => exact splits_word (plain_bool _) rfl rfl
  | var named => exact splits_word named.plain rfl rfl
  | binding named _ ih => exact splits_binding named.plain ih
  | form operator _ ih => exact splits_form (fun _ => operator) ih
  | group _ _ ihFirst ihOthers =>
    exact splits_form (fun other => absurd rfl other)
      (List.forall_mem_cons.mpr ⟨ihFirst, ihOthers⟩)

/-- No character of the text begins a comment or ends a line. -/
def Inline (text : String) : Prop :=
  ∀ c ∈ text.toList, c ≠ ';' ∧ Text.isLineBreak c = false

instance (text : String) : Decidable (Inline text) :=
  decidable_of_iff (text.toList.all (fun c => c ≠ ';' && !Text.isLineBreak c) = true)
    (by simp [Inline])

theorem inline_plain {word : String} (plain : Plain word) : Inline word := by
  intro c member
  obtain ⟨shown, _, counted⟩ := plain.2 c member
  exact ⟨counted, Text.isLineBreak_solid shown⟩

theorem inline_append {first second : String} (inline : Inline first) (following : Inline second) :
    Inline (first ++ second) := by
  intro c member
  rw [String.toList_append, List.mem_append] at member
  exact member.elim (inline c) (following c)

theorem inline_spaced {texts : List String} (each : ∀ text ∈ texts, Inline text) :
    Inline (spaced texts) := by
  induction texts with
  | nil => simp [Inline, spaced]
  | cons text rest ih =>
    obtain ⟨first, others⟩ := List.forall_mem_cons.mp each
    cases rest with
    | nil => simpa [spaced, String.intercalate_singleton] using first
    | cons next rest =>
      intro c member
      rw [toList_spaced, List.mem_append, List.mem_cons] at member
      obtain inside | rfl | inside := member
      · exact first c inside
      · decide
      · exact ih others c inside

theorem inline_texts {exprs : List Expr} (each : ∀ expr ∈ exprs, Inline expr.text) :
    ∀ text ∈ texts exprs, Inline text := by
  induction exprs with
  | nil => simp [texts]
  | cons expr rest ih =>
    obtain ⟨first, others⟩ := List.forall_mem_cons.mp each
    exact List.forall_mem_cons.mpr ⟨first, ih others⟩

theorem inline_form {op : String} {args : List Expr} (operator : op ≠ "" → Inline op)
    (each : ∀ arg ∈ args, Inline arg.text) : Inline (Expr.text (.form op args)) := by
  rw [text]
  refine inline_append (inline_append (by decide) (inline_spaced ?_)) (by decide)
  split
  · exact inline_texts each
  · rename_i other
    exact List.forall_mem_cons.mpr ⟨operator other, inline_texts each⟩

theorem WellFormed.inline {expr : Expr} (wellFormed : expr.WellFormed) : Inline expr.text := by
  induction wellFormed with
  | int nonneg _ => exact inline_plain (plain_integer nonneg)
  | bool => exact inline_plain (plain_bool _)
  | var named => exact inline_plain named.plain
  | binding named _ ih =>
    rw [text]
    refine inline_append (inline_append (by decide) (inline_spaced ?_)) (by decide)
    simpa using ⟨inline_plain named.plain, ih⟩
  | form operator _ ih => exact inline_form (fun _ => inline_plain operator) ih
  | group _ _ ihFirst ihOthers =>
    exact inline_form (fun other => absurd rfl other)
      (List.forall_mem_cons.mpr ⟨ihFirst, ihOthers⟩)

end Expr

/-- The text of the form. -/
def Form.text (form : Form) : String :=
  form.toExpr.text

namespace Program

/-- Source text with one form to a line. -/
def render (forms : List Form) : String :=
  "\n".intercalate (forms.map Form.text)

/-- The forms on successive lines, of which the first has this number. -/
def numbered (line : Nat) (forms : List Form) : Program :=
  (forms.zipIdx line).map fun placed => ⟨placed.2, placed.1⟩

/-- The forms without their lines. -/
def forms (program : Program) : List Form :=
  program.map NumberedForm.form

@[simp] theorem forms_numbered (line : Nat) (forms : List Form) :
    (numbered line forms).forms = forms := by
  simp [numbered, Program.forms, List.map_map, Function.comp_def]

end Program

namespace Reader

/-- The text of a form that can be written is read as the form. -/
theorem readLine_text {form : Form} (wellFormed : form.WellFormed) :
    readLine form.text = .ok (some form) := by
  have inline : Expr.Inline form.text := Expr.WellFormed.inline wellFormed
  have tokens : Token.ofLine form.text = form.tokens := by
    rw [Token.ofLine_eq_ofChars fun c member => (inline c member).1]
    exact Expr.WellFormed.splits wellFormed
  rw [readLine, tokens, readTokens_tokens wellFormed]

theorem readLines_texts {forms : List Form} (wellFormed : ∀ form ∈ forms, form.WellFormed)
    (number : Nat) :
    readLines number (forms.map Form.text) = .ok (Program.numbered number forms) := by
  induction forms generalizing number with
  | nil => rfl
  | cons form rest ih =>
    obtain ⟨first, others⟩ := List.forall_mem_cons.mp wellFormed
    simp only [List.map_cons, readLines, readLine_text first, ih others]
    rfl

theorem readSource_render {forms : List Form} (wellFormed : ∀ form ∈ forms, form.WellFormed) :
    readSource (Program.render forms) = .ok (Program.numbered 1 forms) := by
  have separated : Text.lines (Program.render forms) = forms.map Form.text := by
    apply Text.lines_separated
    · intro text member
      obtain ⟨form, inside, rfl⟩ := List.mem_map.mp member
      exact fun c character => (Expr.WellFormed.inline (wellFormed form inside) c character).2
    · intro text member
      obtain ⟨form, _, rfl⟩ := List.mem_map.mp member
      rw [Form.text, Form.toExpr, Expr.text]
      simp
  rw [readSource, separated, readLines_texts wellFormed]

theorem wellFormed_of_readSource {source : String} {program : Program}
    (read : readSource source = .ok program) : ∀ form ∈ program.forms, form.WellFormed := by
  intro form member
  obtain ⟨numbered, inside, rfl⟩ := List.mem_map.mp member
  exact wellFormed_of_readLines read numbered inside

end Reader
end StackScheme
