import StackScheme.Proofs.Reader.Rendering

/-! What the tokens of a line are. The part of a line that counts consists of its tokens, with blanks
around them, and two words are never without a blank between them; in no other way can it be cut into
brackets and words. So blanks make no difference except inside a word. -/
namespace StackScheme.Token
open Text

def texts (line : String) : List String :=
  (ofLine line).map text

/-- Characters that are neither brackets nor blanks. -/
def Row (text : List Char) : Prop :=
  text ≠ [] ∧ ∀ c ∈ text, isSolid c = true

def Whole (text : List Char) : Prop :=
  (∃ c, isBracket c = true ∧ text = [c]) ∨ Row text

def Blank (text : List Char) : Prop :=
  ∀ c ∈ text, isBlank c = true

/-- A token and the blanks in front of it. -/
structure Spot where
  gap : List Char
  text : List Char

/-- The text consists of the tokens, their blanks, and blanks at its end. -/
structure Cut (text : List Char) (spots : List Spot) (tail : List Char) : Prop where
  covered : text = spots.flatMap (fun spot => spot.gap ++ spot.text) ++ tail
  whole : ∀ spot ∈ spots, Whole spot.text
  gaps : ∀ spot ∈ spots, Blank spot.gap
  tail : Blank tail
  /-- Between two rows there is a blank. -/
  apart : spots.IsChain fun spot next => Row spot.text → Row next.text → next.gap ≠ []

def Tokenizes (text : List Char) (tokens : List String) : Prop :=
  ∃ spots tail, Cut text spots tail ∧ tokens = spots.map fun spot => String.ofList spot.text

theorem text_ofPiece (piece : List Char) : (ofPiece piece).text = String.ofList piece := by
  unfold ofPiece
  split <;> rfl

theorem texts_eq (line : String) :
    texts line = (pieces isSolid (uncommented line)).map String.ofList := by
  simp [texts, ofLine_eq, text_ofPiece]

theorem isSolid_blank {c : Char} (blank : isBlank c = true) : isSolid c = false :=
  isSolid_separates c blank

theorem not_row_bracket {c : Char} (bracket : isBracket c = true) : ¬Row [c] := by
  intro row
  have solid := row.2 c List.mem_cons_self
  rw [isSolid_bracket bracket] at solid
  contradiction

section Pieces

theorem pieces_gap {gap : List Char} (blank : Blank gap) (rest : List Char) :
    pieces isSolid (gap ++ rest) = pieces isSolid rest := by
  induction gap with
  | nil => rfl
  | cons c gap ih =>
    obtain ⟨first, others⟩ := List.forall_mem_cons.mp blank
    rw [← ih others]
    exact pieces_append_blank isSolid_separates [] (gap ++ rest) first

/-- A row that is not continued is a piece. -/
theorem pieces_row {row rest : List Char} (isRow : Row row)
    (ended : ∀ c ∈ rest.head?, isSolid c = false) :
    pieces isSolid (row ++ rest) = row :: pieces isSolid rest := by
  have apart : ∀ c ∈ row.getLast?, ∀ d ∈ rest.head?, (isSolid c && isSolid d) = false := by
    intro c _ d first
    simp [ended d first]
  rw [pieces_append apart, pieces_joined isRow.1 isRow.2 isSolid_separates]
  rfl

theorem pieces_bracket {c : Char} (bracket : isBracket c = true) (rest : List Char) :
    pieces isSolid (c :: rest) = [c] :: pieces isSolid rest :=
  pieces_append_apart [] rest (isSolid_bracket bracket) (isBlank_bracket bracket)

end Pieces

namespace Cut
variable {text tail : List Char} {spots : List Spot} {spot : Spot}

/-- The first token of a cut text, and what follows. -/
theorem split (cut : Cut text (spot :: spots) tail) :
    ∃ rest, text = spot.gap ++ (spot.text ++ rest) ∧ Blank spot.gap ∧ Whole spot.text ∧
      Cut rest spots tail ∧ (Row spot.text → ∀ next ∈ spots.head?, Row next.text → next.gap ≠ []) := by
  obtain ⟨covered, whole, gaps, tail, apart⟩ := cut
  obtain ⟨wholeFirst, whole⟩ := List.forall_mem_cons.mp whole
  obtain ⟨gapFirst, gaps⟩ := List.forall_mem_cons.mp gaps
  obtain ⟨next, apart⟩ := List.isChain_cons.mp apart
  refine ⟨_, ?_, gapFirst, wholeFirst, ⟨rfl, whole, gaps, tail, apart⟩,
    fun row following member => next following member row⟩
  simp [covered]

/-- Unless the next token is a row without a blank in front, a cut text does not begin with a
character of a row. -/
theorem head_loose (cut : Cut text spots tail)
    (loose : ∀ spot ∈ spots.head?, Row spot.text → spot.gap ≠ []) :
    ∀ c ∈ text.head?, isSolid c = false := by
  intro c first
  cases spots with
  | nil =>
    have same : text = tail := cut.covered
    rw [same] at first
    exact isSolid_blank (cut.tail c (List.mem_of_mem_head? first))
  | cons spot spots =>
    obtain ⟨rest, rfl, gap, whole, _, _⟩ := cut.split
    have loose := loose spot rfl
    obtain ⟨blanks, piece⟩ := spot
    cases blanks with
    | cons blank blanks =>
      obtain rfl : blank = c := by simpa using first
      exact isSolid_blank (gap blank List.mem_cons_self)
    | nil =>
      rcases whole with ⟨bracket, isBracket, rfl⟩ | row
      · obtain rfl : bracket = c := by simpa using first
        exact isSolid_bracket isBracket
      · exact absurd rfl (loose row)

/-- However a text is cut into brackets and rows, these are its pieces. -/
theorem pieces_eq (cut : Cut text spots tail) : pieces isSolid text = spots.map Spot.text := by
  induction spots generalizing text with
  | nil =>
    have same : text = tail ++ [] := by simpa using cut.covered
    rw [same, pieces_gap cut.tail]
    rfl
  | cons spot spots ih =>
    obtain ⟨rest, rfl, gap, whole, following, apart⟩ := cut.split
    rw [pieces_gap gap, List.map_cons, ← ih following]
    rcases whole with ⟨c, bracket, single⟩ | row
    · rw [single]
      exact pieces_bracket bracket rest
    · exact pieces_row row (following.head_loose (apart row))

theorem blank {c : Char} (cut : Cut text spots tail) (blank : isBlank c = true) :
    ∃ spots tail, Cut (c :: text) spots tail := by
  cases spots with
  | nil =>
    have same : text = tail := cut.covered
    exact ⟨[], c :: tail, by simp [same], by simp, by simp,
      List.forall_mem_cons.mpr ⟨blank, cut.tail⟩, .nil⟩
  | cons spot spots =>
    obtain ⟨covered, whole, gaps, tail, apart⟩ := cut
    obtain ⟨wholeFirst, whole⟩ := List.forall_mem_cons.mp whole
    obtain ⟨gapFirst, gaps⟩ := List.forall_mem_cons.mp gaps
    obtain ⟨next, apart⟩ := List.isChain_cons.mp apart
    refine ⟨⟨c :: spot.gap, spot.text⟩ :: spots, _, by simp [covered],
      List.forall_mem_cons.mpr ⟨wholeFirst, whole⟩, List.forall_mem_cons.mpr ⟨?_, gaps⟩, tail,
      List.isChain_cons.mpr ⟨next, apart⟩⟩
    exact List.forall_mem_cons.mpr ⟨blank, gapFirst⟩

theorem token {piece : List Char} (cut : Cut text spots tail) (whole : Whole piece)
    (apart : Row piece → ∀ next ∈ spots.head?, Row next.text → next.gap ≠ []) :
    Cut (piece ++ text) (⟨[], piece⟩ :: spots) tail := by
  obtain ⟨covered, others, gaps, tail, chain⟩ := cut
  refine ⟨by simp [covered], List.forall_mem_cons.mpr ⟨whole, others⟩,
    List.forall_mem_cons.mpr ⟨by simp [Blank], gaps⟩, tail, ?_⟩
  exact List.isChain_cons.mpr ⟨fun next member row => apart row next member, chain⟩

theorem solid {c : Char} (cut : Cut text spots tail) (solid : isSolid c = true) :
    ∃ spots tail, Cut (c :: text) spots tail := by
  have single : Row [c] := ⟨by simp, by simpa using solid⟩
  by_cases loose : ∀ next ∈ spots.head?, Row next.text → next.gap ≠ []
  · exact ⟨_, _, cut.token (.inr single) fun _ => loose⟩
  · -- the character belongs to the row that the text begins with
    simp only [not_forall, not_not] at loose
    obtain ⟨spot, first, row, unspaced⟩ := loose
    obtain ⟨others, rfl⟩ := List.head?_eq_some_iff.mp first
    obtain ⟨rest, covered, _, _, following, apart⟩ := cut.split
    have longer : Row (c :: spot.text) :=
      ⟨by simp, List.forall_mem_cons.mpr ⟨solid, row.2⟩⟩
    rw [covered, unspaced]
    exact ⟨_, _, following.token (.inr longer) fun _ => apart row⟩

theorem complete (text : List Char) : ∃ spots tail, Cut text spots tail := by
  induction text with
  | nil => exact ⟨[], [], rfl, by simp, by simp, by simp [Blank], .nil⟩
  | cons c text ih =>
    obtain ⟨spots, tail, cut⟩ := ih
    by_cases blank : isBlank c = true
    · exact cut.blank blank
    · by_cases bracket : isBracket c = true
      · exact ⟨_, _, cut.token (.inl ⟨c, bracket, rfl⟩) fun row =>
          absurd row (not_row_bracket bracket)⟩
      · exact cut.solid (by simp [isSolid, blank, bracket])

theorem flatten (cut : Cut text spots tail) :
    (spots.map Spot.text).flatten = text.filter fun c => !isBlank c := by
  induction spots generalizing text with
  | nil =>
    have same : text = tail := cut.covered
    rw [same]
    exact (List.filter_eq_nil_iff.mpr fun c member => by simp [cut.tail c member]).symm
  | cons spot spots ih =>
    obtain ⟨rest, rfl, gap, whole, following, _⟩ := cut.split
    have dropped : spot.gap.filter (fun c => !isBlank c) = [] :=
      List.filter_eq_nil_iff.mpr fun c member => by simp [gap c member]
    have kept : spot.text.filter (fun c => !isBlank c) = spot.text := by
      refine List.filter_eq_self.mpr fun c member => ?_
      rcases whole with ⟨single, bracket, same⟩ | row
      · obtain rfl : c = single := by simpa [same] using member
        simp [isBlank_bracket bracket]
      · have solid := row.2 c member
        simp only [isSolid, Bool.and_eq_true] at solid
        exact solid.1
    rw [List.map_cons, List.flatten_cons, List.filter_append, List.filter_append, dropped, kept,
      ih following, List.nil_append]

end Cut

/-- A text can be cut into tokens in one way only. -/
theorem tokenizes_iff {text : List Char} {tokens : List String} :
    Tokenizes text tokens ↔ tokens = (pieces isSolid text).map String.ofList := by
  constructor
  · rintro ⟨spots, tail, cut, rfl⟩
    rw [cut.pieces_eq, List.map_map]
    rfl
  · rintro rfl
    obtain ⟨spots, tail, cut⟩ := Cut.complete text
    refine ⟨spots, tail, cut, ?_⟩
    rw [cut.pieces_eq, List.map_map]
    rfl

/-- Blanks may be put between the two parts: here one of them ends, or stands next to a bracket or a
blank. -/
def Loose (before after : List Char) : Prop :=
  ∀ c ∈ before.getLast?, ∀ d ∈ after.head?, isSolid c = false ∨ isSolid d = false

theorem pieces_loose {before gap after : List Char} (loose : Loose before after)
    (blank : Blank gap) : pieces isSolid (before ++ gap ++ after) =
      pieces isSolid (before ++ after) := by
  have apart : ∀ c ∈ before.getLast?, ∀ d ∈ after.head?, (isSolid c && isSolid d) = false := by
    intro c last d first
    rcases loose c last d first with apart | apart <;> simp [apart]
  rw [pieces_append apart]
  cases gap with
  | nil => rw [List.append_nil, pieces_append apart]
  | cons c gap =>
    obtain ⟨first, others⟩ := List.forall_mem_cons.mp blank
    rw [List.append_assoc, List.cons_append,
      pieces_append_blank isSolid_separates before (gap ++ after) first, pieces_gap others]

section Comments

theorem uncommented_append {text : String} (counted : ∀ c ∈ text.toList, c ≠ ';')
    (rest : String) : uncommented (text ++ rest) = text.toList ++ uncommented rest := by
  have all : ∀ c ∈ text.toList, decide (c ≠ ';') = true :=
    fun c member => decide_eq_true (counted c member)
  rw [uncommented, String.toList_append, List.takeWhile_append_of_pos all, uncommented]

theorem uncommented_comment (line comment : String) :
    uncommented (line ++ ";" ++ comment) = uncommented line := by
  have semicolon : (";" : String).toList = [';'] := rfl
  rw [uncommented, String.toList_append, String.toList_append, semicolon, uncommented,
    List.append_assoc, List.takeWhile_append]
  split
  · rename_i whole
    have all := (List.takeWhile_prefix _).eq_of_length whole
    rw [List.singleton_append, List.takeWhile_cons_of_neg (by simp), List.append_nil, all]
  · rfl

/-- The line goes on with a semicolon, if at all, where it ceases to count. -/
theorem uncommented_split (line : String) : ∃ comment, line.toList = uncommented line ++ comment ∧
    (∀ c ∈ uncommented line, c ≠ ';') ∧ ∀ c ∈ comment.head?, c = ';' := by
  refine ⟨line.toList.dropWhile (· ≠ ';'), List.takeWhile_append_dropWhile.symm, ?_, ?_⟩
  · intro c member
    simpa using List.mem_takeWhile_imp member
  · intro c first
    have stops := List.head?_dropWhile_not (fun c => decide (c ≠ ';')) line.toList
    rw [Option.mem_def.mp first] at stops
    simpa using stops

end Comments

/-- The part of a line before its first semicolon is cut into the tokens of the line, and can be cut
in no other way. Blanks that are put where no word is divided, and what stands behind a semicolon, do
not change the tokens, and a space divides the tokens of a text. -/
theorem tokens_of_line (line : String) :
    (∃ comment, line.toList = uncommented line ++ comment ∧
      (∀ c ∈ uncommented line, c ≠ ';') ∧ ∀ c ∈ comment.head?, c = ';') ∧
    (∀ tokens, Tokenizes (uncommented line) tokens ↔ tokens = texts line) ∧
    (texts line).flatMap String.toList = (uncommented line).filter (fun c => !isBlank c) ∧
    (∀ before gap after other, uncommented line = before ++ after → Loose before after →
      Blank gap → uncommented other = before ++ gap ++ after → ofLine other = ofLine line) ∧
    (∀ comment, ofLine (line ++ ";" ++ comment) = ofLine line) ∧
    ((∀ c ∈ line.toList, c ≠ ';') → ∀ rest, ofLine (line ++ " " ++ rest) =
      ofLine line ++ ofLine rest) := by
  refine ⟨uncommented_split line, fun tokens => ?_, ?_, ?_, fun comment => ?_, fun counted rest => ?_⟩
  · rw [tokenizes_iff, texts_eq]
  · obtain ⟨spots, tail, cut⟩ := Cut.complete (uncommented line)
    rw [texts_eq, cut.pieces_eq, ← cut.flatten]
    simp [List.flatMap_def, Function.comp_def]
  · intro before gap after other split loose blank inserted
    rw [ofLine_eq, inserted, pieces_loose loose blank, ← split, ofLine_eq]
  · rw [ofLine, uncommented_comment, ofLine]
  · have space : uncommented (" " ++ rest) = ' ' :: uncommented rest :=
      uncommented_append (by simp) rest
    rw [ofLine_eq, String.append_assoc, uncommented_append counted, space,
      ofLine_eq_ofChars counted, ofLine_eq rest]
    exact ofChars_space line.toList (uncommented rest)

/-- Brackets next to words and to each other, a space of another script, and a bracket behind a
semicolon. -/
theorem tokens_of_line_glued :
    let line := "(a[b\u2003c])d;(x"
    let other := "(a[b\u2003c])\x1c\u00a0d"
    (∃ comment, line.toList = uncommented line ++ comment ∧
      (∀ c ∈ uncommented line, c ≠ ';') ∧ ∀ c ∈ comment.head?, c = ';') ∧
    Tokenizes (uncommented line) ["(", "a", "[", "b", "c", "]", ")", "d"] ∧
    (texts line).flatMap String.toList = (uncommented line).filter (fun c => !isBlank c) ∧
    ofLine other = ofLine line ∧ ofLine (line ++ ";" ++ other) = ofLine line ∧
    ofLine (other ++ " " ++ line) = ofLine other ++ ofLine line := by
  intro line other
  have written : texts line = ["(", "a", "[", "b", "c", "]", ")", "d"] := by decide +kernel
  have split : uncommented line = ['(', 'a', '[', 'b', '\u2003', 'c', ']', ')'] ++ ['d'] := by
    decide +kernel
  have inserted : uncommented other =
      ['(', 'a', '[', 'b', '\u2003', 'c', ']', ')'] ++ ['\x1c', '\u00a0'] ++ ['d'] := by
    decide +kernel
  have loose : Loose ['(', 'a', '[', 'b', '\u2003', 'c', ']', ')'] ['d'] := by
    intro c last d _
    obtain rfl : ')' = c := Option.some.inj last
    exact .inl (by decide)
  have blank : Blank ['\x1c', '\u00a0'] := List.all_eq_true.mp (by decide)
  have counted : ∀ c ∈ other.toList, c ≠ ';' := by
    have all : other.toList.all (· ≠ ';') = true := by decide +kernel
    exact fun c member => of_decide_eq_true (List.all_eq_true.mp all c member)
  obtain ⟨counts, cuts, joined, insertion, comments, _⟩ := tokens_of_line line
  obtain ⟨_, _, _, _, _, space⟩ := tokens_of_line other
  exact ⟨counts, (cuts _).mpr written.symm, joined,
    insertion _ _ _ other split loose blank inserted, comments other, space counted line⟩

end StackScheme.Token
