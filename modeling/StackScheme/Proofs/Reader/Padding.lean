import StackScheme.Token
import StackScheme.Proofs.Text.Words

/-! Why brackets are padded. The words of a padded text are the brackets of the text and the longest
rows of its other characters: the spaces end the rows that brackets stand next to, and divide no
row. -/
namespace StackScheme.Token
open Text

/-- The characters of rows. -/
def isSolid (c : Char) : Bool :=
  !isBlank c && !isBracket c

theorem isBracket_cases {c : Char} (bracket : isBracket c = true) :
    c = '(' ∨ c = ')' ∨ c = '[' ∨ c = ']' := by
  simpa [isBracket] using bracket

theorem isBlank_bracket {c : Char} (bracket : isBracket c = true) : isBlank c = false := by
  rcases isBracket_cases bracket with rfl | rfl | rfl | rfl <;> decide

theorem isSolid_bracket {c : Char} (bracket : isBracket c = true) : isSolid c = false := by
  simp [isSolid, bracket]

theorem isSolid_separates : Separates isSolid := by
  intro c blank
  simp [isSolid, blank]

@[simp] theorem padded_nil : padded [] = [] := rfl

theorem padded_bracket {c : Char} (bracket : isBracket c = true) (text : List Char) :
    padded (c :: text) = ' ' :: c :: ' ' :: padded text := by
  simp [padded, bracket]

theorem padded_other {c : Char} (other : isBracket c = false) (text : List Char) :
    padded (c :: text) = c :: padded text := by
  simp [padded, other]

/-- A row by itself is a word, and it is a piece. -/
theorem words_row {row : List Char} (solid : ∀ c ∈ row, isSolid c = true) :
    words row = pieces isSolid row := by
  by_cases empty : row = []
  · rw [empty]
    rfl
  · have shown : ∀ c ∈ row, isBlank c = false := by
      intro c member
      have kinds := solid c member
      simp only [isSolid, Bool.and_eq_true, Bool.not_eq_true'] at kinds
      exact kinds.1
    rw [words_one empty shown, pieces_joined empty solid isSolid_separates]

theorem words_blank (before after : List Char) {c : Char} (blank : isBlank c = true) :
    words (before ++ c :: after) = words before ++ words after :=
  pieces_append_blank words_separates before after blank

/-- The induction is on the text that is still to come; the row that it may continue is in hand. -/
theorem words_padded_after (row text : List Char) (solid : ∀ c ∈ row, isSolid c = true) :
    words (row ++ padded text) = pieces isSolid (row ++ text) := by
  induction text generalizing row with
  | nil => simpa using words_row solid
  | cons c text ih =>
    have following : words (padded text) = pieces isSolid text := ih [] (by simp)
    by_cases bracket : isBracket c = true
    · have space : isBlank ' ' = true := by decide
      have single : words [c] = [[c]] := words_one (by simp) (by simpa using isBlank_bracket bracket)
      calc words (row ++ padded (c :: text))
          = words row ++ words ([c] ++ ' ' :: padded text) := by
            rw [padded_bracket bracket, words_blank _ _ space, List.singleton_append]
        _ = pieces isSolid row ++ [c] :: pieces isSolid text := by
            rw [words_blank _ _ space, single, following, words_row solid, List.singleton_append]
        _ = pieces isSolid (row ++ c :: text) :=
            (pieces_append_apart row text (isSolid_bracket bracket) (isBlank_bracket bracket)).symm
    · have other : isBracket c = false := by simpa using bracket
      rw [padded_other other]
      by_cases blank : isBlank c = true
      · rw [words_blank _ _ blank, following, words_row solid,
          pieces_append_blank isSolid_separates _ _ blank]
      · -- the row goes on with this character
        have longer : ∀ d ∈ row ++ [c], isSolid d = true := by
          refine List.forall_mem_append.mpr ⟨solid, List.forall_mem_singleton.mpr ?_⟩
          simp [isSolid, blank, other]
        simpa using ih (row ++ [c]) longer

theorem words_padded (text : List Char) : words (padded text) = pieces isSolid text :=
  words_padded_after [] text (by simp)

theorem ofLine_eq (line : String) :
    ofLine line = (pieces isSolid (uncommented line)).map ofPiece := by
  rw [ofLine, words_padded]

end StackScheme.Token
