import StackScheme.Text.Blank
import StackScheme.Text.Line
import StackScheme.Text.Word

/-! How the classes of characters lie to each other: no character of a name is blank, and every
line break is. -/
namespace StackScheme.Text

/-- No range of one list meets a range of the other. -/
def Ranges.apart (ranges others : Ranges) : Bool :=
  ranges.all fun range => others.all fun other => range.2 < other.1 || other.2 < range.1

theorem Ranges.covers_apart {ranges others : Ranges} (apart : ranges.apart others = true)
    {c : Char} (covered : ranges.covers c = true) : others.covers c = false := by
  obtain ⟨range, member, inside⟩ := List.any_eq_true.mp covered
  simp only [Bool.and_eq_true, decide_eq_true_eq] at inside
  apply List.any_eq_false.mpr
  intro other otherMember
  have disjoint := List.all_eq_true.mp (List.all_eq_true.mp apart range member) other otherMember
  simp only [Bool.or_eq_true, decide_eq_true_eq] at disjoint
  simp only [Bool.and_eq_true, decide_eq_true_eq]
  omega

theorem words_apart : Ranges.apart wordRanges blankRanges = true := by
  decide +kernel

theorem isBlank_word {c : Char} (word : isWord c = true) : isBlank c = false :=
  Ranges.covers_apart words_apart word

theorem isBlank_lineBreak {c : Char} (ends : isLineBreak c = true) : isBlank c = true := by
  have listed : ['\n', '\x0B', '\x0C', '\r', '\x1C', '\x1D', '\x1E', '\u0085', '\u2028',
    '\u2029'].all isBlank = true := by decide
  exact List.all_eq_true.mp listed c (by simpa [isLineBreak] using ends)

theorem isLineBreak_solid {c : Char} (solid : isBlank c = false) : isLineBreak c = false := by
  cases ends : isLineBreak c with
  | false => rfl
  | true =>
    have blank := isBlank_lineBreak ends
    rw [solid] at blank
    contradiction

theorem isWord_digit {c : Char} (digit : c.isDigit = true) : isWord c = true := by
  have range := Char.isDigit_iff_toNat.mp digit
  simp only [Char.reduceToNat] at range
  apply List.any_eq_true.mpr
  refine ⟨(0x30, 0x39), List.mem_cons_self, ?_⟩
  simp only [Bool.and_eq_true, decide_eq_true_eq]
  omega

end StackScheme.Text
