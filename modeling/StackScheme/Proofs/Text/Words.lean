import StackScheme.Text.Piece
import StackScheme.Text.Word
import Mathlib.Data.List.SplitBy

/-! How text falls into pieces. A blank separates what stands before it from what stands after it,
and every piece is either one character or a row of characters that join. -/
namespace StackScheme.Text
variable {joins : Char → Bool}

/-- Characters that join are not blank. -/
def Separates (joins : Char → Bool) : Prop :=
  ∀ c, isBlank c = true → joins c = false

/-- A character that does not join is a run by itself. -/
theorem runs_append_apart (before after : List Char) {c : Char} (apart : joins c = false) :
    runs joins (before ++ c :: after) = runs joins before ++ [c] :: runs joins after := by
  have ends : ∀ d ∈ before.getLast?, (joins d && joins c) = false := by
    simp [apart]
  have starts : ∀ d ∈ [c].getLast?, ∀ e ∈ after.head?, (joins d && joins e) = false := by
    simp [apart]
  have first := List.splitBy_append_cons (r := fun c d => joins c && joins d) after ends
  have second := List.splitBy_append (r := fun c d => joins c && joins d) starts
  have single : [c].splitBy (fun c d => joins c && joins d) = [[c]] := rfl
  rw [List.singleton_append, single] at second
  rw [runs, first, second]
  rfl

theorem pieces_append_blank (separates : Separates joins) (before after : List Char) {c : Char}
    (blank : isBlank c = true) :
    pieces joins (before ++ c :: after) = pieces joins before ++ pieces joins after := by
  simp [pieces, runs_append_apart before after (separates c blank), blank]

/-- Between characters that do not join, a text can be taken apart. -/
theorem pieces_append {before after : List Char}
    (apart : ∀ c ∈ before.getLast?, ∀ d ∈ after.head?, (joins c && joins d) = false) :
    pieces joins (before ++ after) = pieces joins before ++ pieces joins after := by
  simp [pieces, runs, List.splitBy_append apart]

/-- A character that neither joins nor is blank is a piece by itself. -/
theorem pieces_append_apart (before after : List Char) {c : Char} (apart : joins c = false)
    (solid : isBlank c = false) :
    pieces joins (before ++ c :: after) = pieces joins before ++ [c] :: pieces joins after := by
  simp [pieces, runs_append_apart before after apart, solid]

theorem pieces_joined {text : List Char} (nonempty : text ≠ [])
    (joined : ∀ c ∈ text, joins c = true) (separates : Separates joins) :
    pieces joins text = [text] := by
  have chain : text.IsChain fun c d => (joins c && joins d) = true := by
    refine List.Pairwise.isChain (List.pairwise_of_forall_mem_list ?_)
    intro c first d second
    simp [joined c first, joined d second]
  have solid : text.all isBlank = false := by
    obtain ⟨c, rest, rfl⟩ := List.exists_cons_of_ne_nil nonempty
    have shown : isBlank c = false := by
      by_contra blank
      have apart := separates c (by simpa using blank)
      simp [joined c (by simp)] at apart
    simp [shown]
  simp [pieces, runs, List.splitBy_of_isChain nonempty chain, solid]

theorem mem_of_mem_pieces {text piece : List Char} (member : piece ∈ pieces joins text) {c : Char}
    (inside : c ∈ piece) : c ∈ text := by
  have run := (List.mem_filter.mp member).1
  rw [← List.flatten_splitBy (fun c d => joins c && joins d) text]
  exact List.mem_flatten.mpr ⟨piece, run, inside⟩

theorem piece_ne_nil {text piece : List Char} (member : piece ∈ pieces joins text) : piece ≠ [] :=
  List.ne_nil_of_mem_splitBy (List.mem_filter.mp member).1

theorem chain_joined {first : Char} {rest : List Char}
    (chain : (first :: rest).IsChain fun c d => (joins c && joins d) = true)
    (joined : joins first = true) : ∀ c ∈ first :: rest, joins c = true := by
  induction rest generalizing first with
  | nil => simpa using joined
  | cons next rest ih =>
    obtain ⟨both, chain⟩ := List.isChain_cons_cons.mp chain
    have following := ih chain (Bool.and_eq_true_iff.mp both).2
    intro c member
    rcases List.mem_cons.mp member with rfl | member
    · exact joined
    · exact following c member

/-- A piece of one character that does not join, or a row of characters that do. -/
theorem piece_shape {text piece : List Char} (member : piece ∈ pieces joins text) :
    (∃ c, piece = [c] ∧ joins c = false ∧ isBlank c = false) ∨ ∀ c ∈ piece, joins c = true := by
  obtain ⟨run, shown⟩ := List.mem_filter.mp member
  have chain := List.isChain_of_mem_splitBy run
  match piece, chain, shown with
  | [], _, _ => exact Or.inr (by simp)
  | [c], _, shown =>
    cases joined : joins c with
    | false => exact Or.inl ⟨c, rfl, joined, by simpa using shown⟩
    | true => exact Or.inr (by simp [joined])
  | c :: d :: rest, chain, _ =>
    have both := (List.isChain_cons_cons.mp chain).1
    exact Or.inr (chain_joined chain (Bool.and_eq_true_iff.mp both).1)

theorem words_separates : Separates fun c => !isBlank c := by
  intro c blank
  simp [blank]

theorem words_two {first second : List Char} (nonempty : first ≠ []) (nonempty' : second ≠ [])
    (solid : ∀ c ∈ first, isBlank c = false) (solid' : ∀ c ∈ second, isBlank c = false) :
    words (first ++ ' ' :: second) = [first, second] := by
  rw [words, pieces_append_blank words_separates _ _ (by decide),
    pieces_joined nonempty (by simpa using solid) words_separates,
    pieces_joined nonempty' (by simpa using solid') words_separates]
  rfl

theorem words_one {word : List Char} (nonempty : word ≠ [])
    (solid : ∀ c ∈ word, isBlank c = false) : words word = [word] :=
  pieces_joined nonempty (by simpa using solid) words_separates

end StackScheme.Text
