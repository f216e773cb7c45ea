import StackScheme.Text.Line

/-! Text made of lines, ended or set apart by newlines, falls into these lines again, if none of
them holds a line break. What is put behind a text whose lines are all ended has its own lines. A
text whose carriage returns have been made newlines has the lines that it had. -/
namespace StackScheme.Text

def Unbroken (text : List Char) : Prop :=
  ∀ c ∈ text, isLineBreak c = false

theorem linesFrom_append {text : List Char} (unbroken : Unbroken text) (held rest : List Char) :
    linesFrom held (text ++ rest) = linesFrom (text.reverse ++ held) rest := by
  induction text generalizing held with
  | nil => rfl
  | cons c text ih =>
    have solid : isLineBreak c = false := unbroken c (by simp)
    have other : ∀ tail, c = '\r' → text ++ rest = '\n' :: tail → False := by
      rintro tail rfl
      simp [isLineBreak] at solid
    have following := ih (fun d member => unbroken d (by simp [member])) (c :: held)
    rw [List.cons_append, linesFrom.eq_3 _ _ _ other, solid]
    simpa using following

theorem linesFrom_ended {text : List Char} (unbroken : Unbroken text) (rest : List Char) :
    linesFrom [] (text ++ '\n' :: rest) = String.ofList text :: linesFrom [] rest := by
  rw [linesFrom_append unbroken]
  simp [linesFrom, isLineBreak]

theorem linesFrom_last {text : List Char} (unbroken : Unbroken text) (nonempty : text ≠ []) :
    linesFrom [] text = [String.ofList text] := by
  have taken := linesFrom_append unbroken [] []
  rw [List.append_nil] at taken
  rw [taken]
  simp [linesFrom, nonempty]

theorem lines_ended (texts : List String) (unbroken : ∀ text ∈ texts, Unbroken text.toList) :
    lines (String.join (texts.map (· ++ "\n"))) = texts := by
  rw [lines]
  induction texts with
  | nil => rfl
  | cons text rest ih =>
    have following := ih fun other member => unbroken other (by simp [member])
    have first := linesFrom_ended (unbroken text (by simp))
      (String.join (rest.map (· ++ "\n"))).toList
    rw [following, String.ofList_toList] at first
    have split : (String.join ((text :: rest).map (· ++ "\n"))).toList =
        text.toList ++ '\n' :: (String.join (rest.map (· ++ "\n"))).toList := by simp
    rw [split, first]

/-- Newlines between lines, of which none is empty, end all of them but the last. -/
theorem lines_separated (texts : List String) (unbroken : ∀ text ∈ texts, Unbroken text.toList)
    (nonempty : ∀ text ∈ texts, text ≠ "") : lines ("\n".intercalate texts) = texts := by
  rw [lines]
  induction texts with
  | nil => rfl
  | cons text rest ih =>
    have following := ih (fun other member => unbroken other (by simp [member]))
      fun other member => nonempty other (by simp [member])
    have first := unbroken text (by simp)
    cases rest with
    | nil =>
      have shown : text.toList ≠ [] := by simpa using nonempty text (by simp)
      rw [String.intercalate_singleton, linesFrom_last first shown, String.ofList_toList]
    | cons next rest =>
      have ended := linesFrom_ended first ("\n".intercalate (next :: rest)).toList
      rw [following] at ended
      rw [String.intercalate_cons_cons]
      simpa using ended

/-- The text is empty, or its last line is ended. -/
def Ended (text : String) : Prop :=
  ∀ c ∈ text.toList.getLast?, c = '\n'

-- looks at the last character only, instead of trying every character
instance (text : String) : Decidable (Ended text) :=
  decidable_of_iff (text.toList.getLast?.all (· = '\n') = true) (by
    unfold Ended
    cases text.toList.getLast? <;> simp)

/-- Unless it is the first half of a line break of two characters, a character ends a line or is
taken in hand. -/
theorem linesFrom_cons (held : List Char) {c : Char} {text : List Char}
    (other : ∀ rest, c = '\r' → text = '\n' :: rest → False) :
    linesFrom held (c :: text) =
      if isLineBreak c then String.ofList held.reverse :: linesFrom [] text
      else linesFrom (c :: held) text :=
  linesFrom.eq_3 held c text other

/-- What follows a newline falls into lines by itself. -/
theorem linesFrom_newline (held text rest : List Char) :
    linesFrom held (text ++ '\n' :: rest) =
      linesFrom held (text ++ ['\n']) ++ linesFrom [] rest := by
  fun_induction linesFrom held text with
  | case1 held empty => simp [linesFrom, isLineBreak]
  | case2 held shown => simp [linesFrom, isLineBreak]
  | case3 held text ih => simp [linesFrom, ih]
  | case4 held c text other broken ih =>
    by_cases half : c = '\r' ∧ text = []
    · obtain ⟨rfl, rfl⟩ := half
      simp [linesFrom]
    · have whole (tail : List Char) :
          ∀ more, c = '\r' → text ++ '\n' :: tail = '\n' :: more → False := by
        intro more return_ same
        cases text with
        | nil => exact half ⟨return_, rfl⟩
        | cons d text =>
          obtain ⟨rfl, _⟩ := List.cons.inj same
          exact other text return_ rfl
      rw [List.cons_append, List.cons_append, linesFrom_cons held (whole rest),
        linesFrom_cons held (whole []), if_pos broken, if_pos broken, ih, List.cons_append]
  | case5 held c text other solid ih =>
    have whole (tail : List Char) :
        ∀ more, c = '\r' → text ++ '\n' :: tail = '\n' :: more → False := by
      rintro more rfl _
      simp [isLineBreak] at solid
    rw [List.cons_append, List.cons_append, linesFrom_cons held (whole rest),
      linesFrom_cons held (whole []), if_neg solid, if_neg solid, ih]

/-- A text whose lines are all ended and the text behind it fall into their lines one after the
other. -/
theorem lines_append {text : String} (ended : Ended text) (rest : String) :
    lines (text ++ rest) = lines text ++ lines rest := by
  unfold lines
  rw [String.toList_append]
  rcases List.eq_nil_or_concat text.toList with empty | ⟨before, last, whole⟩
  · rw [empty]
    rfl
  · obtain rfl : last = '\n' := ended last (by simp [whole])
    rw [whole, List.concat_eq_append, List.append_assoc, List.singleton_append, linesFrom_newline]

theorem ended_join (texts : List String) : Ended (String.join (texts.map (· ++ "\n"))) := by
  rcases List.eq_nil_or_concat texts with rfl | ⟨before, last, rfl⟩
  · simp [Ended]
  · simp [Ended]

theorem unifyFrom_append (held before text : List Char) :
    unifyFrom (held ++ before) text = before.reverse ++ unifyFrom held text := by
  fun_induction unifyFrom held text with
  | case1 held => simp [unifyFrom]
  | case2 held text ih => exact ih
  | case3 held c text other ih =>
    rw [unifyFrom.eq_3 _ _ _ other]
    exact ih

theorem unifyFrom_single (c : Char) (text : List Char) :
    unifyFrom [c] text = c :: unifyFrom [] text :=
  unifyFrom_append [] [c] text

/-- A carriage return ends a line, alone or before a newline, as does the newline that is put in
its place. -/
theorem linesFrom_unify (held text : List Char) :
    linesFrom held (unifyFrom [] text) = linesFrom held text := by
  have newline : ∀ c, (if c = '\r' then '\n' else c) ≠ '\r' := by
    intro c
    split
    · decide
    · assumption
  fun_induction linesFrom held text with
  | case1 held empty => simp [unifyFrom, linesFrom, empty]
  | case2 held shown => simp [unifyFrom, linesFrom, shown]
  | case3 held text ih =>
    rw [unifyFrom, unifyFrom_single, linesFrom_cons held (by simp), if_pos (by decide), ih]
  | case4 held c text other broken ih =>
    have ends : isLineBreak (if c = '\r' then '\n' else c) = true := by
      split
      · decide
      · exact broken
    rw [unifyFrom.eq_3 _ _ _ other, unifyFrom_single,
      linesFrom_cons held (fun _ same => absurd same (newline c)), if_pos ends, ih]
  | case5 held c text other solid ih =>
    have kept : (if c = '\r' then '\n' else c) = c := by
      rw [if_neg]
      rintro rfl
      exact solid (by decide)
    rw [unifyFrom.eq_3 _ _ _ other, unifyFrom_single, kept,
      linesFrom_cons held (fun _ same => absurd same (kept ▸ newline c)), if_neg solid, ih]

/-- The lines of a text are the same once newlines end all of them. -/
theorem lines_unifyNewlines (text : String) : lines (unifyNewlines text) = lines text := by
  rw [lines, unifyNewlines, String.toList_ofList, linesFrom_unify, lines]

end StackScheme.Text
