import StackScheme.Proofs.Reader.Completeness

/-! The reader accepts nothing else, and it loses no token: at every moment the open frames are
spelled with the tokens that have been taken. -/
namespace StackScheme.Reader
open Fallible

/-- The tokens that a frame has been made from. -/
def Frame.tokens : Frame → List Token
  | .opened => [.openParen]
  | .form op args =>
    .openParen :: ((if op = "" then [] else [.word op]) ++ Expr.allTokens args.reverse)
  | .binding name values =>
    .openBracket :: (name.toList.map Token.word ++ Expr.allTokens values.reverse)

def spelled : List Frame → List Token
  | [] => []
  | frame :: rest => spelled rest ++ frame.tokens

/-- What an open binding may hold. -/
def Called : Option String → List Expr → Prop
  | none, values => values = []
  | some name, values => Token.Name name ∧ ∀ value ∈ values, value.WellFormed

/-- What open frames hold can be written. A group has no operands only as long as its first binding
is open. -/
inductive Sound : List Frame → Prop
  | nil : Sound []
  | opened {rest} (below : Sound rest) : Sound (.opened :: rest)
  | form {op args rest} (operator : Token.Plain op) (operands : ∀ arg ∈ args, arg.WellFormed)
      (below : Sound rest) : Sound (.form op args :: rest)
  | group {args name value rest} (operands : ∀ arg ∈ args, arg.WellFormed)
      (first : args.getLast? = some (.binding name value)) (below : Sound rest) :
      Sound (.form "" args :: rest)
  | binding {name values rest} (called : Called name values) (below : Sound rest) :
      Sound (.binding name values :: rest)
  | first {name values rest} (called : Called name values) (below : Sound rest) :
      Sound (.binding name values :: .form "" [] :: rest)

theorem spelled_form (op : String) (arg : Expr) (args : List Expr) (rest : List Frame) :
    spelled (.form op (arg :: args) :: rest) = spelled (.form op args :: rest) ++ arg.tokens := by
  simp [spelled, Frame.tokens, Expr.allTokens]

theorem spelled_binding (name : Option String) (value : Expr) (values : List Expr)
    (rest : List Frame) : spelled (.binding name (value :: values) :: rest) =
      spelled (.binding name values :: rest) ++ value.tokens := by
  simp [spelled, Frame.tokens, Expr.allTokens]

theorem sound_give {arg : Expr} {stack after : List Frame} (sound : Sound stack)
    (wellFormed : arg.WellFormed) (given : give arg stack = .ok after) :
    Sound after ∧ spelled after = spelled stack ++ arg.tokens := by
  cases give_eq_ok_iff.mp given with
  | @form op args rest =>
    refine ⟨?_, spelled_form op arg args rest⟩
    cases sound with
    | form operator operands below =>
      exact .form operator (List.forall_mem_cons.mpr ⟨wellFormed, operands⟩) below
    | group operands first below =>
      have nonempty : args ≠ [] := List.getLast?_isSome.mp (by rw [first]; rfl)
      have last := (List.getLast?_cons_of_ne_nil (x := arg) nonempty).trans first
      exact .group (List.forall_mem_cons.mpr ⟨wellFormed, operands⟩) last below
  | @binding name values rest =>
    refine ⟨?_, spelled_binding _ arg values rest⟩
    cases sound with
    | binding called below =>
      exact .binding ⟨called.1, List.forall_mem_cons.mpr ⟨wellFormed, called.2⟩⟩ below
    | first called below =>
      exact .first ⟨called.1, List.forall_mem_cons.mpr ⟨wellFormed, called.2⟩⟩ below

/-- A form is well-formed when its parenthesis is closed. -/
theorem sound_form {op : String} {args : List Expr} {rest : List Frame}
    (sound : Sound (.form op args :: rest)) :
    Expr.WellFormed (.form op args.reverse) ∧ Sound rest := by
  cases sound with
  | form operator operands below =>
    exact ⟨.form operator fun arg member => operands arg (List.mem_reverse.mp member), below⟩
  | group operands first below =>
    refine ⟨?_, below⟩
    rw [← List.head?_reverse] at first
    obtain ⟨others, shape⟩ := List.head?_eq_some_iff.mp first
    rw [shape]
    have members : ∀ arg ∈ args.reverse, arg.WellFormed :=
      fun arg member => operands arg (List.mem_reverse.mp member)
    rw [shape] at members
    exact .group (members _ (by simp)) fun arg member => members arg (by simp [member])

/-- The builder has been made from these tokens. -/
inductive MadeFrom (tokens : List Token) : Builder → Prop
  | reading {stack} (sound : Sound stack) (spelling : spelled stack = tokens) :
      MadeFrom tokens ⟨stack, none⟩
  | done {form : Form} (wellFormed : form.WellFormed) (spelling : form.tokens = tokens) :
      MadeFrom tokens ⟨[], some form⟩

section Steps
variable {stack : List Frame} {next : Builder}

theorem made_closeParen (sound : Sound stack) (stepped : closeParen ⟨stack, none⟩ = .ok next) :
    MadeFrom (spelled stack ++ [.closeParen]) next := by
  unfold closeParen at stepped
  split at stepped
  · contradiction
  · contradiction
  · contradiction
  · rename_i op args shape
    obtain rfl : stack = [.form op args] := shape
    obtain rfl := Except.ok.inj stepped
    refine .done (sound_form sound).1 ?_
    simp [Form.tokens, Form.toExpr, Expr.tokens, spelled, Frame.tokens]
  · rename_i op args rest nonempty shape
    obtain rfl : stack = .form op args :: rest := shape
    obtain ⟨after, given, same⟩ := bind_eq_ok.mp stepped
    obtain rfl := Except.ok.inj same
    obtain ⟨wellFormed, below⟩ := sound_form sound
    obtain ⟨sound, spelling⟩ := sound_give below wellFormed given
    apply MadeFrom.reading sound
    simp [spelling, Expr.tokens, spelled, Frame.tokens]

theorem made_openBracket (sound : Sound stack) (stepped : openBracket ⟨stack, none⟩ = .ok next) :
    MadeFrom (spelled stack ++ [.openBracket]) next := by
  unfold openBracket at stepped
  split at stepped
  · contradiction
  · rename_i rest shape
    obtain rfl : stack = .opened :: rest := shape
    obtain rfl := Except.ok.inj stepped
    cases sound with
    | opened below =>
      exact .reading (.first rfl below) (by simp [spelled, Frame.tokens, Expr.allTokens])
  · contradiction
  · obtain rfl := Except.ok.inj stepped
    exact .reading (.binding rfl sound) (by simp [spelled, Frame.tokens, Expr.allTokens])

theorem made_closeBracket (sound : Sound stack) (stepped : closeBracket ⟨stack, none⟩ = .ok next) :
    MadeFrom (spelled stack ++ [.closeBracket]) next := by
  unfold closeBracket at stepped
  split at stepped
  · contradiction
  · rename_i name value rest shape
    obtain rfl : stack = .binding (some name) [value] :: rest := shape
    obtain ⟨after, given, same⟩ := bind_eq_ok.mp stepped
    obtain rfl := Except.ok.inj same
    have written (called : Called (some name) [value]) :
        Expr.WellFormed (.binding name value) := .binding called.1 (called.2 value (by simp))
    cases sound with
    | binding called below =>
      obtain ⟨sound, spelling⟩ := sound_give below (written called) given
      apply MadeFrom.reading sound
      simp [spelling, Expr.tokens, Expr.allTokens, spelled, Frame.tokens]
    | first called below =>
      obtain rfl := Except.ok.inj given
      refine .reading (.group (by simpa using written called) rfl below) ?_
      simp [Expr.tokens, Expr.allTokens, spelled, Frame.tokens]
  · contradiction
  · contradiction
  · contradiction

theorem made_openParen (sound : Sound stack) (stepped : openParen ⟨stack, none⟩ = .ok next) :
    MadeFrom (spelled stack ++ [.openParen]) next := by
  unfold openParen at stepped
  split at stepped
  · contradiction
  · contradiction
  · obtain rfl := Except.ok.inj stepped
    exact .reading (.opened sound) rfl

theorem made_word {text : String} (plain : Token.Plain text) (sound : Sound stack)
    (stepped : word text ⟨stack, none⟩ = .ok next) :
    MadeFrom (spelled stack ++ [.word text]) next := by
  unfold word at stepped
  split at stepped
  · contradiction
  · rename_i rest shape
    obtain rfl : stack = .opened :: rest := shape
    obtain rfl := Except.ok.inj stepped
    cases sound with
    | opened below =>
      refine .reading (.form plain (by simp) below) ?_
      simp [spelled, Frame.tokens, Expr.allTokens, plain.1]
  · obtain ⟨after, added, same⟩ := bind_eq_ok.mp stepped
    obtain rfl := Except.ok.inj same
    obtain ⟨arg, read, added⟩ := bind_eq_ok.mp added
    obtain ⟨wellFormed, tokens⟩ := atom_sound plain read
    split at added
    · rename_i name values rest shape
      obtain rfl := Except.ok.inj added
      have same : name = text := Token.word.inj (List.cons.inj tokens).1
      have named : Token.Name name := by
        cases wellFormed with
        | var named => exact named
      subst same
      obtain rfl : stack = .binding none values :: rest := shape
      cases sound with
      | binding called below =>
        obtain rfl := called
        refine .reading (.binding ⟨named, by simp⟩ below) ?_
        simp [spelled, Frame.tokens, Expr.allTokens]
      | first called below =>
        obtain rfl := called
        refine .reading (.first ⟨named, by simp⟩ below) ?_
        simp [spelled, Frame.tokens, Expr.allTokens]
    · obtain ⟨sound, spelling⟩ := sound_give sound wellFormed added
      exact .reading sound (by rw [spelling, tokens])

end Steps

/-- One more token, plain if it is a word, keeps the builder made from the tokens taken. -/
theorem made_step {tokens : List Token} {token : Token} {builder next : Builder}
    (made : MadeFrom tokens builder) (plain : ∀ text, token = .word text → Token.Plain text)
    (stepped : step builder token = .ok next) : MadeFrom (tokens ++ [token]) next := by
  cases made with
  | done wellFormed spelling => cases token <;> contradiction
  | reading sound spelling =>
    subst spelling
    cases token with
    | openParen => exact made_openParen sound stepped
    | closeParen => exact made_closeParen sound stepped
    | openBracket => exact made_openBracket sound stepped
    | closeBracket => exact made_closeBracket sound stepped
    | word text => exact made_word (plain text rfl) sound stepped

theorem made_tokens {tokens others : List Token} {builder after : Builder}
    (made : MadeFrom tokens builder) (plain : ∀ text, .word text ∈ others → Token.Plain text)
    (consumed : Consumes others builder after) : MadeFrom (tokens ++ others) after := by
  induction others generalizing tokens builder with
  | nil =>
    obtain rfl := Except.ok.inj consumed
    simpa using made
  | cons token rest ih =>
    rw [Consumes, List.foldlM_cons] at consumed
    obtain ⟨next, stepped, consumed⟩ := bind_eq_ok.mp consumed
    have following := made_step made (fun text same => plain text (by simp [same])) stepped
    have whole := ih following (fun text member => plain text (by simp [member])) consumed
    simpa using whole

/-- Tokens with plain words are read as a form only if they are the tokens of the form, and as
nothing only if there are none. -/
theorem readTokens_sound {tokens : List Token} {result : Option Form}
    (plain : ∀ text, .word text ∈ tokens → Token.Plain text)
    (read : readTokens tokens = .ok result) :
    match result with
    | none => tokens = []
    | some form => form.WellFormed ∧ tokens = form.tokens := by
  obtain ⟨builder, consumed, finished⟩ := bind_eq_ok.mp read
  have made := made_tokens (.reading .nil rfl) plain consumed
  rw [spelled, List.nil_append] at made
  unfold finish at finished
  cases made with
  | done wellFormed spelling =>
    obtain rfl := Except.ok.inj finished
    exact ⟨wellFormed, spelling.symm⟩
  | reading sound spelling =>
    split at finished
    · rename_i empty
      obtain rfl := Except.ok.inj finished
      obtain rfl := empty
      exact spelling.symm
    · contradiction
    · contradiction

/-- A line is read as a form exactly if the form can be written and the line has its tokens, and as
nothing exactly if the line has no tokens. Every other line fails. No two forms that can be written
have the same tokens. -/
theorem readLine_accepts (line : String) :
    (∀ form, readLine line = .ok (some form) ↔
      form.WellFormed ∧ Token.ofLine line = form.tokens) ∧
    (readLine line = .ok none ↔ Token.ofLine line = []) ∧
    ((∃ failure, readLine line = .error failure) ↔
      Token.ofLine line ≠ [] ∧ ∀ form : Form, form.WellFormed → Token.ofLine line ≠ form.tokens) ∧
    ∀ form other : Form, form.WellFormed → other.WellFormed → form.tokens = other.tokens →
      form = other := by
  have accepts (form : Form) : readLine line = .ok (some form) ↔
      form.WellFormed ∧ Token.ofLine line = form.tokens := by
    constructor
    · exact fun read => readTokens_sound (fun _ => Token.plain_of_mem) read
    · rintro ⟨wellFormed, same⟩
      rw [readLine, same, readTokens_tokens wellFormed]
  have blank : readLine line = .ok none ↔ Token.ofLine line = [] := by
    constructor
    · exact fun read => readTokens_sound (fun _ => Token.plain_of_mem) read
    · intro none
      rw [readLine, none]
      rfl
  refine ⟨accepts, blank, ?_, ?_⟩
  · constructor
    · rintro ⟨failure, failed⟩
      refine ⟨fun none => ?_, fun form wellFormed same => ?_⟩
      · rw [blank.mpr none] at failed
        contradiction
      · rw [(accepts form).mpr ⟨wellFormed, same⟩] at failed
        contradiction
    · rintro ⟨some, others⟩
      cases read : readLine line with
      | error failure => exact ⟨failure, rfl⟩
      | ok result =>
        cases result with
        | none => exact absurd (blank.mp read) some
        | some form =>
          obtain ⟨wellFormed, same⟩ := (accepts form).mp read
          exact absurd same (others form wellFormed)
  · intro form other wellFormed otherWellFormed same
    have read := readTokens_tokens wellFormed
    rw [same, readTokens_tokens otherWellFormed] at read
    exact (Option.some.inj (Except.ok.inj read)).symm

/-- The forms of lines that have been read can be written. -/
theorem wellFormed_of_readLines {number : Nat} {lines : List String} {program : Program}
    (read : readLines number lines = .ok program) :
    ∀ numbered ∈ program, numbered.form.WellFormed := by
  induction lines generalizing number program with
  | nil =>
    obtain rfl := Except.ok.inj read
    simp
  | cons line rest ih =>
    unfold readLines at read
    split at read
    · contradiction
    · exact ih read
    · rename_i form accepted
      obtain ⟨others, following, same⟩ := bind_eq_ok.mp read
      obtain rfl := Except.ok.inj same
      have wellFormed := (readTokens_sound (fun _ => Token.plain_of_mem) accepted).1
      exact List.forall_mem_cons.mpr ⟨wellFormed, ih following⟩

theorem fits_of_all {exprs : List Expr}
    (each : ∀ expr ∈ exprs, ∀ n ∈ expr.integers, Numeral.Fits n) :
    ∀ n ∈ Expr.allIntegers exprs, Numeral.Fits n := by
  induction exprs with
  | nil => simp [Expr.allIntegers]
  | cons expr rest ih =>
    obtain ⟨first, others⟩ := List.forall_mem_cons.mp each
    simpa [Expr.allIntegers, or_imp, forall_and] using ⟨first, ih others⟩

/-- The literals of an expression that can be written are not too long to be written again. -/
theorem fits_of_wellFormed {expr : Expr} (wellFormed : expr.WellFormed) :
    ∀ n ∈ expr.integers, Numeral.Fits n := by
  induction wellFormed with
  | int _ fits => simpa [Expr.integers] using fits
  | bool | var => simp [Expr.integers]
  | binding _ _ ih => simpa [Expr.integers] using ih
  | form _ _ ih => exact fits_of_all ih
  | group _ _ ihFirst ihOthers =>
    exact fits_of_all (List.forall_mem_cons.mpr ⟨ihFirst, ihOthers⟩)

/-- No literal of a program that has been read is too long to be written. -/
theorem fits_of_readSource {source : String} {program : Program}
    (read : readSource source = .ok program) :
    ∀ n ∈ Expr.allIntegers program.exprs, Numeral.Fits n := by
  refine fits_of_all fun expr member => ?_
  obtain ⟨numbered, inside, rfl⟩ := List.mem_map.mp member
  exact fits_of_wellFormed (wellFormed_of_readLines read numbered inside)

end StackScheme.Reader
