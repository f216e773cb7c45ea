import StackScheme.Proofs.Reader.Rendering

/-! How reading a line fails. At the bottom of the open frames there is always a parenthesis, so an
operand always has a frame that it is given to, and nothing but the line itself is to blame: reading
fails at a token that has no place there, at the end of a line that is not finished, or at a literal
that is too long. -/
namespace StackScheme.Reader
open Fallible

namespace Frame

def IsParen : Frame → Prop
  | .opened | .form _ _ => True
  | .binding _ _ => False

def Takes : Frame → Prop
  | .form _ _ | .binding (some _) _ => True
  | .opened | .binding none _ => False

end Frame

/-- The innermost frame, if there is one, does not wait for an operator. -/
def Settled (stack : List Frame) : Prop :=
  stack.head? ≠ some .opened

/-- An operand that is given to these frames, the innermost first. -/
inductive Gives (builder : Builder) : Token → Expr → List Frame → Prop
  | form {op args rest} (stack : builder.stack = .form op args :: rest) (inner : rest ≠ []) :
      Gives builder .closeParen (.form op args.reverse) rest
  | binding {name value rest} (stack : builder.stack = .binding (some name) [value] :: rest) :
      Gives builder .closeBracket (.binding name value) rest
  | atom {text arg} (inner : builder.stack ≠ []) (settled : Settled builder.stack)
      (read : atom text = .ok arg)
      (operand : ∀ name values rest, arg = .var name → builder.stack ≠ .binding none values :: rest) :
      Gives builder (.word text) arg builder.stack

/-- A literal that is too long stands where an operand or a name is read. -/
structure Overlong (builder : Builder) (text : String) : Prop where
  inner : builder.stack ≠ []
  settled : Settled builder.stack
  integer : Token.Integer text
  tooLong : Numeral.limit < text.length

/-- What one token does to the builder. -/
inductive Effect (builder : Builder) : Token → Except Failure Builder → Prop
  | refused {token} (fault) : Effect builder token (fail fault)
  | tooLong {text} (overlong : Overlong builder text) :
      Effect builder (.word text) (.error (.numeral (.tooLongToRead text.length)))
  | opens (settled : Settled builder.stack) :
      Effect builder .openParen (.ok { builder with stack := .opened :: builder.stack })
  | operator {text rest} (stack : builder.stack = .opened :: rest) :
      Effect builder (.word text) (.ok { builder with stack := .form text [] :: rest })
  | group {rest} (stack : builder.stack = .opened :: rest) : Effect builder .openBracket
      (.ok { builder with stack := .binding none [] :: .form "" [] :: rest })
  | bracket {frame rest} (stack : builder.stack = frame :: rest) (takes : frame.Takes) :
      Effect builder .openBracket
        (.ok { builder with stack := .binding none [] :: frame :: rest })
  | named {text values rest} (stack : builder.stack = .binding none values :: rest) :
      Effect builder (.word text)
        (.ok { builder with stack := .binding (some text) values :: rest })
  | finished {op args} (stack : builder.stack = [.form op args]) :
      Effect builder .closeParen (.ok ⟨[], some ⟨op, args.reverse⟩⟩)
  | given {token arg frames} (gives : Gives builder token arg frames) :
      Effect builder token (do return { builder with stack := ← give arg frames })

theorem atom_eq_error {text : String} {failure : Failure} (failed : atom text = .error failure) :
    Token.Integer text ∧ Numeral.limit < text.length ∧
      failure = .numeral (.tooLongToRead text.length) := by
  unfold atom at failed
  split at failed
  · rename_i integer
    refine ⟨Token.isInteger_iff.mp integer, ?_⟩
    unfold Numeral.read at failed
    split at failed
    · contradiction
    · rename_i fault unread
      split at unread
      · contradiction
      · rename_i tooLong
        obtain rfl := Except.error.inj unread
        obtain rfl := Except.error.inj failed
        rw [String.length_toList] at tooLong ⊢
        exact ⟨Nat.lt_of_not_le tooLong, rfl⟩
  · split at failed
    · contradiction
    · split at failed <;> contradiction

theorem atom_var {text name : String} (read : atom text = .ok (.var name)) : name = text := by
  unfold atom at read
  split at read
  · split at read <;> cases read
  · split at read
    · cases read
    · split at read
      · cases read
      · exact (Expr.var.inj (Except.ok.inj read)).symm

section Effects
variable (builder : Builder)

theorem effect_openParen : Effect builder .openParen (openParen builder) := by
  unfold openParen
  split
  · exact .refused _
  · exact .refused _
  · rename_i settled _
    refine .opens fun first => ?_
    obtain ⟨rest, stack⟩ := List.head?_eq_some_iff.mp first
    exact settled rest stack

theorem effect_closeParen : Effect builder .closeParen (closeParen builder) := by
  unfold closeParen
  split
  · exact .refused _
  · exact .refused _
  · exact .refused _
  · rename_i op args stack
    exact .finished stack
  · rename_i op args rest inner stack
    exact .given (.form stack inner)

theorem effect_openBracket : Effect builder .openBracket (openBracket builder) := by
  unfold openBracket
  split
  · exact .refused _
  · rename_i rest stack
    exact .group stack
  · exact .refused _
  · rename_i inner settled called
    match stack : builder.stack with
    | [] => exact absurd stack inner
    | .opened :: rest => exact absurd stack (settled rest)
    | .binding none values :: rest => exact absurd stack (called values rest)
    | .form op args :: rest => exact .bracket stack trivial
    | .binding (some name) values :: rest => exact .bracket stack trivial

theorem effect_closeBracket : Effect builder .closeBracket (closeBracket builder) := by
  unfold closeBracket
  split
  · exact .refused _
  · rename_i name value rest stack
    exact .given (.binding stack)
  · exact .refused _
  · exact .refused _
  · exact .refused _

theorem effect_word (text : String) : Effect builder (.word text) (word text builder) := by
  unfold word
  split
  · exact .refused _
  · rename_i rest stack
    exact .operator stack
  · rename_i inner settled
    have settled : Settled builder.stack := by
      intro first
      obtain ⟨rest, stack⟩ := List.head?_eq_some_iff.mp first
      exact settled rest stack
    cases read : atom text with
    | error failure =>
      obtain ⟨integer, tooLong, rfl⟩ := atom_eq_error read
      simp only [addWord, read, bind, Except.bind]
      exact .tooLong ⟨inner, settled, integer, tooLong⟩
    | ok arg =>
      rw [addWord, read, bind_ok]
      split
      · rename_i name values rest stack
        obtain rfl := atom_var read
        rw [pure_bind]
        exact .named stack
      · rename_i operand
        refine .given (.atom inner settled read fun name values rest same stack => ?_)
        exact operand name values rest same stack

end Effects

theorem step_effect (builder : Builder) (token : Token) :
    Effect builder token (step builder token) := by
  cases token with
  | openParen => exact effect_openParen builder
  | closeParen => exact effect_closeParen builder
  | openBracket => exact effect_openBracket builder
  | closeBracket => exact effect_closeBracket builder
  | word text => exact effect_word builder text

/-- Every bracket stands directly in something that takes operands, and only the innermost
parenthesis may lack its operator. -/
inductive Nested : List Frame → Prop
  | nil : Nested []
  | paren {frame rest} (isParen : frame.IsParen) (settled : Settled rest) (below : Nested rest) :
      Nested (frame :: rest)
  | binding {name values frame rest} (takes : frame.Takes) (below : Nested (frame :: rest)) :
      Nested (.binding name values :: frame :: rest)

theorem Frame.Takes.settled {frame : Frame} (takes : frame.Takes) (rest : List Frame) :
    Settled (frame :: rest) := by
  intro first
  obtain rfl := Option.some.inj first
  exact takes

theorem Frame.Takes.attached {frame : Frame} (takes : frame.Takes) (arg : Expr)
    (rest : List Frame) : ∃ after, Attached arg (frame :: rest) after := by
  match frame, takes with
  | .form op args, _ => exact ⟨_, .form⟩
  | .binding (some name) values, _ => exact ⟨_, .binding⟩

/-- Where there is a frame to give an operand to, it is refused only for want of a name. -/
theorem give_eq_error {arg : Expr} {stack : List Frame} {failure : Failure} (inner : stack ≠ [])
    (settled : Settled stack) (failed : give arg stack = .error failure) :
    (∃ values rest, stack = .binding none values :: rest) ∧
      failure = .showing arg fun shown => .read (.nameExpectedGot shown) := by
  unfold give at failed
  split at failed
  · contradiction
  · contradiction
  · exact ⟨⟨_, _, rfl⟩, (Except.error.inj failed).symm⟩
  · exact absurd rfl settled
  · contradiction

namespace Nested
variable {stack : List Frame} {frame : Frame} {rest : List Frame}

theorem tail (nested : Nested (frame :: rest)) : Nested rest ∧ Settled rest := by
  cases nested with
  | paren _ settled below => exact ⟨below, settled⟩
  | binding takes below => exact ⟨below, takes.settled _⟩

theorem within {name : Option String} {values : List Expr}
    (nested : Nested (.binding name values :: stack)) :
    ∃ frame rest, stack = frame :: rest ∧ frame.Takes := by
  cases nested with
  | paren isParen _ _ => exact absurd isParen id
  | binding takes _ => exact ⟨_, _, rfl, takes⟩

/-- What a bracket holds does not matter. -/
theorem refilled {name other : Option String} {values others : List Expr}
    (nested : Nested (.binding name values :: stack)) :
    Nested (.binding other others :: stack) := by
  obtain ⟨frame, rest, rfl, takes⟩ := nested.within
  exact .binding takes nested.tail.1

/-- Around everything is a parenthesis. -/
theorem bottom (nested : Nested stack) : ∀ frame ∈ stack.getLast?, frame.IsParen := by
  induction nested with
  | nil => simp
  | @paren frame rest isParen _ _ ih =>
    cases rest with
    | nil => simpa using isParen
    | cons below rest => simpa using ih
  | binding _ _ ih => simpa using ih

theorem give {arg : Expr} {after : List Frame} (nested : Nested stack)
    (given : give arg stack = .ok after) : Nested after := by
  cases give_eq_ok_iff.mp given with
  | form => exact .paren trivial nested.tail.2 nested.tail.1
  | binding => exact nested.refilled

end Nested

variable {builder next : Builder} {token : Token} {arg : Expr} {frames : List Frame}

theorem Gives.inner (gives : Gives builder token arg frames) (nested : Nested builder.stack) :
    frames ≠ [] ∧ Settled frames := by
  cases gives with
  | form stack inner =>
    rw [stack] at nested
    exact ⟨inner, nested.tail.2⟩
  | binding stack =>
    rw [stack] at nested
    obtain ⟨frame, rest, rfl, _⟩ := nested.within
    exact ⟨List.cons_ne_nil frame rest, nested.tail.2⟩
  | atom inner settled _ _ => exact ⟨inner, settled⟩

/-- A binding is taken where its bracket has been opened. -/
theorem attached_binding {name : String} {value : Expr} {below : List Frame}
    (nested : Nested (.binding (some name) [value] :: below)) :
    ∃ after, Attached (.binding name value) below after := by
  obtain ⟨frame, rest, rfl, takes⟩ := nested.within
  exact takes.attached _ rest

theorem word_inside (inner : builder.stack ≠ []) (settled : Settled builder.stack)
    (text : String) :
    word text builder = do return { builder with stack := ← addWord text builder.stack } := by
  unfold word
  split
  · rename_i empty
    exact absurd empty inner
  · rename_i rest stack
    exact absurd (by rw [stack]; rfl) settled
  · rfl

theorem Gives.step_eq (gives : Gives builder token arg frames) :
    step builder token = do return { builder with stack := ← give arg frames } := by
  cases gives with
  | form stack inner => simp only [step, closeParen, stack]
  | binding stack => simp only [step, closeBracket, stack]
  | atom inner settled read operand =>
    rw [step, word_inside inner settled, addWord, read, bind_ok]
    split
    · rename_i name values rest stack
      exact absurd stack (operand _ _ _ rfl)
    · rfl

/-- An operand that has a frame to go to is taken by it, or refused for want of a name. -/
theorem Gives.taken_or_refused (gives : Gives builder token arg frames)
    (nested : Nested builder.stack) :
    (∃ after, Attached arg frames after ∧
      step builder token = .ok { builder with stack := after }) ∨
    ∃ values rest, frames = .binding none values :: rest ∧
      step builder token = .error (.showing arg fun shown => .read (.nameExpectedGot shown)) := by
  obtain ⟨inner, settled⟩ := gives.inner nested
  rw [gives.step_eq]
  cases given : give arg frames with
  | ok after => exact .inl ⟨after, give_eq_ok_iff.mp given, rfl⟩
  | error failure =>
    obtain ⟨⟨values, rest, unnamed⟩, rfl⟩ := give_eq_error inner settled given
    exact .inr ⟨values, rest, unnamed, rfl⟩

theorem nested_step (nested : Nested builder.stack) (stepped : step builder token = .ok next) :
    Nested next.stack := by
  have effect := step_effect builder token
  generalize step builder token = result at effect stepped
  cases effect with
  | refused fault => contradiction
  | tooLong overlong => contradiction
  | opens settled =>
    obtain rfl := Except.ok.inj stepped
    exact .paren trivial settled nested
  | operator stack =>
    obtain rfl := Except.ok.inj stepped
    rw [stack] at nested
    exact .paren trivial nested.tail.2 nested.tail.1
  | group stack =>
    obtain rfl := Except.ok.inj stepped
    rw [stack] at nested
    exact .binding trivial (.paren trivial nested.tail.2 nested.tail.1)
  | bracket stack takes =>
    obtain rfl := Except.ok.inj stepped
    rw [stack] at nested
    exact .binding takes nested
  | named stack =>
    obtain rfl := Except.ok.inj stepped
    rw [stack] at nested
    exact nested.refilled
  | finished stack =>
    obtain rfl := Except.ok.inj stepped
    exact .nil
  | given gives =>
    obtain ⟨after, given, same⟩ := bind_eq_ok.mp stepped
    obtain rfl := Except.ok.inj same
    cases gives with
    | form stack _ | binding stack =>
      rw [stack] at nested
      exact nested.tail.1.give given
    | atom _ _ _ _ => exact nested.give given

theorem nested_tokens {tokens : List Token} (nested : Nested builder.stack)
    (consumed : Consumes tokens builder next) : Nested next.stack := by
  induction tokens generalizing builder with
  | nil =>
    obtain rfl := Except.ok.inj consumed
    exact nested
  | cons token rest ih =>
    rw [Consumes, List.foldlM_cons] at consumed
    obtain ⟨middle, stepped, consumed⟩ := bind_eq_ok.mp consumed
    exact ih (nested_step nested stepped) consumed

theorem Gives.wellFormed {tokens : List Token} (gives : Gives builder token arg frames)
    (made : MadeFrom tokens builder) (plain : ∀ text, token = .word text → Token.Plain text) :
    arg.WellFormed := by
  cases made with
  | done _ _ => cases gives <;> contradiction
  | @reading opened sound _ =>
    cases gives with
    | form stack _ =>
      obtain rfl : opened = _ := stack
      exact (sound_form sound).1
    | binding stack =>
      obtain rfl : opened = _ := stack
      cases sound with
      | binding called _ | first called _ => exact .binding called.1 (called.2 _ (by simp))
    | atom _ _ read _ => exact (atom_sound (plain _ rfl) read).1

/-- A token is refused because of where it stands, or because it is a literal that is too long. -/
theorem step_eq_error {tokens : List Token} {failure : Failure} (made : MadeFrom tokens builder)
    (nested : Nested builder.stack) (plain : ∀ text, token = .word text → Token.Plain text)
    (failed : step builder token = .error failure) :
    (∃ fault, failure = .ofFault (.read fault)) ∨
      ∃ text, token = .word text ∧ Overlong builder text ∧
        failure = .numeral (.tooLongToRead text.length) := by
  have effect := step_effect builder token
  generalize step builder token = result at effect failed
  cases effect with
  | refused fault => exact .inl ⟨fault, (Except.error.inj failed).symm⟩
  | tooLong overlong => exact .inr ⟨_, rfl, overlong, (Except.error.inj failed).symm⟩
  | given gives =>
    have fits := fits_of_wellFormed (gives.wellFormed made plain)
    rw [← gives.step_eq] at failed
    rcases gives.taken_or_refused nested with ⟨_, _, taken⟩ | ⟨_, _, _, refused⟩
    · rw [taken] at failed
      contradiction
    · rw [refused, Failure.showing_eq fits] at failed
      exact .inl ⟨_, (Except.error.inj failed).symm⟩
  | _ => contradiction

theorem step_overlong {text : String} (overlong : Overlong builder text) :
    step builder (.word text) = .error (.numeral (.tooLongToRead text.length)) := by
  obtain ⟨inner, settled, integer, tooLong⟩ := overlong
  have read : atom text = .error (.numeral (.tooLongToRead text.length)) := by
    simp only [atom, Token.isInteger_iff.mpr integer, if_true, Numeral.read, String.length_toList,
      if_neg (Nat.not_le_of_lt tooLong)]
  rw [step, word_inside inner settled, addWord, read]
  rfl

theorem step_inside (nested : Nested builder.stack) (token : Token) :
    step builder token ≠ .error .pastEnd := by
  intro failed
  have effect := step_effect builder token
  generalize step builder token = result at effect failed
  cases effect with
  | given gives =>
    rw [← gives.step_eq] at failed
    rcases gives.taken_or_refused nested with ⟨_, _, taken⟩ | ⟨_, _, _, refused⟩
    · rw [taken] at failed
      contradiction
    · rw [refused, Failure.showing] at failed
      split at failed <;> cases failed
  | _ => cases failed

/-- What holds before every token and at the end of the line. -/
structure Steady (builder : Builder) : Prop where
  bottom : ∀ frame ∈ builder.stack.getLast?, frame.IsParen
  closed : builder.result ≠ none → ∀ token, ∃ fault, step builder token = fail fault
  /-- There is a frame for every operand. -/
  inner : ∀ token arg frames, Gives builder token arg frames → frames ≠ [] ∧ Settled frames
  /-- The innermost frame gets the operand, or refuses it for want of a name. -/
  given : ∀ token arg frames, Gives builder token arg frames →
    (∃ after, Attached arg frames after ∧
      step builder token = .ok { builder with stack := after }) ∨
    ∃ values rest, frames = .binding none values :: rest ∧
      step builder token = .error (.showing arg fun shown => .read (.nameExpectedGot shown))
  /-- The innermost frame gets a binding that is closed. -/
  taken : ∀ name value below, builder.stack = .binding (some name) [value] :: below →
    ∃ after, give (.binding name value) below = .ok after ∧
      Attached (.binding name value) below after ∧
      step builder .closeBracket = .ok { builder with stack := after }
  inside : ∀ token, step builder token ≠ .error .pastEnd

theorem steady {tokens : List Token} (made : MadeFrom tokens builder)
    (nested : Nested builder.stack) : Steady builder where
  bottom := nested.bottom
  closed finished token := by
    cases made with
    | reading _ _ => exact absurd rfl finished
    | done _ _ => cases token <;> exact ⟨_, rfl⟩
  inner _ _ _ gives := gives.inner nested
  given _ _ _ gives := gives.taken_or_refused nested
  taken name value below stack := by
    have closed := Gives.step_eq (.binding stack)
    rw [stack] at nested
    obtain ⟨after, attached⟩ := attached_binding nested
    have given := give_eq_ok_iff.mpr attached
    rw [given] at closed
    exact ⟨after, given, attached, closed⟩
  inside := step_inside nested

theorem foldlM_eq_error_iff {tokens : List Token} {failure : Failure} :
    tokens.foldlM step builder = .error failure ↔
      ∃ taken token rest middle, tokens = taken ++ token :: rest ∧
        Consumes taken builder middle ∧ step middle token = .error failure := by
  constructor
  · intro failed
    induction tokens generalizing builder with
    | nil => contradiction
    | cons token rest ih =>
      rw [List.foldlM_cons] at failed
      cases stepped : step builder token with
      | error reason =>
        rw [stepped] at failed
        obtain rfl := Except.error.inj failed
        exact ⟨[], token, rest, builder, rfl, .nil, stepped⟩
      | ok middle =>
        rw [stepped, bind_ok] at failed
        obtain ⟨taken, next, others, last, rfl, consumed, refused⟩ := ih failed
        exact ⟨token :: taken, next, others, last, rfl, .cons stepped consumed, refused⟩
  · rintro ⟨taken, token, rest, middle, rfl, consumed, refused⟩
    rw [List.foldlM_append, consumed, bind_ok, List.foldlM_cons, refused]
    rfl

theorem finish_eq_error {failure : Failure} (failed : finish builder = .error failure) :
    ∃ fault, failure = .ofFault (.read fault) := by
  unfold finish at failed
  split at failed
  · contradiction
  · exact ⟨_, (Except.error.inj failed).symm⟩
  · exact ⟨_, (Except.error.inj failed).symm⟩

theorem readTokens_eq_error {tokens : List Token} {failure : Failure}
    (failed : readTokens tokens = .error failure) :
    (∃ taken token rest builder, tokens = taken ++ token :: rest ∧ Consumes taken {} builder ∧
      step builder token = .error failure) ∨ ∃ fault, failure = .ofFault (.read fault) := by
  unfold readTokens at failed
  cases consumed : tokens.foldlM step {} with
  | error reason =>
    rw [consumed] at failed
    obtain rfl := Except.error.inj failed
    exact .inl (foldlM_eq_error_iff.mp consumed)
  | ok builder =>
    rw [consumed, bind_ok] at failed
    exact .inr (finish_eq_error failed)

theorem readTokens_overlong {taken rest : List Token} {text : String}
    (consumed : Consumes taken {} builder) (overlong : Overlong builder text) :
    readTokens (taken ++ .word text :: rest) =
      .error (.numeral (.tooLongToRead text.length)) := by
  have stops := foldlM_eq_error_iff.mpr
    ⟨taken, _, rest, builder, rfl, consumed, step_overlong overlong⟩
  rw [readTokens, stops]
  rfl

theorem taken_of_line {line : String} {taken rest : List Token}
    (split : Token.ofLine line = taken ++ rest) (consumed : Consumes taken {} builder) :
    MadeFrom taken builder ∧ Nested builder.stack := by
  have plain : ∀ text, .word text ∈ taken → Token.Plain text :=
    fun text member => Token.plain_of_mem (by rw [split]; exact List.mem_append_left _ member)
  have made := made_tokens (.reading .nil rfl) plain consumed
  rw [spelled, List.nil_append] at made
  exact ⟨made, nested_tokens .nil consumed⟩

theorem readLine_eq_error {line : String} {failure : Failure}
    (failed : readLine line = .error failure) :
    (∃ fault, failure = .ofFault (.read fault)) ∨
      ∃ taken text rest builder, Token.ofLine line = taken ++ .word text :: rest ∧
        Consumes taken {} builder ∧ Overlong builder text ∧
        failure = .numeral (.tooLongToRead text.length) := by
  rcases readTokens_eq_error failed with ⟨taken, token, rest, builder, split, consumed, failing⟩ |
    fault
  · obtain ⟨made, nested⟩ := taken_of_line split consumed
    have member : token ∈ Token.ofLine line := by simp [split]
    have plain : ∀ text, token = .word text → Token.Plain text :=
      fun text same => Token.plain_of_mem (same ▸ member)
    rcases step_eq_error made nested plain failing with fault | ⟨text, rfl, overlong, same⟩
    · exact .inl fault
    · exact .inr ⟨taken, text, rest, builder, split, consumed, overlong, same⟩
  · exact .inl fault

/-- While a line is read, a parenthesis is around everything that is open, every operand goes to the
innermost frame, and no token is taken behind a finished form. Reading fails because of the form of
the line, except where an operand or a name is expected and a literal stands that is too long; and
it comes to nothing only if there are no tokens. -/
theorem readLine_fails (line : String) :
    (∀ taken rest builder, Token.ofLine line = taken ++ rest → Consumes taken {} builder →
      Steady builder) ∧
    (∀ failure, readLine line = .error failure →
      (∃ fault, failure = .ofFault (.read fault)) ∨
        ∃ digits, failure = .numeral (.tooLongToRead digits)) ∧
    (∀ digits, readLine line = .error (.numeral (.tooLongToRead digits)) ↔
      ∃ taken text rest builder, Token.ofLine line = taken ++ .word text :: rest ∧
        Consumes taken {} builder ∧ Overlong builder text ∧ text.length = digits) ∧
    (readLine line = .ok none → Token.ofLine line = []) := by
  refine ⟨?_, fun failure failed => ?_, fun digits => ⟨fun failed => ?_, ?_⟩, ?_⟩
  · intro taken rest builder split consumed
    obtain ⟨made, nested⟩ := taken_of_line split consumed
    exact steady made nested
  · exact (readLine_eq_error failed).imp_right fun ⟨_, _, _, _, _, _, _, same⟩ => ⟨_, same⟩
  · rcases readLine_eq_error failed with ⟨fault, same⟩ |
      ⟨taken, text, rest, builder, split, consumed, overlong, same⟩
    · contradiction
    · cases same
      exact ⟨taken, text, rest, builder, split, consumed, overlong, rfl⟩
  · rintro ⟨taken, text, rest, builder, split, consumed, overlong, rfl⟩
    rw [readLine, split]
    exact readTokens_overlong consumed overlong
  · exact fun read => readTokens_sound (fun _ => Token.plain_of_mem) read

/-- A literal of one digit too many where a name is expected. -/
theorem readLine_fails_overlong :
    let digits := String.ofList (List.replicate 4301 '9')
    let builder : Builder := ⟨[.binding none [], .form "" []], none⟩
    Token.ofLine ("([" ++ digits) = [.openParen, .openBracket] ++ [.word digits] ∧
      Consumes [.openParen, .openBracket] {} builder ∧ Steady builder ∧
      readLine ("([" ++ digits) = .error (.numeral (.tooLongToRead 4301)) := by
  intro digits builder
  have chars : digits.toList = List.replicate 4301 '9' := String.toList_ofList
  have length : digits.length = 4301 := by
    rw [← String.length_toList, chars, List.length_replicate]
  have integer : Token.Integer digits := by
    refine .inr ⟨'9', List.replicate 4300 '9', chars, by decide, fun c member => ?_⟩
    rw [← List.replicate_succ] at member
    rw [List.eq_of_mem_replicate member]
    decide
  have plain := Token.plain_of_integer integer
  have whole : ("([" ++ digits).toList = '(' :: ([] ++ '[' :: digits.toList) := by simp
  have counted : ∀ c ∈ ("([" ++ digits).toList, c ≠ ';' := by
    intro c member
    rw [whole, List.mem_cons, List.nil_append, List.mem_cons] at member
    obtain rfl | rfl | inside := member
    · decide
    · decide
    · exact (plain.2 c inside).2.2
  have tokens : Token.ofLine ("([" ++ digits) = [.openParen, .openBracket] ++ [.word digits] := by
    have opens := Token.ofChars_bracket [] ([] ++ '[' :: digits.toList)
      (rfl : Token.isBracket '(' = true)
    rw [Token.ofChars_bracket [] digits.toList (rfl : Token.isBracket '[' = true),
      Token.ofChars_plain plain] at opens
    rw [Token.ofLine_eq_ofChars counted, whole]
    exact opens
  have consumed : Consumes [.openParen, .openBracket] {} builder := rfl
  have overlong : Overlong builder digits :=
    ⟨by simp [builder], by simp [builder, Settled], integer, by rw [length]; decide⟩
  obtain ⟨steady, _, tooLong, _⟩ := readLine_fails ("([" ++ digits)
  exact ⟨tokens, consumed, steady _ _ builder tokens consumed,
    (tooLong 4301).mpr ⟨_, digits, [], builder, tokens, consumed, overlong, length⟩⟩

end StackScheme.Reader
