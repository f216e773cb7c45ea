import StackScheme.Proofs.Reader.Grammar
import StackScheme.Proofs.Sequence

/-! The reader accepts every expression that can be written. Wherever an operand is taken, the
tokens of the expression have the effect of giving the expression itself. -/
namespace StackScheme.Reader

/-- Taking these tokens leads from the one builder to the other. -/
def Consumes (tokens : List Token) (builder after : Builder) : Prop :=
  tokens.foldlM step builder = .ok after

namespace Consumes
variable {tokens others : List Token} {token : Token} {builder middle after : Builder}

theorem nil : Consumes [] builder builder := rfl

theorem cons (stepped : step builder token = .ok middle) (rest : Consumes tokens middle after) :
    Consumes (token :: tokens) builder after := by
  rw [Consumes, List.foldlM_cons, stepped]
  exact rest

theorem single (stepped : step builder token = .ok after) : Consumes [token] builder after :=
  cons stepped nil

theorem append (first : Consumes tokens builder middle) (second : Consumes others middle after) :
    Consumes (tokens ++ others) builder after := by
  rw [Consumes, List.foldlM_append, first]
  exact second

end Consumes

/-- The innermost frame, a form or a binding that has its name, gets the operand. -/
inductive Attached (arg : Expr) : List Frame → List Frame → Prop
  | form {op args rest} : Attached arg (.form op args :: rest) (.form op (arg :: args) :: rest)
  | binding {name values rest} : Attached arg (.binding (some name) values :: rest)
      (.binding (some name) (arg :: values) :: rest)

theorem give_eq_ok_iff {arg : Expr} {stack after : List Frame} :
    give arg stack = .ok after ↔ Attached arg stack after := by
  constructor
  · intro given
    unfold give at given
    split at given
    · obtain rfl := Except.ok.inj given
      exact .form
    · obtain rfl := Except.ok.inj given
      exact .binding
    · contradiction
    · contradiction
    · contradiction
  · rintro (_ | _) <;> rfl

section Given
variable {arg : Expr} {stack after : List Frame}

theorem step_word {text : String} (read : atom text = .ok arg)
    (given : give arg stack = .ok after) :
    step ⟨stack, none⟩ (.word text) = .ok ⟨after, none⟩ := by
  cases give_eq_ok_iff.mp given with
  | form | binding =>
    cases arg <;> simp [step, word, addWord, read, give, bind, Except.bind, pure, Except.pure]

theorem step_openParen (given : give arg stack = .ok after) :
    step ⟨stack, none⟩ .openParen = .ok ⟨.opened :: stack, none⟩ := by
  cases give_eq_ok_iff.mp given with
  | form | binding => rfl

theorem step_openBracket (given : give arg stack = .ok after) :
    step ⟨stack, none⟩ .openBracket = .ok ⟨.binding none [] :: stack, none⟩ := by
  cases give_eq_ok_iff.mp given with
  | form | binding => rfl

theorem step_closeParen {op : String} {args : List Expr}
    (given : give (.form op args.reverse) stack = .ok after) :
    step ⟨.form op args :: stack, none⟩ .closeParen = .ok ⟨after, none⟩ := by
  have nonempty : stack ≠ [] := by
    rintro rfl
    contradiction
  obtain ⟨frame, rest, rfl⟩ := List.exists_cons_of_ne_nil nonempty
  simp [step, closeParen, given, bind, Except.bind, pure, Except.pure]

theorem step_closeBracket {name : String} {value : Expr}
    (given : give (.binding name value) stack = .ok after) :
    step ⟨.binding (some name) [value] :: stack, none⟩ .closeBracket = .ok ⟨after, none⟩ := by
  simp [step, closeBracket, given, bind, Except.bind, pure, Except.pure]

end Given

/-- Where the expression is taken as an operand, its tokens have the effect of giving it. -/
def Reads (expr : Expr) : Prop :=
  ∀ stack after, give expr stack = .ok after →
    Consumes expr.tokens ⟨stack, none⟩ ⟨after, none⟩

theorem reads_word {expr : Expr} {text : String} (tokens : expr.tokens = [.word text])
    (read : atom text = .ok expr) : Reads expr := by
  intro stack after given
  rw [tokens]
  exact .single (step_word read given)

theorem consumes_args {args : List Expr} (reads : ∀ arg ∈ args, Reads arg) (op : String)
    (held : List Expr) (stack : List Frame) :
    Consumes (Expr.allTokens args) ⟨.form op held :: stack, none⟩
      ⟨.form op (args.reverse ++ held) :: stack, none⟩ := by
  induction args generalizing held with
  | nil => exact .nil
  | cons arg rest ih =>
    have first := reads arg (by simp) (.form op held :: stack) _ rfl
    have others := ih (fun other member => reads other (by simp [member])) (arg :: held)
    simpa [Expr.allTokens] using first.append others

/-- What stands between the parentheses of a form. -/
theorem consumes_form {op : String} {args : List Expr} (reads : ∀ arg ∈ args, Reads arg)
    (head : op ≠ "" ∨ ∃ name value rest, args = .binding name value :: rest)
    (stack : List Frame) :
    Consumes ((if op = "" then [] else [.word op]) ++ Expr.allTokens args)
      ⟨.opened :: stack, none⟩ ⟨.form op args.reverse :: stack, none⟩ := by
  have operands := consumes_args reads op [] stack
  rw [List.append_nil] at operands
  by_cases group : op = ""
  · subst group
    obtain ⟨name, value, rest, rfl⟩ := head.resolve_left (by simp)
    -- the first bracket turns the parenthesis before it into a group
    simpa [Consumes, Expr.allTokens, Expr.tokens, step, openBracket] using operands
  · rw [if_neg group]
    exact .cons rfl operands

theorem reads_form {op : String} {args : List Expr} (reads : ∀ arg ∈ args, Reads arg)
    (head : op ≠ "" ∨ ∃ name value rest, args = .binding name value :: rest) :
    Reads (.form op args) := by
  intro stack after given
  have inside := consumes_form reads head stack
  have closes : step ⟨.form op args.reverse :: stack, none⟩ .closeParen = .ok ⟨after, none⟩ :=
    step_closeParen (by rwa [List.reverse_reverse])
  rw [Expr.tokens]
  exact .cons (step_openParen given) (inside.append (.single closes))

theorem reads_binding {name : String} {value : Expr} (named : Token.Name name)
    (reads : Reads value) : Reads (.binding name value) := by
  intro stack after given
  have called : step ⟨.binding none [] :: stack, none⟩ (.word name) =
      .ok ⟨.binding (some name) [] :: stack, none⟩ := by
    simp [step, word, addWord, atom_name named, bind, Except.bind, pure, Except.pure]
  have valued := reads (.binding (some name) [] :: stack) _ rfl
  rw [Expr.tokens]
  refine .cons (step_openBracket given) (.cons called (valued.append (.single ?_)))
  exact step_closeBracket given

theorem reads_wellFormed {expr : Expr} (wellFormed : expr.WellFormed) : Reads expr := by
  induction wellFormed with
  | int nonneg fits => exact reads_word rfl (atom_int nonneg fits)
  | bool => exact reads_word rfl (atom_bool _)
  | var named => exact reads_word rfl (atom_name named)
  | binding named _ ih => exact reads_binding named ih
  | form operator _ ih => exact reads_form ih (Or.inl operator.1)
  | group _ _ ihFirst ihOthers =>
    refine reads_form ?_ (Or.inr ⟨_, _, _, rfl⟩)
    intro arg member
    rcases List.mem_cons.mp member with rfl | inside
    · exact ihFirst
    · exact ihOthers arg inside

/-- The operands of a form that can be written can be written, and a form without operator begins
with a binding. -/
theorem wellFormed_form {op : String} {args : List Expr}
    (wellFormed : Expr.WellFormed (.form op args)) : (∀ arg ∈ args, arg.WellFormed) ∧
      (op ≠ "" ∨ ∃ name value rest, args = .binding name value :: rest) := by
  cases wellFormed with
  | form operator operands => exact ⟨operands, Or.inl operator.1⟩
  | group first others =>
    refine ⟨?_, Or.inr ⟨_, _, _, rfl⟩⟩
    intro arg member
    rcases List.mem_cons.mp member with rfl | inside
    · exact first
    · exact others arg inside

/-- The tokens of a form that can be written are read as the form. -/
theorem readTokens_tokens {form : Form} (wellFormed : form.WellFormed) :
    readTokens form.tokens = .ok (some form) := by
  obtain ⟨op, args⟩ := form
  obtain ⟨operands, head⟩ := wellFormed_form wellFormed
  have inside := consumes_form (fun arg member => reads_wellFormed (operands arg member)) head []
  have closes : step ⟨[.form op args.reverse], none⟩ .closeParen =
      .ok ⟨[], some ⟨op, args⟩⟩ := by
    simp [step, closeParen]
  have whole : Consumes (Form.tokens ⟨op, args⟩) {} ⟨[], some ⟨op, args⟩⟩ := by
    rw [Form.tokens, Form.toExpr, Expr.tokens]
    exact .cons rfl (inside.append (.single closes))
  exact Fallible.bind_eq_ok.mpr ⟨_, whole, rfl⟩

end StackScheme.Reader
