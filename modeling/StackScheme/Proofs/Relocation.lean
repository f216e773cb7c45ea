import StackScheme.Compiler
import StackScheme.Evaluator
import StackScheme.Proofs.Reader.Rendering

/-! The lines that forms stand on show in nothing but the lines of failures: the same forms on other
lines compile and evaluate alike. So a source and the text that its forms are rendered as, one to a
line, have the same meaning. -/
namespace StackScheme
open Stateful

namespace Failure
variable {σ α β : Type}

/-- The failure without the line that it belongs to. -/
def unplaced : Failure → Failure
  | .program fault => .program { fault with line := none }
  | failure => failure

@[simp] theorem unplaced_withLine (line : Int) (failure : Failure) :
    (failure.withLine line).unplaced = failure.unplaced := by
  cases failure <;> rfl

/-- The result, with nothing said about the line of a failure. -/
def unplacedResult : EStateM.Result Failure σ α → EStateM.Result Failure σ α
  | .ok value state => .ok value state
  | .error failure state => .error failure.unplaced state

/-- The two actions do the same, up to the lines of their failures. -/
def Alike (action other : EStateM Failure σ α) : Prop :=
  ∀ state, unplacedResult (action state) = unplacedResult (other state)

namespace Alike

theorem refl (action : EStateM Failure σ α) : Alike action action :=
  fun _ => rfl

theorem bind {action other : EStateM Failure σ α} {next following : α → EStateM Failure σ β}
    (first : Alike action other) (second : ∀ value, Alike (next value) (following value)) :
    Alike (action >>= next) (other >>= following) := by
  intro state
  have begun := first state
  rw [bind_apply, bind_apply]
  cases result : action state with
  | ok value middle =>
    cases result' : other state with
    | ok value' middle' =>
      simp only [result, result', unplacedResult, EStateM.Result.ok.injEq] at begun
      obtain ⟨rfl, rfl⟩ := begun
      exact second value middle
    | error failure' middle' => simp [result, result', unplacedResult] at begun
  | error failure middle =>
    cases result' : other state with
    | ok value' middle' => simp [result, result', unplacedResult] at begun
    | error failure' middle' =>
      simp only [result, result', unplacedResult, EStateM.Result.error.injEq] at begun
      simp only [unplacedResult, begun]

theorem onLine (line other : Nat) (action : EStateM Failure σ α) :
    Alike (onLine line action) (onLine other action) := by
  intro state
  simp only [Failure.onLine]
  cases action state with
  | ok value after => rfl
  | error failure after => simp [unplacedResult]

end Alike
end Failure

open Failure

theorem compileProgram_alike {program other : Program} (same : program.forms = other.forms) :
    Alike (Compiler.compileProgram program) (Compiler.compileProgram other) := by
  induction program generalizing other with
  | nil =>
    obtain rfl : other = [] := List.map_eq_nil_iff.mp same.symm
    exact .refl _
  | cons numbered rest ih =>
    obtain ⟨numbered', rest', rfl, head, tail⟩ := List.map_eq_cons_iff.mp same.symm
    obtain ⟨line, form⟩ := numbered
    obtain ⟨line', form'⟩ := numbered'
    obtain rfl : form' = form := head
    exact .bind (.onLine line line' _) fun _ => .bind (ih tail.symm) fun _ => .refl _

theorem evaluateProgram_alike {program other : Program} (same : program.forms = other.forms) :
    Alike (Evaluator.evaluateProgram program) (Evaluator.evaluateProgram other) := by
  induction program generalizing other with
  | nil =>
    obtain rfl : other = [] := List.map_eq_nil_iff.mp same.symm
    exact .refl _
  | cons numbered rest ih =>
    obtain ⟨numbered', rest', rfl, head, tail⟩ := List.map_eq_cons_iff.mp same.symm
    obtain ⟨line, form⟩ := numbered
    obtain ⟨line', form'⟩ := numbered'
    obtain rfl : form' = form := head
    exact .bind (.onLine line line' _) fun _ => ih tail.symm

section Sources
variable {source again : String} {program other : Program}

/-- Sources with the same forms have the same bytecode, or fail alike. -/
theorem bytecode_alike (read : Reader.readSource source = .ok program)
    (readAgain : Reader.readSource again = .ok other) (same : program.forms = other.forms) :
    (Compiler.bytecode source).mapError unplaced = (Compiler.bytecode again).mapError unplaced := by
  have compiled := compileProgram_alike same {}
  rw [← Compiler.compileSource_read read, ← Compiler.compileSource_read readAgain] at compiled
  unfold Compiler.bytecode
  cases result : Compiler.compileSource source {} with
  | ok code context =>
    cases result' : Compiler.compileSource again {} with
    | ok code' context' =>
      simp only [result, result', unplacedResult, EStateM.Result.ok.injEq] at compiled
      simp only [compiled.1]
    | error failure' context' => simp [result, result', unplacedResult] at compiled
  | error failure context =>
    cases result' : Compiler.compileSource again {} with
    | ok code' context' => simp [result, result', unplacedResult] at compiled
    | error failure' context' =>
      simp only [result, result', unplacedResult, EStateM.Result.error.injEq] at compiled
      simp only [Except.mapError, compiled.1]

end Sources

/-- Rendering and reading are inverse. Every form that can be written is read back from its text,
and rows of such forms are read back from their lines. Whatever source the forms come from, their
text is read as the same forms, and it compiles and evaluates like the source, up to the lines of
failures. -/
theorem read_undoes_render :
    (∀ form : Form, form.WellFormed →
      form.toExpr.write = .ok form.text ∧ Reader.readLine form.text = .ok (some form)) ∧
    (∀ forms : List Form, (∀ form ∈ forms, form.WellFormed) →
      Reader.readSource (Program.render forms) = .ok (Program.numbered 1 forms)) ∧
    ∀ source program, Reader.readSource source = .ok program →
      Reader.readSource (Program.render program.forms) =
        .ok (Program.numbered 1 program.forms) ∧
      (Compiler.bytecode (Program.render program.forms)).mapError unplaced =
        (Compiler.bytecode source).mapError unplaced ∧
      unplacedResult (Evaluator.evaluateSource (Program.render program.forms) {}) =
        unplacedResult (Evaluator.evaluateSource source {}) := by
  refine ⟨fun form wellFormed => ⟨?_, Reader.readLine_text wellFormed⟩,
    fun forms => Reader.readSource_render, fun source program read => ?_⟩
  · exact if_pos (Reader.fits_of_wellFormed wellFormed)
  · have rendered := Reader.readSource_render (Reader.wellFormed_of_readSource read)
    have same := Program.forms_numbered 1 program.forms
    refine ⟨rendered, bytecode_alike rendered read same, ?_⟩
    rw [Evaluator.evaluateSource_read rendered, Evaluator.evaluateSource_read read]
    exact evaluateProgram_alike same {}

/-- Numbers that are names, a group in the place of an operand, and forms on lines that are neither
successive nor ended alike. The second form does not compile. -/
theorem read_undoes_render_scattered :
    let source := "\n(let ([007 3]) (println 007)) ; (\x0B\r\n  (foo([-3 [b #t]])007)"
    ∃ program, Reader.readSource source = .ok program ∧
      Program.render program.forms = "(let ([007 3]) (println 007))\n(foo ([-3 [b #t]]) 007)" ∧
      (∀ form ∈ program.forms,
        form.toExpr.write = .ok form.text ∧ Reader.readLine form.text = .ok (some form)) ∧
      Reader.readSource (Program.render program.forms) = .ok (Program.numbered 1 program.forms) ∧
      (Compiler.bytecode (Program.render program.forms)).mapError unplaced =
        (Compiler.bytecode source).mapError unplaced ∧
      unplacedResult (Evaluator.evaluateSource (Program.render program.forms) {}) =
        unplacedResult (Evaluator.evaluateSource source {}) := by
  intro source
  have rendered : (Reader.readSource source).map (fun program => Program.render program.forms) =
      .ok "(let ([007 3]) (println 007))\n(foo ([-3 [b #t]]) 007)" := by
    decide +kernel
  cases read : Reader.readSource source with
  | error failure => simp [read, Except.map] at rendered
  | ok program =>
    have wellFormed := Reader.wellFormed_of_readSource read
    refine ⟨program, rfl, ?_, fun form member => read_undoes_render.1 form (wellFormed form member),
      read_undoes_render.2.1 program.forms wellFormed,
      (read_undoes_render.2.2 source program read).2⟩
    rw [read] at rendered
    exact Except.ok.inj rendered

end StackScheme
