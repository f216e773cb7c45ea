import StackScheme.Proofs.Machine.Pieces
import StackScheme.Proofs.Placement

/-! Texts one behind the other. If the lines of the first are all ended, doing the work on both at
once is doing it on the first and then on the second, lines and failures of which are further down
by the number of lines of the first. This holds for each of the stages, and also of what a stage
leaves behind when it fails. -/
namespace StackScheme
open Stateful

/-- The program of a text as part of that of a longer one, in which so many lines stand above it. -/
def Program.below (lines : Nat) (program : Program) : Program :=
  program.map fun numbered => { numbered with line := numbered.line + lines }

namespace Reader

theorem readLines_append (number : Nat) (above rest : List String) :
    readLines number (above ++ rest) = do
      let first ← readLines number above
      let second ← readLines (number + above.length) rest
      return first ++ second := by
  induction above generalizing number with
  | nil =>
    change readLines number rest = readLines number rest >>= pure
    rw [bind_pure]
  | cons line above ih =>
    have shifted : number + (line :: above).length = number + 1 + above.length :=
      Nat.add_right_comm number above.length 1
    rw [List.cons_append, readLines, readLines, shifted]
    cases readLine line with
    | error failure => rfl
    | ok found =>
      cases found with
      | none => exact ih (number + 1)
      | some form =>
        dsimp only
        rw [ih]
        simp only [bind_assoc, pure_bind, List.cons_append]

theorem readLines_below (lines number : Nat) (texts : List String) :
    readLines (number + lines) texts = do
      let program ← (readLines number texts).mapError (Failure.below lines)
      return program.below lines := by
  induction texts generalizing number with
  | nil => rfl
  | cons line rest ih =>
    have following := ih (number + 1)
    rw [Nat.add_right_comm] at following
    rw [readLines, readLines]
    cases result : readLine line with
    | error failure =>
      dsimp only
      rw [← (readLine_lineless result).below_withLine]
      rfl
    | ok found =>
      cases found with
      | none => exact following
      | some form =>
        dsimp only
        rw [following]
        cases readLines (number + 1) rest <;> rfl

end Reader

namespace Machine

theorem loadLines_append (number : Nat) (above rest : List String) :
    loadLines number (above ++ rest) =
      (do
        loadLines number above
        loadLines (number + above.length) rest) := by
  induction above generalizing number with
  | nil => rfl
  | cons line above ih =>
    have shifted : number + (line :: above).length = number + 1 + above.length :=
      Nat.add_right_comm number above.length 1
    rw [List.cons_append, loadLines, loadLines, shifted, ih, bind_assoc]

theorem loadLines_below (lines number : Nat) (texts : List String) :
    loadLines (number + lines) texts =
      (loadLines number texts).adaptExcept (Failure.below lines) := by
  induction texts generalizing number with
  | nil => rfl
  | cons line rest ih =>
    rw [loadLines, loadLines, adaptExcept_bind, (loadLine_lineless line).below_onLine,
      Nat.add_right_comm, ih]

/-- Lines that cannot all be read have a first one that cannot. -/
theorem exists_unreadable {lines : List String} (unreadable : ¬Readable lines) :
    ∃ before line rest cause, lines = before ++ line :: rest ∧ Readable before ∧
      Instr.decode line = .error cause := by
  induction lines with
  | nil => exact (unreadable (List.forall_mem_nil _)).elim
  | cons line rest ih =>
    cases decoded : Instr.decode line with
    | error cause => exact ⟨[], line, rest, cause, rfl, List.forall_mem_nil _, decoded⟩
    | ok found =>
      have later : ¬Readable rest :=
        fun all => unreadable (List.forall_mem_cons.mpr ⟨⟨found, decoded⟩, all⟩)
      obtain ⟨before, bad, others, cause, rfl, readable, refused⟩ := ih later
      exact ⟨line :: before, bad, others, cause, rfl,
        List.forall_mem_cons.mpr ⟨⟨found, decoded⟩, readable⟩, refused⟩

/-- Loading the text stops at its first bad line. What stands on the lines before has been put into
the machine, and nothing else has been changed. -/
def StopsAt (text : String) (machine : Machine) (failure : Failure) (after : Machine) : Prop :=
  ∃ before line rest cause, Text.lines text = before ++ line :: rest ∧ Readable before ∧
    Instr.decode line = .error cause ∧ failure = cause.withLine (before.length + 1 : Nat) ∧
    after = machine.install (Code.ofLines before)

theorem StopsAt.loadListing {text : String} {machine after : Machine} {failure : Failure}
    (stops : StopsAt text machine failure after) :
    loadListing text machine = .error failure after := by
  obtain ⟨before, line, rest, cause, split, readable, refused, rfl, rfl⟩ := stops
  have installed : loadLines 1 before machine = .ok () (machine.install (Code.ofLines before)) :=
    loadLines_eq_ok_iff.mpr ⟨readable, rfl⟩
  rw [Machine.loadListing, split, loadLines_append, bind_ok installed, loadLines]
  refine bind_error ?_
  rw [Nat.add_comm, Failure.onLine, loadLine, refused]

theorem loadListing_eq_error_iff {text : String} {machine after : Machine} {failure : Failure} :
    loadListing text machine = .error failure after ↔ StopsAt text machine failure after := by
  refine ⟨fun failed => ?_, StopsAt.loadListing⟩
  have unreadable : ¬Readable (Text.lines text) := by
    intro readable
    rw [loadListing_eq_ok_iff.mpr ⟨readable, rfl⟩] at failed
    contradiction
  obtain ⟨before, line, rest, cause, split, readable, refused⟩ := exists_unreadable unreadable
  have stops : StopsAt text machine (cause.withLine (before.length + 1 : Nat))
      (machine.install (Code.ofLines before)) :=
    ⟨before, line, rest, cause, split, readable, refused, rfl, rfl⟩
  obtain ⟨rfl, rfl⟩ := EStateM.Result.error.inj (failed.symm.trans stops.loadListing)
  exact stops

end Machine

namespace Compiler

theorem compileForms_append {σ : Type} [Supply σ] (above rest : Program) :
    (compileForms (above ++ rest) : EStateM Failure σ Code) = do
      let first ← compileForms above
      let second ← compileForms rest
      return first ++ second := by
  induction above with
  | nil => simp [compileForms]
  | cons numbered above ih =>
    rw [List.cons_append, compileForms, compileForms, ih]
    simp only [bind_assoc, pure_bind, List.append_assoc]

theorem compileForms_below (lines : Nat) (program : Program) :
    (compileForms (program.below lines) : CompileM Code) =
      (compileForms program).adaptExcept (Failure.below lines) := by
  induction program with
  | nil => rfl
  | cons numbered rest ih =>
    rw [compileForms, adaptExcept_bind, (compile_lineless _).below_onLine]
    simp only [adaptExcept_bind, ← ih]
    rfl

end Compiler

namespace Evaluator

theorem evaluateProgram_append (above rest : Program) :
    evaluateProgram (above ++ rest) =
      (do
        evaluateProgram above
        evaluateProgram rest) := by
  induction above with
  | nil => rfl
  | cons numbered above ih =>
    rw [List.cons_append, evaluateProgram, evaluateProgram, ih]
    simp only [bind_assoc]

theorem evaluateProgram_below (lines : Nat) (program : Program) :
    evaluateProgram (program.below lines) =
      (evaluateProgram program).adaptExcept (Failure.below lines) := by
  induction program with
  | nil => rfl
  | cons numbered rest ih =>
    rw [evaluateProgram, adaptExcept_bind, (evaluate_lineless _).below_onLine]
    simp only [← ih]
    rfl

end Evaluator

section Sources
variable {first second : String} {above rest : Program}

theorem Reader.readSource_append (ended : Text.Ended first) (second : String) :
    readSource (first ++ second) = do
      let above ← readSource first
      let rest ← (readSource second).mapError (Failure.below (Text.lines first).length)
      return above ++ rest.below (Text.lines first).length := by
  simp only [readSource, Text.lines_append ended, readLines_append, readLines_below, bind_assoc,
    pure_bind]

variable (ended : Text.Ended first) (read : Reader.readSource first = .ok above)
  (readBehind : Reader.readSource second = .ok rest)
include ended read readBehind

theorem Reader.readSource_both :
    readSource (first ++ second) = .ok (above ++ rest.below (Text.lines first).length) := by
  rw [readSource_append ended, read, readBehind]
  rfl

theorem Compiler.compileSource_append :
    compileSource (first ++ second) = do
      let code ← compileSource first
      let further ← (compileSource second).adaptExcept (Failure.below (Text.lines first).length)
      return code ++ further := by
  rw [compileSource_read (Reader.readSource_both ended read readBehind), compileSource_read read,
    compileSource_read readBehind]
  simp only [compileProgram, compileForms_append, compileForms_below]

theorem Evaluator.evaluateSource_append :
    evaluateSource (first ++ second) =
      (do
        evaluateSource first
        (evaluateSource second).adaptExcept (Failure.below (Text.lines first).length)) := by
  rw [evaluateSource_read (Reader.readSource_both ended read readBehind),
    evaluateSource_read read, evaluateSource_read readBehind, evaluateProgram_append,
    evaluateProgram_below]

end Sources

/-- What each stage does with the two texts at once, it does with one after the other. The faults of
the second one are then met as many lines further down as the first one has lines. -/
structure Joins (first second : String) : Prop where
  /-- The forms of the second text come behind those of the first. -/
  reads : Reader.readSource (first ++ second) = do
    let above ← Reader.readSource first
    let rest ← (Reader.readSource second).mapError (Failure.below (Text.lines first).length)
    return above ++ rest.below (Text.lines first).length
  /-- Whatever machine the listings are loaded into, it is left in the same state. -/
  loads : Machine.loadListing (first ++ second) = do
    Machine.loadListing first
    (Machine.loadListing second).adaptExcept (Failure.below (Text.lines first).length)
  /-- After a failure this is the state at the first bad line. -/
  stops : ∀ machine failure after,
    Machine.loadListing (first ++ second) machine = .error failure after ↔
      Machine.StopsAt (first ++ second) machine failure after
  /-- Both are compiled in one context, and the code of the second comes behind. -/
  compiles : ∀ {above rest}, Reader.readSource first = .ok above →
    Reader.readSource second = .ok rest →
    Compiler.compileSource (first ++ second) = do
      let code ← Compiler.compileSource first
      let further ←
        (Compiler.compileSource second).adaptExcept (Failure.below (Text.lines first).length)
      return code ++ further
  /-- Both are evaluated with one environment and one output. -/
  evaluates : ∀ {above rest}, Reader.readSource first = .ok above →
    Reader.readSource second = .ok rest →
    Evaluator.evaluateSource (first ++ second) = do
      Evaluator.evaluateSource first
      (Evaluator.evaluateSource second).adaptExcept (Failure.below (Text.lines first).length)

/-- Texts can be cut behind any newline: reading, loading, compiling and evaluating go on behind it
as they would have gone on anyway, failures and their lines included. -/
theorem processed_in_parts {first : String} (ended : Text.Ended first) (second : String) :
    Joins first second where
  reads := Reader.readSource_append ended second
  loads := by
    rw [Machine.loadListing, Text.lines_append ended, Machine.loadLines_append,
      Machine.loadLines_below]
    rfl
  stops _ _ _ := Machine.loadListing_eq_error_iff
  compiles read readBehind := Compiler.compileSource_append ended read readBehind
  evaluates read readBehind := Evaluator.evaluateSource_append ended read readBehind

/-- The first text has breaks of three kinds and a blank line; the second uses a name that the first
has bound, and then one that nothing has bound. -/
theorem processed_in_parts_unbound :
    let first := "(let ([x 2]) x)\r\n; note\u2028\n"
    let second := "(println x)\n\x0B(println (+ x y))"
    let unbound := FormFault.undefinedVariable "y"
    Text.Ended first ∧ Joins first second ∧ (Text.lines first).length = 3 ∧
      (∃ above, Reader.readSource first = .ok above) ∧
      (∃ rest, Reader.readSource second = .ok rest) ∧
      failure? (Compiler.compileSource (first ++ second) {}) =
        some (.program ⟨.compile unbound, some 6⟩) ∧
      failure? (Evaluator.evaluateSource (first ++ second) {}) =
        some (.program ⟨.evaluate unbound, some 6⟩) ∧
      (final (Evaluator.evaluateSource (first ++ second) {})).output = "2\n" ∧
      failure? (Machine.loadListing (first ++ second) {}) =
        some (.program ⟨.machine (.undecodable "(let ([x 2]) x)"), some 1⟩) := by
  intro first second unbound
  have ended : Text.Ended first := by decide
  have joins := processed_in_parts ended second
  have parsed : (Reader.readSource first).isOk = true ∧ (Reader.readSource second).isOk = true := by
    decide +kernel
  cases read : Reader.readSource first with
  | error failure => simp [read, Except.isOk, Except.toBool] at parsed
  | ok above =>
    cases readBehind : Reader.readSource second with
    | error failure => simp [readBehind, Except.isOk, Except.toBool] at parsed
    | ok rest =>
      refine ⟨ended, joins, by decide +kernel, ⟨above, rfl⟩, ⟨rest, rfl⟩, ?_, ?_, ?_, ?_⟩
      · rw [joins.compiles read readBehind]
        decide +kernel
      · rw [joins.evaluates read readBehind]
        decide +kernel
      · rw [joins.evaluates read readBehind]
        decide +kernel
      · rw [joins.loads]
        decide +kernel

end StackScheme
