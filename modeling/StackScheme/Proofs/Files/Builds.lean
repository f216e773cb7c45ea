import StackScheme.Proofs.Compiler.Allocation
import StackScheme.Proofs.Compiler.Reuse
import StackScheme.Proofs.Files.Texts
import StackScheme.Proofs.Reader.Soundness

/-! A build that fails leaves all files as they are. The output is emptied before the code is
written to it, so this rests on the fact that code which has been compiled can be written: its
literals have been read, and its registers are counted from zero on, whatever the context has been
used for before. -/
namespace StackScheme

theorem Reader.fits_of_readFile {directory : Directory} {name : String} {program : Program}
    (read : readFile directory name = .ok program) :
    ∀ n ∈ Expr.allIntegers program.exprs, Numeral.Fits n := by
  obtain ⟨text, _, read⟩ := Fallible.bind_eq_ok.mp read
  exact fits_of_readSource read

namespace Context

theorem Keeps.size_le {context later : Context} (keeps : context.Keeps later)
    (dense : context.Dense) : context.registers.size ≤ later.registers.size := by
  have subset : context.registers.keys ⊆ later.registers.keys := by
    intro name member
    obtain ⟨register, found⟩ := Table.mem_keys_iff.mp member
    exact Table.mem_keys_iff.mpr ⟨register, keeps name register found⟩
  have shorter := (List.subperm_of_subset dense.distinct subset).length_le
  simpa [Table.keys, Table.size] using shorter

theorem Dense.fits_of_size {context : Context} (dense : context.Dense)
    (few : context.registers.size < Numeral.ceiling) {n : Int} (held : context.Holds n) :
    Numeral.Fits n := by
  refine dense.fits (fun _ member => member) ?_ held
  rw [dense.distinct.dedup]
  simpa [Table.keys, Table.size] using few

end Context

namespace Workshop
open Stateful Compiler Context

theorem compileFile_history (source : String) (shop : Workshop) :
    (final (compileFile source shop)).directory = shop.directory ∧
      ∃ grants, Record.History shop.context grants (final (compileFile source shop)).context := by
  unfold compileFile
  split
  · exact ⟨rfl, [], .none⟩
  · rename_i program read
    have recorded : Record.Records (fun _ => True) (compileForms program)
        (compileProgram program) := Record.compileForms_recorded trivial program
    obtain ⟨grants, trail, _⟩ := recorded shop.context
    split
    · rename_i compiled
      rw [compiled] at trail
      exact ⟨rfl, grants, trail⟩
    · rename_i failed
      rw [failed] at trail
      exact ⟨rfl, grants, trail⟩

/-- Code that has a text is written, or nothing is. A device may refuse the text when it has been
opened, but has nothing to lose. -/
theorem writeCode_outcome (output : String) (shop : Workshop) {code : Code} {text : String}
    (encoded : encode code = .ok text) :
    match writeCode output code shop with
    | .ok () after => shop.directory.Saves output text after.directory
    | .error _ after => after.directory = shop.directory := by
  cases found : shop.directory.writable output with
  | error cause =>
    have refused : shop.directory.write output "" = .error ⟨cause, output⟩ := by
      rw [Directory.write, found]
      rfl
    simp only [writeCode, refused]
  | ok location =>
    cases known : shop.directory.devices.find? location with
    | none =>
      rw [writeCode_file found known encoded]
      exact Directory.saves_store found known text
    | some device =>
      unfold writeCode
      cases opened : shop.directory.write output "" with
      | error fault => rfl
      | ok emptied =>
        obtain rfl := Directory.write_device found known opened
        simp only [encoded]
        cases written : shop.directory.write output text with
        | error fault => rfl
        | ok directory =>
          obtain rfl := Directory.write_device found known written
          exact Directory.saves_device found known text

namespace Run
variable {run : Run}

/-- What becomes of the context is decided when the source has been compiled. -/
theorem after_context (run : Run) :
    run.after.context = (final (compileFile run.source run.before)).context := by
  unfold after result build
  rw [bind_apply]
  cases compileFile run.source run.before with
  | error failure middle => rfl
  | ok code middle =>
    have kept := writeCode_context run.output code middle
    dsimp only
    rw [bind_apply]
    cases written : writeCode run.output code middle with
    | ok done last | error failure last =>
      rw [written] at kept
      exact kept

theorem history (run : Run) :
    ∃ grants, Record.History run.before.context grants run.after.context := by
  rw [after_context]
  exact (compileFile_history run.source run.before).2

theorem encodes (dense : run.before.context.Dense)
    (few : run.after.context.registers.size < Numeral.ceiling) {code : Code} {middle : Workshop}
    (compiled : compileFile run.source run.before = .ok code middle) :
    ∃ text, encode code = .ok text ∧
      ∀ machine, ∃ loaded, Machine.loadListing text machine = .ok () loaded := by
  rw [after_context, compiled] at few
  obtain ⟨program, context, read, done, rfl⟩ := compileFile_eq_ok_iff.mp compiled
  have emitted := compileProgram_emits done
  have fits := emitted.fits (Reader.fits_of_readFile read) fun _ =>
    (emitted.dense dense).fits_of_size few
  have encoded := Code.encode_eq_ok_iff.mpr ⟨fits, rfl⟩
  exact ⟨_, encoded, fun machine => ⟨_, Machine.loadListing_encode emitted.readable encoded _⟩⟩

theorem outcome (dense : run.before.context.Dense)
    (few : run.after.context.registers.size < Numeral.ceiling) :
    match run.result with
    | .ok code last => ∃ text, encode code = .ok text ∧
        (∀ machine, ∃ loaded, Machine.loadListing text machine = .ok () loaded) ∧
        run.before.directory.Saves run.output text last.directory
    | .error _ last => last.directory = run.before.directory := by
  have unharmed := (compileFile_history run.source run.before).1
  unfold result build
  rw [bind_apply]
  cases compiled : compileFile run.source run.before with
  | error failure middle =>
    rw [compiled] at unharmed
    exact unharmed
  | ok code middle =>
    -- the output may be the source, which has been read by now
    have same : middle.directory = run.before.directory := by
      rw [compiled] at unharmed
      exact unharmed
    obtain ⟨text, encoded, loads⟩ := encodes dense few compiled
    have ended := writeCode_outcome run.output middle encoded
    rw [same] at ended
    dsimp only
    rw [bind_apply]
    cases written : writeCode run.output code middle with
    | ok done last =>
      rw [written] at ended
      exact ⟨text, encoded, loads, ended⟩
    | error failure last =>
      rw [written] at ended
      exact ended

/-- The run changes its output alone, and only if it succeeds. -/
structure Atomic (run : Run) : Prop where
  /-- Code has its text before the output is emptied, whether that can be opened or not. -/
  encodes : ∀ code middle, compileFile run.source run.before = .ok code middle →
    ∃ text, encode code = .ok text
  failed : run.code? = none → run.after.directory = run.before.directory
  done : ∀ code ∈ run.code?, ∃ text, encode code = .ok text ∧
    (∀ machine, ∃ loaded, Machine.loadListing text machine = .ok () loaded) ∧
    run.before.directory.Saves run.output text run.after.directory

theorem atomic (dense : run.before.context.Dense)
    (few : run.after.context.registers.size < Numeral.ceiling) : run.Atomic := by
  have ended := outcome dense few
  refine ⟨fun code middle compiled => ?_, fun failed => ?_, fun code returned => ?_⟩
  · obtain ⟨text, encoded, _⟩ := encodes dense few compiled
    exact ⟨text, encoded⟩
  · rw [after]
    cases result : run.result with
    | ok code last => simp [code?, result, value?] at failed
    | error failure last =>
      rw [result] at ended
      exact ended
  · obtain ⟨last, result⟩ := value?_eq_some_iff.mp returned
    rw [result] at ended
    rw [after, result]
    exact ended

end Run

def lastShop : List (String × String) → Workshop → Workshop
  | [], shop => shop
  | (source, output) :: rest, shop => lastShop rest (Run.after ⟨source, output, shop⟩)

theorem size_le_lastShop {shop : Workshop} (dense : shop.context.Dense)
    (tasks : List (String × String)) :
    shop.context.registers.size ≤ (lastShop tasks shop).context.registers.size := by
  induction tasks generalizing shop with
  | nil => exact Nat.le_refl _
  | cons task rest ih =>
    obtain ⟨grants, history⟩ := Run.history ⟨task.1, task.2, shop⟩
    exact (history.keeps.size_le dense).trans (ih (history.dense_after dense))

theorem runs_dense {tasks : List (String × String)} {shop : Workshop}
    (dense : shop.context.Dense) {run : Run} (member : run ∈ runs tasks shop) :
    run.before.context.Dense ∧
      run.after.context.registers.size ≤ (lastShop tasks shop).context.registers.size := by
  induction tasks generalizing shop with
  | nil => contradiction
  | cons task rest ih =>
    obtain ⟨grants, history⟩ := Run.history ⟨task.1, task.2, shop⟩
    have later := history.dense_after dense
    rcases List.mem_cons.mp member with rfl | member
    · exact ⟨dense, size_le_lastShop later rest⟩
    · exact ih later member

/-- On a new compiler that in the end has fewer registers than there are numbers which may be
written, a run that fails leaves all files as they were; and a run that succeeds leaves the text of
the code in its output, whatever has been there, and everything else as it was. -/
theorem builds_atomic {tasks : List (String × String)} {directory : Directory}
    (few : (lastShop tasks { directory }).context.registers.size < Numeral.ceiling) :
    ∀ run ∈ runs tasks { directory }, run.Atomic := by
  intro run member
  have start : ({ directory } : Workshop).context.Dense := dense_empty
  obtain ⟨dense, size⟩ := runs_dense start member
  exact Run.atomic dense (Nat.lt_of_le_of_lt size few)

/-- Six runs fail, each in another way, the last one because a source has been overwritten by its
own code. -/
theorem builds_atomic_overwritten :
    let directory : Directory := .ofFiles [("a", "(let ([x 1]) (println x))".toUTF8),
      ("b", ⟨#[0xff]⟩), ("c", "(println".toUTF8), ("d", "(let ([y 2]) z)".toUTF8)]
    let tasks := [("o", "a"), ("b", "a"), ("c", "a"), ("d", "a"), ("a", "/tmp"), ("a", "o"),
      ("a", "a"), ("a", "o")]
    (runs tasks { directory }).map Run.code? = [none, none, none, none, none,
      some [.push 1, .store 1, .load 1, .print], some [.push 1, .store 1, .load 1, .print], none] ∧
    ∀ run ∈ runs tasks { directory }, run.Atomic := by
  intro directory tasks
  have size : (lastShop tasks { directory }).context.registers.size = 2 := by
    decide +kernel
  have few : (lastShop tasks { directory }).context.registers.size < Numeral.ceiling := by
    rw [size]
    exact Numeral.fits_natCast.mp (Numeral.fits_small (by decide : 2 < 10))
  exact ⟨by decide +kernel, builds_atomic few⟩

end Workshop
end StackScheme
