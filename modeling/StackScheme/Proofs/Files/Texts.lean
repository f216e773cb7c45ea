import StackScheme.Files
import StackScheme.Proofs.Compiler.Safety
import StackScheme.Proofs.Files.Storage

/-! Working on files is working on the texts in them. What is read from a file has other line breaks
than the text that was stored, but the same lines, and everything that is read, compiled, evaluated
or loaded is read line by line. -/
namespace StackScheme
open Stateful

theorem Directory.readText_stored {directory : Directory} {name text : String}
    (stored : directory.readBytes name = .ok text.toUTF8) :
    directory.readText name = .ok (Text.unifyNewlines text) := by
  rw [readText, read_text stored]

section
variable {directory : Directory} {name text : String}

theorem Reader.readFile_stored (stored : directory.readBytes name = .ok text.toUTF8) :
    readFile directory name = readSource text := by
  rw [readFile, Directory.readText_stored stored, Fallible.bind_ok, readSource,
    Text.lines_unifyNewlines, readSource]

theorem Evaluator.evaluateFile_stored (stored : directory.readBytes name = .ok text.toUTF8) :
    evaluateFile directory name = evaluateSource text := by
  rw [evaluateFile, Reader.readFile_stored stored, evaluateSource]

theorem Machine.loadFile_stored (stored : directory.readBytes name = .ok text.toUTF8) :
    loadFile directory name = loadListing text := by
  funext machine
  have read : Failure.lift (.ok (Text.unifyNewlines text)) machine =
      .ok (Text.unifyNewlines text) machine := rfl
  rw [loadFile, Directory.readText_stored stored, bind_ok read, loadListing,
    Text.lines_unifyNewlines, loadListing]

theorem Machine.loadAndRunFile_stored (stored : directory.readBytes name = .ok text.toUTF8)
    (steps : Nat) : loadAndRunFile steps directory name = loadAndRun steps text := by
  rw [loadAndRunFile, loadFile_stored stored, loadAndRun]

end

namespace Workshop

theorem compileFile_eq_ok_iff {source : String} {shop after : Workshop} {code : Code} :
    compileFile source shop = .ok code after ↔ ∃ program context,
      Reader.readFile shop.directory source = .ok program ∧
      Compiler.compileProgram program shop.context = .ok code context ∧
      after = { shop with context } := by
  constructor
  · intro compiled
    unfold compileFile at compiled
    split at compiled
    · contradiction
    · rename_i program read
      split at compiled
      · rename_i codes context done
        cases compiled
        exact ⟨program, context, read, done, rfl⟩
      · contradiction
  · rintro ⟨program, context, read, done, rfl⟩
    simp only [compileFile, read, done]

/-- Code that has a text is written to any file that can be opened. -/
theorem writeCode_file {output : String} {location : Location} {shop : Workshop} {code : Code}
    {text : String} (found : shop.directory.writable output = .ok location)
    (plain : shop.directory.devices.find? location = none) (encoded : encode code = .ok text) :
    writeCode output code shop =
      .ok () { shop with directory := shop.directory.store location text.toUTF8 } := by
  have opened : (shop.directory.store location "".toUTF8).writable output = .ok location :=
    Directory.writable_store found
  have again : (shop.directory.store location "".toUTF8).write output text =
      .ok (shop.directory.store location text.toUTF8) := by
    rw [Directory.write_file opened plain, Directory.store_store]
  simp only [writeCode, Directory.write_file found plain, encoded, again]

/-- A source that compiles is compiled by a new compiler into any file that can be written. -/
theorem build_stored {directory : Directory} {name text output bytecode : String}
    {location : Location} (stored : directory.readBytes name = .ok text.toUTF8)
    (compiled : Compiler.bytecode text = .ok bytecode)
    (found : directory.writable output = .ok location)
    (plain : directory.devices.find? location = none) :
    ∃ code context, encode code = .ok bytecode ∧ build name output { directory } =
      .ok code { context, directory := directory.store location bytecode.toUTF8 } := by
  obtain ⟨program, code, context, read, done, encoded⟩ :=
    Compiler.bytecode_eq_ok_iff.mp compiled
  rw [← Reader.readFile_stored stored] at read
  have first : compileFile name { directory } = .ok code { context, directory } :=
    compileFile_eq_ok_iff.mpr ⟨program, context, read, done, rfl⟩
  have second : writeCode output code { context, directory } =
      .ok () { context, directory := directory.store location bytecode.toUTF8 } :=
    writeCode_file found plain encoded
  exact ⟨code, context, encoded,
    bind_eq_ok.mpr ⟨code, _, first, bind_eq_ok.mpr ⟨(), _, second, rfl⟩⟩⟩

end Workshop

/-- A file is read, loaded and evaluated like the text that is stored in it, whatever ends its lines;
and a source that compiles can be compiled into any file that can be written, where the machine then
finds the bytecode of the source. -/
theorem files_work_as_texts {directory : Directory} {name text : String}
    (stored : directory.readBytes name = .ok text.toUTF8) :
    Reader.readFile directory name = Reader.readSource text ∧
    Machine.loadFile directory name = Machine.loadListing text ∧
    Evaluator.evaluateFile directory name = Evaluator.evaluateSource text ∧
    ∀ bytecode output location, Compiler.bytecode text = .ok bytecode →
      directory.writable output = .ok location → directory.devices.find? location = none →
      ∃ code shop, Workshop.build name output { directory } = .ok code shop ∧
        encode code = .ok bytecode ∧ ∀ steps,
          Machine.loadAndRunFile steps shop.directory output {} =
            Machine.loadAndRun steps bytecode {} := by
  refine ⟨Reader.readFile_stored stored, Machine.loadFile_stored stored,
    Evaluator.evaluateFile_stored stored, ?_⟩
  intro bytecode output location compiled found plain
  obtain ⟨code, context, encoded, built⟩ :=
    Workshop.build_stored stored compiled found plain
  refine ⟨code, _, built, encoded, fun steps => ?_⟩
  rw [Machine.loadAndRunFile_stored (Directory.readBytes_store found plain)]

/-- A source that ends its lines in five ways, two carriage returns before a newline among them, and
is compiled into its own file. -/
theorem files_work_as_texts_overwritten :
    let text := "\r\n(let ([x 2]) (println x))\r\u2028(println 7)\r\r\n\x0c(println (+ x 1))\n"
    let bytecode := "PUSH 2\nSTOR 0\nLOAD 0\nPRINT\nPUSH 7\nPRINT\nLOAD 0\nPUSH 1\nADD\nPRINT\n"
    let directory := Directory.ofFiles [("a", text.toUTF8)]
    Reader.readFile directory "a" = Reader.readSource text ∧
    Machine.loadFile directory "a" = Machine.loadListing text ∧
    Evaluator.evaluateFile directory "a" = Evaluator.evaluateSource text ∧
    ∃ code shop, Workshop.build "a" "a" { directory } = .ok code shop ∧
      encode code = .ok bytecode ∧ ∀ steps,
        Machine.loadAndRunFile steps shop.directory "a" {} =
          Machine.loadAndRun steps bytecode {} := by
  intro text bytecode directory
  have stored : directory.readBytes "a" = .ok text.toUTF8 := by
    decide +kernel
  have compiled : Compiler.bytecode text = .ok bytecode := by
    decide +kernel
  have found : directory.writable "a" = .ok ["a", "", "tmp"] := by
    decide +kernel
  have plain : directory.devices.find? ["a", "", "tmp"] = none := by
    decide +kernel
  obtain ⟨read, loaded, evaluated, built⟩ := files_work_as_texts stored
  exact ⟨read, loaded, evaluated, built bytecode "a" _ compiled found plain⟩

end StackScheme
