import StackScheme.Proofs.Compiler.Safety
import StackScheme.Proofs.Machine.Listing
import StackScheme.Proofs.Machine.Site

/-! Executing in pieces is executing at once. A run stops only where the loaded code ends, so it
makes no difference to it whether more code is already there, as long as that gives none of its
labels another place. What follows is the run of the code behind it. -/
namespace StackScheme

/-- The instructions and labels on the lines that can be read. -/
def Code.ofLines (lines : List String) : Code :=
  lines.filterMap fun line =>
    match Instr.decode line with
    | .ok found => found
    | .error _ => none

theorem Code.ofLines_append (first second : List String) :
    ofLines (first ++ second) = ofLines first ++ ofLines second :=
  List.filterMap_append

theorem Code.ofLines_encode {code : Code} {text : String}
    (readable : ∀ instr ∈ code, instr.Readable) (encoded : encode code = .ok text) :
    ofLines (Text.lines text) = code := by
  have fits := (encode_eq_ok_iff.mp encoded).1
  rw [lines_encode readable encoded, ofLines, List.filterMap_map]
  refine (List.filterMap_congr fun instr member => ?_).trans List.filterMap_some
  simp only [Function.comp_apply, Instr.decode_text ⟨readable instr member, fits instr member⟩]

theorem Code.encode_ended {code : Code} {text : String} (encoded : encode code = .ok text) :
    Text.Ended text := by
  rw [(encode_eq_ok_iff.mp encoded).2]
  exact Text.ended_join _

namespace Machine
open Stateful

/-- The labels that a text marks. -/
def marked (text : String) : List String :=
  (Code.ofLines (Text.lines text)).marks

def Readable (lines : List String) : Prop :=
  ∀ line ∈ lines, ∃ found, Instr.decode line = .ok found

theorem loadLines_eq_ok_iff {number : Nat} {lines : List String} {machine after : Machine} :
    loadLines number lines machine = .ok () after ↔
      Readable lines ∧ after = machine.install (Code.ofLines lines) := by
  induction lines generalizing number machine with
  | nil => simp [loadLines, Readable, Code.ofLines, eq_comm]
  | cons line rest ih =>
    rw [loadLines, bind_apply, Failure.onLine, loadLine, Readable, List.forall_mem_cons]
    cases found : Instr.decode line with
    | error failure => simp
    | ok result =>
      cases result with
      | none => simpa [Readable, Code.ofLines, found] using ih
      | some instr => simpa [Readable, Code.ofLines, found, place_apply] using ih

theorem loadListing_eq_ok_iff {text : String} {machine after : Machine} :
    loadListing text machine = .ok () after ↔ Readable (Text.lines text) ∧
      after = machine.install (Code.ofLines (Text.lines text)) :=
  loadLines_eq_ok_iff

theorem loadAndRun_loaded {text : String} {machine after : Machine}
    (loaded : loadListing text machine = .ok () after) (steps : Nat) :
    loadAndRun steps text machine = run steps after :=
  bind_ok loaded

theorem install_same {machine other : Machine} (same : SameProgram machine other) (code : Code) :
    SameProgram (machine.install code) (other.install code) := by
  induction code generalizing machine other with
  | nil => exact same
  | cons instr rest ih =>
    apply ih
    cases instr <;> exact ⟨by simp [extend, same.code], by simp [extend, same.code, same.labels]⟩

/-- The site of a program behind which more code has been put. -/
def grown (machine : Machine) (code : Code) : Site where
  offset := 0
  code := (machine.install code).code
  labels := (machine.install code).labels

theorem grown_hosts {machine : Machine} {code : Code}
    (apart : ∀ label ∈ code.marks, machine.labels.find? label = none) :
    (machine.grown code).Hosts machine := by
  constructor
  · exact fun position instr found => getElem?_install found code
  · intro label position found
    have unmarked : label ∉ code.marks := by
      intro member
      rw [apart label member] at found
      contradiction
    exact (install_labels_other unmarked machine).trans found

theorem grown_move {machine other : Machine} (same : SameProgram machine other) (code : Code) :
    (machine.grown code).move other = other.install code := by
  obtain ⟨stack, registers, pc, output⟩ := install_memory other code
  obtain ⟨codes, labels⟩ := install_same same code
  cases installed : other.install code
  simp only [installed] at stack registers pc output codes labels
  simp [Site.move, grown, stack, registers, pc, output, codes, labels]

/-- A run that has come to its end has as much code behind it, once this is there, as if it had
been there from the beginning. -/
theorem run_grown {machine last : Machine} {code : Code} {steps : Nat}
    (apart : ∀ label ∈ code.marks, machine.labels.find? label = none)
    (halted : run steps machine = .ok .halted last) :
    ∃ count, ∀ more, run (count + more) (machine.install code) = run more (last.install code) := by
  obtain ⟨same, count, follows⟩ := Site.run_move (grown_hosts apart) halted
  refine ⟨count, fun more => ?_⟩
  rw [← grown_move (.refl machine) code, ← grown_move same code]
  exact follows more

def Finished : EStateM.Result Failure Machine RunEnd → Prop
  | .ok ending _ => ending = .halted
  | .error _ _ => True

theorem run_finished {steps : Nat} {machine : Machine} (finished : Finished (run steps machine))
    (more : Nat) : run (steps + more) machine = run steps machine := by
  induction steps generalizing machine with
  | zero =>
    cases running : machine.running with
    | true => simp [run, running, Finished] at finished
    | false => rw [run_stopped running, run_stopped running]
  | succ fewer ih =>
    rw [Nat.add_right_comm]
    cases running : machine.running with
    | false => rw [run_stopped running, run_stopped running]
    | true =>
      simp only [run, running, if_true] at finished ⊢
      cases stepped : step machine with
      | error failure after => rfl
      | ok done next =>
        simp only [stepped] at finished
        exact ih finished

/-- Executing the text ends like this, if it is given time. -/
def Ends (text : String) (machine : Machine) (result : EStateM.Result Failure Machine RunEnd) :
    Prop :=
  Finished result ∧ ∃ steps, loadAndRun steps text machine = result

/-- From some step on, executing the first text is executing the second. -/
structure Continues (text : String) (machine : Machine) (rest : String) (middle : Machine) :
    Prop where
  ends : ∀ result, Ends text machine result ↔ Ends rest middle result
  /-- Whatever is cut off after some steps, all that is left and all that is printed is the same. -/
  follows : ∃ count, ∀ more, loadAndRun (count + more) text machine = loadAndRun more rest middle

theorem loadAndRun_finished {steps : Nat} {text : String} {machine : Machine}
    (finished : Finished (loadAndRun steps text machine)) (more : Nat) :
    loadAndRun (steps + more) text machine = loadAndRun steps text machine := by
  cases loaded : loadListing text machine with
  | ok done after =>
    rw [loadAndRun_loaded loaded] at finished
    rw [loadAndRun_loaded loaded, loadAndRun_loaded loaded]
    exact run_finished finished more
  | error failure after =>
    rw [loadAndRun, loadAndRun, bind_error loaded, bind_error loaded]

theorem Continues.of_follows {text rest : String} {machine middle : Machine}
    (follows : ∃ count, ∀ more,
      loadAndRun (count + more) text machine = loadAndRun more rest middle) :
    Continues text machine rest middle := by
  refine ⟨fun result => ?_, follows⟩
  obtain ⟨count, follows⟩ := follows
  constructor
  · rintro ⟨finished, steps, rfl⟩
    refine ⟨finished, steps, ?_⟩
    rw [← follows, Nat.add_comm, loadAndRun_finished finished]
  · rintro ⟨finished, steps, rfl⟩
    exact ⟨finished, count + steps, follows steps⟩

/-- A text that has been executed to its end is continued by a text behind it as by one that is
loaded afterwards, if no label has another meaning by then. -/
theorem continues_append {first second : String} {machine middle : Machine} {steps : Nat}
    (ended : Text.Ended first) (readable : Readable (Text.lines second))
    (apart : ∀ label ∈ marked second, label ∉ marked first ∧ machine.labels.find? label = none)
    (halted : loadAndRun steps first machine = .ok .halted middle) :
    Continues (first ++ second) machine second middle := by
  obtain ⟨_, start, loaded, halted⟩ := bind_eq_ok.mp halted
  obtain ⟨readableFirst, rfl⟩ := loadListing_eq_ok_iff.mp loaded
  have both : loadListing (first ++ second) machine =
      .ok () ((machine.install (Code.ofLines (Text.lines first))).install
        (Code.ofLines (Text.lines second))) := by
    rw [loadListing_eq_ok_iff, Text.lines_append ended, Code.ofLines_append, install_append]
    exact ⟨List.forall_mem_append.mpr ⟨readableFirst, readable⟩, rfl⟩
  have alone : loadListing second middle =
      .ok () (middle.install (Code.ofLines (Text.lines second))) :=
    loadListing_eq_ok_iff.mpr ⟨readable, rfl⟩
  have fresh : ∀ label ∈ (Code.ofLines (Text.lines second)).marks,
      (machine.install (Code.ofLines (Text.lines first))).labels.find? label = none := by
    intro label member
    obtain ⟨unmarked, absent⟩ := apart label member
    rw [install_labels_other unmarked, absent]
  obtain ⟨count, follows⟩ := run_grown fresh halted
  refine .of_follows ⟨count, fun more => ?_⟩
  rw [loadAndRun_loaded both, loadAndRun_loaded alone, follows]

end Machine

namespace Compiler
open Machine

theorem compileSource_emits {source : String} {context after : Context} {code : Code}
    (compiled : compileSource source context = .ok code after) :
    ∃ program : Program, Emits context (.bodies program.exprs) code after := by
  obtain ⟨program, _, done⟩ := compileSource_eq_ok_iff.mp compiled
  exact ⟨program, compileProgram_emits done⟩

theorem sources_continue {source other : String} {context between after : Context}
    {code codes : Code} {text texts : String} {middle : Machine} {steps : Nat}
    (compiled : compileSource source context = .ok code between)
    (compiledNext : compileSource other between = .ok codes after)
    (encoded : encode code = .ok text) (encodedNext : encode codes = .ok texts)
    (halted : loadAndRun steps text {} = .ok .halted middle) :
    Continues (text ++ texts) {} texts middle := by
  obtain ⟨program, emitted⟩ := compileSource_emits compiled
  obtain ⟨following, emittedNext⟩ := compileSource_emits compiledNext
  have distinct := (emitted.draws.append emittedNext.draws).distinct
  have loads := loadListing_encode emittedNext.readable encodedNext {}
  refine continues_append (Code.encode_ended encoded) (loadListing_eq_ok_iff.mp loads).1 ?_ halted
  intro label member
  rw [marked, Code.ofLines_encode emittedNext.readable encodedNext] at member
  rw [marked, Code.ofLines_encode emitted.readable encoded]
  exact ⟨fun earlier => (List.nodup_append.mp distinct).2.2 label earlier label member rfl, rfl⟩

end Compiler

namespace Machine
open Compiler Stateful

/-- Executing in pieces is executing at once: on any machine, a text that has been executed to its
end and a text that is then executed do what both do together, if the second marks no label that is
already there. This is so of the bytecode of sources that are compiled in one context. -/
theorem pieces_run_as_whole :
    (∀ first second machine middle steps, Text.Ended first →
      (∃ loaded, loadListing second machine = .ok () loaded) →
      (∀ label ∈ marked second, label ∉ marked first ∧ machine.labels.find? label = none) →
      loadAndRun steps first machine = .ok .halted middle →
      Continues (first ++ second) machine second middle) ∧
    ∀ source other context between after code codes text texts middle steps,
      compileSource source context = .ok code between →
      compileSource other between = .ok codes after →
      encode code = .ok text → encode codes = .ok texts →
      loadAndRun steps text {} = .ok .halted middle →
      Continues (text ++ texts) {} texts middle := by
  constructor
  · intro first second machine middle steps ended loads apart halted
    obtain ⟨loaded, loads⟩ := loads
    exact continues_append ended (loadListing_eq_ok_iff.mp loads).1 apart halted
  · intro source other context between after code codes text texts middle steps compiled
      compiledNext encoded encodedNext halted
    exact sources_continue compiled compiledNext encoded encodedNext halted

/-- A text that jumps back into the code before it and never ends, on a machine that holds a program
already, and two sources with a branch each. -/
theorem pieces_run_as_whole_loops :
    let first := "PUSH 2\nagain:\nSTOR 0\nLOAD 0\nPRINT\nLOAD 0\nPUSH 1\nSUB\nSTOR 0\nLOAD 0\n" ++
      "LOAD 0\nJNZ again\n"
    let second := "LOAD 0\nJZ out\nJMP again\nout:\nJMP start"
    let machine : Machine :=
      { code := #[.print], labels := ⟨[("start", 0)]⟩, stack := [7], pc := 1 }
    let source := "(if 1 (println 1) 2)"
    let other := "(if 0 1 (println 2))"
    (∃ middle, loadAndRun 30 first machine = .ok .halted middle ∧ middle.stack = [0, 7] ∧
      Continues (first ++ second) machine second middle) ∧
    ∃ code between codes after text texts middle, compileSource source {} = .ok code between ∧
      compileSource other between = .ok codes after ∧ encode code = .ok text ∧
      encode codes = .ok texts ∧ loadAndRun 30 text {} = .ok .halted middle ∧
      Continues (text ++ texts) {} texts middle := by
  intro first second machine source other
  constructor
  · have run : passes (fun ending last => ending = .halted ∧ last.stack = [0, 7])
        (loadAndRun 30 first machine) := by
      decide +kernel
    have loads : passes (fun _ _ => true) (loadListing second machine) := by
      decide +kernel
    obtain ⟨ending, middle, halted, checked⟩ := passes_iff.mp run
    obtain ⟨_, loaded, done, _⟩ := passes_iff.mp loads
    obtain ⟨rfl, stack⟩ := of_decide_eq_true checked
    exact ⟨middle, halted, stack, pieces_run_as_whole.1 first second machine middle 30
      (by decide +kernel) ⟨loaded, done⟩ (by decide +kernel) halted⟩
  · have compiled : compileSource source {} =
        .ok [.push 1, .jumpIfZero "fls0", .label "tru0", .push 1, .print, .jump "done0",
          .label "fls0", .push 2, .label "done0"]
          { counters := ⟨[("fls", 1), ("tru", 1), ("done", 1)]⟩ } := by
      decide +kernel
    have compiledNext : compileSource other
        { counters := ⟨[("fls", 1), ("tru", 1), ("done", 1)]⟩ } =
        .ok [.push 0, .jumpIfZero "fls1", .label "tru1", .push 1, .jump "done1",
          .label "fls1", .push 2, .print, .label "done1"]
          { counters := ⟨[("fls", 2), ("tru", 2), ("done", 2)]⟩ } := by
      decide +kernel
    have run : passes (fun ending _ => ending = .halted) (loadAndRun 30
        "PUSH 1\nJZ fls0\ntru0:\nPUSH 1\nPRINT\nJMP done0\nfls0:\nPUSH 2\ndone0:\n" {}) := by
      decide +kernel
    obtain ⟨ending, middle, halted, checked⟩ := passes_iff.mp run
    obtain rfl := of_decide_eq_true checked
    have encoded : encode [.push 1, .jumpIfZero "fls0", .label "tru0", .push 1, .print,
          .jump "done0", .label "fls0", .push 2, .label "done0"] =
        .ok "PUSH 1\nJZ fls0\ntru0:\nPUSH 1\nPRINT\nJMP done0\nfls0:\nPUSH 2\ndone0:\n" := by
      decide +kernel
    have encodedNext : encode [.push 0, .jumpIfZero "fls1", .label "tru1", .push 1, .jump "done1",
          .label "fls1", .push 2, .print, .label "done1"] =
        .ok "PUSH 0\nJZ fls1\ntru1:\nPUSH 1\nJMP done1\nfls1:\nPUSH 2\nPRINT\ndone1:\n" := by
      decide +kernel
    exact ⟨_, _, _, _, _, _, middle, compiled, compiledNext, encoded, encodedNext, halted,
      pieces_run_as_whole.2 _ _ _ _ _ _ _ _ _ _ _ compiled compiledNext encoded encodedNext halted⟩

end Machine
end StackScheme
