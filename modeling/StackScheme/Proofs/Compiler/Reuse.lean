import StackScheme.Files
import StackScheme.Proofs.Compiler.Safety

/-! A compiler that is used for several files, one after the other. A variable is loaded only from a
register that has been assigned, in the same file or in an earlier one. But registers are assigned
while a file is still being compiled, and they stay when that fails: then nothing that stores to
them has been written, and a later file may load them all the same. -/
namespace StackScheme.Workshop
open Stateful Compiler

structure Run where
  source : String
  output : String
  before : Workshop

namespace Run

def result (run : Run) : EStateM.Result Failure Workshop Code :=
  build run.source run.output run.before

def after (run : Run) : Workshop :=
  final run.result

def code? (run : Run) : Option Code :=
  value? run.result

def Stores (run : Run) (register : Int) : Prop :=
  ∃ code ∈ run.code?, .store register ∈ code

/-- The run fails when it has already assigned the register. -/
def Abandons (run : Run) (register : Int) : Prop :=
  run.code? = none ∧ run.after.context.Holds register ∧ ¬run.before.context.Holds register

end Run

theorem compileFile_emits {source : String} {shop after : Workshop} {code : Code}
    (compiled : compileFile source shop = .ok code after) :
    ∃ phrase, Emits shop.context phrase code after.context := by
  unfold compileFile at compiled
  split at compiled
  · contradiction
  · split at compiled
    · rename_i done
      cases compiled
      exact ⟨_, compileProgram_emits done⟩
    · contradiction

theorem writeCode_context (output : String) (code : Code) (shop : Workshop) :
    (final (writeCode output code shop)).context = shop.context := by
  unfold writeCode
  split
  · rfl
  · split
    · rfl
    · split
      · rfl
      · rfl

theorem Run.emits {run : Run} {code : Code} (returned : code ∈ run.code?) :
    ∃ phrase, Emits run.before.context phrase code run.after.context := by
  obtain ⟨after, built⟩ := value?_eq_some_iff.mp returned
  have ended : run.after = after := by
    rw [Run.after, built]
    rfl
  obtain ⟨written, middle, compiled, further⟩ := bind_eq_ok.mp built
  obtain ⟨_, last, done, finished⟩ := bind_eq_ok.mp further
  obtain ⟨rfl, rfl⟩ := pure_eq_ok.mp finished
  have kept : last.context = middle.context := by
    have context := writeCode_context run.output written middle
    rwa [done] at context
  rw [ended, kept]
  exact compileFile_emits compiled

/-- A register that is assigned after a run was so before it, or the run stores to it, or it has
failed. -/
theorem Run.holds_after {run : Run} {register : Int} (held : run.after.context.Holds register) :
    run.before.context.Holds register ∨ run.Stores register ∨ run.Abandons register := by
  by_cases earlier : run.before.context.Holds register
  · exact .inl earlier
  · cases returned : run.code? with
    | none => exact .inr (.inr ⟨returned, held, earlier⟩)
    | some code =>
      obtain ⟨phrase, emitted⟩ := Run.emits (Option.mem_def.mpr returned)
      rcases emitted.stored held with known | stored
      · exact (earlier known).elim
      · exact .inr (.inl ⟨code, returned, stored⟩)

/-- The runs for these pairs of a source and an output, each in the workshop that the runs before it
have left. -/
def runs : List (String × String) → Workshop → List Run
  | [], _ => []
  | (source, output) :: rest, shop =>
    ⟨source, output, shop⟩ :: runs rest (Run.after ⟨source, output, shop⟩)

theorem holds_before {tasks : List (String × String)} {shop : Workshop} {earlier later : List Run}
    {run : Run} (split : runs tasks shop = earlier ++ run :: later) {register : Int}
    (held : run.before.context.Holds register) :
    shop.context.Holds register ∨
      ∃ other ∈ earlier, other.Stores register ∨ other.Abandons register := by
  induction earlier generalizing tasks shop with
  | nil =>
    cases tasks with
    | nil => contradiction
    | cons task rest =>
      obtain ⟨rfl, _⟩ := List.cons.inj split
      exact .inl held
  | cons first earlier ih =>
    cases tasks with
    | nil => contradiction
    | cons task rest =>
      obtain ⟨rfl, following⟩ := List.cons.inj split
      rcases ih following with known | ⟨other, member, source⟩
      · rcases Run.holds_after known with before | source
        · exact .inl before
        · exact .inr ⟨_, List.mem_cons_self, source⟩
      · exact .inr ⟨other, List.mem_cons_of_mem _ member, source⟩

/-- Before a run that succeeds loads a register it has stored to it, or an earlier run accounts for
the register. -/
def Backed (accounts : Run → Int → Prop) (steps : List Run) : Prop :=
  ∀ earlier run later, steps = earlier ++ run :: later → ∀ code ∈ run.code?,
    code.LoadsStored fun register => ∃ other ∈ earlier, accounts other register

/-- What a new compiler loads it has stored to in the same run or in an earlier run that has
succeeded, except for registers that were assigned in a run that failed. So where no run that fails
has bound a name, everything that is loaded is stored to in code that has been returned. -/
theorem runs_backed (tasks : List (String × String)) (directory : Directory) :
    Backed (fun run register => run.Stores register ∨ run.Abandons register)
      (runs tasks { directory }) ∧
    ((∀ run ∈ runs tasks { directory }, run.code? = none →
        run.after.context.registers = run.before.context.registers) →
      Backed Run.Stores (runs tasks { directory })) := by
  have backed : Backed (fun run register => run.Stores register ∨ run.Abandons register)
      (runs tasks { directory }) := by
    intro earlier run later split code returned
    obtain ⟨phrase, emitted⟩ := Run.emits returned
    refine emitted.loads.mono fun register held => ?_
    rcases holds_before split held with ⟨_, _, _, none⟩ | accounted
    · contradiction
    · exact accounted
  refine ⟨backed, fun clean earlier run later split code returned => ?_⟩
  refine (backed earlier run later split code returned).mono ?_
  rintro register ⟨other, member, stores | ⟨failed, held, new⟩⟩
  · exact ⟨other, member, stores⟩
  · have same := clean other (by simp [split, member]) failed
    rw [Context.Holds, same] at held
    exact (new held).elim

/-- Between two files that compile stands one that does not, and another that is not there. -/
theorem runs_backed_interrupted :
    let directory : Directory := .ofFiles [("a", "(let ([x 1]) (println x))".toUTF8),
      ("b", "(println (+ x y))".toUTF8), ("c", "(println x)".toUTF8)]
    let steps := runs [("a", "o"), ("b", "o"), ("d", "o"), ("c", "p")] { directory }
    steps.map Run.code? =
        [some [.push 1, .store 0, .load 0, .print], none, none, some [.load 0, .print]] ∧
      Backed Run.Stores steps := by
  intro directory steps
  exact ⟨by decide +kernel, (runs_backed _ _).2 (by decide +kernel)⟩

/-- A form that fails behind its bindings leaves a register that the next file loads, and that no
code stores to. -/
theorem runs_unbacked_abandoned :
    let directory : Directory :=
      .ofFiles [("a", "(let ([x 1]) (foo))".toUTF8), ("b", "(println x)".toUTF8)]
    let steps := runs [("a", "o"), ("b", "p")] { directory }
    steps.map Run.code? = [none, some [.load 0, .print]] ∧ ¬Backed Run.Stores steps := by
  intro directory steps
  let first : Run := ⟨"a", "o", { directory }⟩
  let second : Run := ⟨"b", "p", first.after⟩
  have failed : first.code? = none := by
    decide +kernel
  have returned : second.code? = some [.load 0, .print] := by
    decide +kernel
  refine ⟨by rw [← failed, ← returned]; rfl, fun backed => ?_⟩
  rcases backed [first] second [] rfl _ returned [] 0 [.print] rfl with
    ⟨other, member, stores⟩ | none
  · obtain rfl := List.mem_singleton.mp member
    obtain ⟨code, none, _⟩ := stores
    rw [failed] at none
    contradiction
  · contradiction

end StackScheme.Workshop
