import StackScheme.Proofs.Compiler.Registers
import StackScheme.Proofs.Machine.Running

/-! What can be promised of every compiled program before it is run: it loads, it runs to its end or
into a hazard within as many steps as it has instructions, and it loads no register that it has not
stored to somewhere before. -/
namespace StackScheme.Compiler
open Stateful

theorem compileSource_eq_ok_iff {source : String} {code : Code} {context after : Context} :
    compileSource source context = .ok code after ↔
      ∃ program, Reader.readSource source = .ok program ∧
        compileProgram program context = .ok code after := by
  simp only [compileSource, bind_eq_ok, lift_eq_ok_iff]
  constructor
  · rintro ⟨program, _, ⟨read, rfl⟩, done⟩
    exact ⟨program, read, done⟩
  · rintro ⟨program, read, done⟩
    exact ⟨program, context, ⟨read, rfl⟩, done⟩

theorem bytecode_eq_ok_iff {source text : String} : bytecode source = .ok text ↔
    ∃ program code after, Reader.readSource source = .ok program ∧
      compileProgram program {} = .ok code after ∧ encode code = .ok text := by
  constructor
  · intro written
    unfold bytecode at written
    split at written
    · rename_i code after done
      obtain ⟨program, read, done⟩ := compileSource_eq_ok_iff.mp done
      refine ⟨program, code, after, read, done, ?_⟩
      split at written
      · rename_i encoded
        exact encoded.trans (congrArg Except.ok (Except.ok.inj written))
      · contradiction
    · contradiction
  · rintro ⟨program, code, after, read, done, encoded⟩
    simp only [bytecode, compileSource_eq_ok_iff.mpr ⟨program, read, done⟩, encoded]

theorem Emits.sound {phrase : Phrase} {code : Code} {after : Context} {text : String}
    (emitted : Emits {} phrase code after) (encoded : encode code = .ok text) :
    (Machine.install {} code).Sound :=
  Machine.install_sound emitted.draws.distinct emitted.forward
    (Code.encode_eq_ok_iff.mp encoded).1

theorem Emits.extent_le {phrase : Phrase} {code : Code} {after : Context} {text : String}
    (emitted : Emits {} phrase code after) (encoded : encode code = .ok text) :
    code.extent ≤ (Text.lines text).length := by
  rw [Code.lines_encode emitted.readable encoded, List.length_map]
  exact List.length_filter_le _ _

theorem Emits.stored_before {phrase : Phrase} {code : Code} {after : Context}
    (emitted : Emits {} phrase code after) {before rest : Code} {register : Int}
    (split : code = before ++ .load register :: rest) : .store register ∈ before := by
  rcases emitted.loads before register rest split with ⟨_, _, _, known⟩ | stored
  · contradiction
  · exact stored

/-- What holds of a text, the code it was written from and the machine that has loaded it, before
anything is run. -/
structure Safe (text : String) (code : Code) (machine : Machine) : Prop where
  decoded : (Text.lines text).map Instr.decode = code.map fun instr => .ok (some instr)
  stored : ∀ before register rest, code = before ++ .load register :: rest →
    .store register ∈ before
  loaded : Machine.loadListing text {} = .ok () machine
  forward : machine.Forward
  /-- Whether a step succeeds or fails, the counter moves on. -/
  advances : ∀ state, machine.SameProgram state → state.running = true →
    match Machine.step state with
    | .ok () after | .error _ after => state.pc < after.pc
  /-- A run needs no more steps than there are instructions ahead of the counter. If it does not
  come to their end, it comes to one of three hazards. -/
  ends : ∀ state, machine.SameProgram state → ∀ steps, machine.code.size ≤ state.pc + steps →
    match Machine.run steps state with
    | .ok ending _ => ending = .halted
    | .error failure _ => ∃ last instr, Machine.Reaches state last ∧
      machine.code[last.pc]? = some instr ∧
      Machine.Hazard { last with pc := last.pc + 1 } instr failure

theorem Emits.safe {phrase : Phrase} {code : Code} {after : Context} {text : String}
    (emitted : Emits {} phrase code after) (encoded : encode code = .ok text) :
    Safe text code (Machine.install {} code) where
  decoded := Code.decode_lines emitted.readable encoded
  stored := fun _ _ _ => emitted.stored_before
  loaded := Machine.loadListing_encode emitted.readable encoded {}
  forward := (emitted.sound encoded).forward
  advances := by
    intro state same running
    have outcome := ((emitted.sound encoded).same same).step_outcome (of_decide_eq_true running)
    cases stepped : Machine.step state with
    | ok done after =>
      simp only [stepped] at outcome
      exact outcome.2
    | error failure after =>
      simp only [stepped] at outcome
      simp only [outcome.2.1]
      omega
  ends := by
    intro state same steps enough
    rw [← same.code] at enough
    have outcome := ((emitted.sound encoded).same same).run_outcome enough
    cases ran : Machine.run steps state with
    | ok ending after =>
      simp only [ran] at outcome
      exact outcome.1
    | error failure after =>
      simp only [ran] at outcome
      rw [same.code] at outcome
      exact outcome

theorem bytecode_safe {source text : String} (compiled : bytecode source = .ok text) :
    ∃ code machine, Safe text code machine := by
  obtain ⟨program, code, after, _, done, encoded⟩ := bytecode_eq_ok_iff.mp compiled
  exact ⟨code, _, (compileProgram_emits done).safe encoded⟩

/-- A source with a branch that leaves nothing to print. -/
theorem bytecode_safe_choice :
    let source := "(let ([x 3]) (println (if x (+ x 1) (let ([y 4])))))"
    ∃ text, bytecode source = .ok text ∧ ∃ code machine, Safe text code machine := by
  have compiled : bytecode "(let ([x 3]) (println (if x (+ x 1) (let ([y 4])))))" =
      .ok ("PUSH 3\nSTOR 0\nLOAD 0\nJZ fls0\ntru0:\nLOAD 0\nPUSH 1\nADD\nJMP done0\nfls0:\n" ++
        "PUSH 4\nSTOR 1\ndone0:\nPRINT\n") := by
    decide +kernel
  exact ⟨_, compiled, bytecode_safe compiled⟩

end StackScheme.Compiler
