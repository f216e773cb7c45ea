import StackScheme.Proofs.Machine.Loading

/-! Loading undoes encoding. Code whose operands are of the right kinds has a text, each line of
which is read back as what it was written from, and a machine that loads the text is extended by the
code and otherwise left as it was. -/
namespace StackScheme.Machine

theorem install_append (machine : Machine) (first second : Code) :
    machine.install (first ++ second) = (machine.install first).install second :=
  List.foldl_append

theorem install_labels_last {before rest : Code} {name : String} (last : name ∉ rest.marks)
    (machine : Machine) : (machine.install (before ++ .label name :: rest)).labels.find? name =
      some (machine.code.size + before.extent) := by
  have size : (machine.install before).code.size = machine.code.size + before.extent := by
    simp [install_code, Code.extent]
  rw [install_append, install_cons, install_labels_other last, extend, Table.find?_insert,
    if_pos rfl, size]

/-- The machine after code has been put behind its own, compared with the machine before. -/
structure Extends (machine : Machine) (code : Code) (after : Machine) : Prop where
  appended : after.code = machine.code ++ code.executable.toArray
  /-- A name leads to the instruction that follows its last mark. -/
  marked : ∀ (before : Code) name (rest : Code), code = before ++ .label name :: rest →
    name ∉ rest.marks → after.labels.find? name = some (machine.code.size + before.extent)
  unmarked : ∀ name, name ∉ code.marks →
    after.labels.find? name = machine.labels.find? name
  stack : after.stack = machine.stack
  registers : after.registers = machine.registers
  pc : after.pc = machine.pc
  output : after.output = machine.output

theorem install_extends (machine : Machine) (code : Code) :
    machine.Extends code (machine.install code) := by
  obtain ⟨stack, registers, pc, output⟩ := install_memory machine code
  refine ⟨install_code machine code, ?_, fun name unmarked => install_labels_other unmarked machine,
    stack, registers, pc, output⟩
  rintro before name rest rfl last
  exact install_labels_last last machine

/-- Well-formed code has a text. The lines of the text are read back as the members of the code, and
any machine can load it, which does nothing but extend the machine by the code. -/
theorem load_undoes_encode {code : Code} (wellFormed : ∀ instr ∈ code, instr.WellFormed)
    (machine : Machine) : ∃ text, encode code = .ok text ∧
      (Text.lines text).map Instr.decode = code.map (fun instr => .ok (some instr)) ∧
      ∃ after, loadListing text machine = .ok () after ∧ machine.Extends code after := by
  have readable : ∀ instr ∈ code, instr.Readable := fun instr member => (wellFormed instr member).1
  have encoded := Code.encode_eq_ok_iff.mpr
    ⟨fun instr member => (wellFormed instr member).2, rfl⟩
  exact ⟨_, encoded, Code.decode_lines readable encoded, _,
    loadListing_encode readable encoded machine, install_extends machine code⟩

/-- Labels that are spelled like an opcode, marked twice, already known to the machine, or marked at
the end of the code. -/
theorem load_undoes_encode_repeated :
    let code : Code := [.label "JMP", .push (-7), .jumpIfZero "é²", .label "é²", .store 3,
      .jumpIfNonzero "JMP", .label "JMP"]
    let machine : Machine := { code := #[.print], labels := ⟨[("é²", 0), ("start", 0)]⟩, pc := 1 }
    ∃ text, encode code = .ok text ∧
      (Text.lines text).map Instr.decode = code.map (fun instr => .ok (some instr)) ∧
      ∃ after, loadListing text machine = .ok () after ∧ machine.Extends code after := by
  intro code machine
  exact load_undoes_encode (by decide +kernel) machine

end StackScheme.Machine
