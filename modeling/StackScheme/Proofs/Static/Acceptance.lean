import StackScheme.Proofs.Compiler.Registers
import StackScheme.Proofs.Static.Judging

/-! The compiler accepts a form if and only if what is read in it is acceptable, and otherwise it
objects to the form. It goes through the form in reading order, except that it looks over a binding
list before it takes up the first value. -/
namespace StackScheme.Compiler
open Stateful Context

/-- The compiler as a way of going through forms: the names that have registers are known, and each
branch takes a number of its three labels. -/
def compiling : Stage Context where
  names context := context.registers.keys
  room count context :=
    ∀ stem ∈ ["fls", "tru", "done"], context.count stem + count ≤ Numeral.ceiling
  room_le room stem member := by
    have enough := room stem member
    omega
  objects failure := ∃ fault, failure = .ofFault (.compile fault)
  excused _ := False

variable {op : String} {args : List Expr}

theorem refuses_fail {α : Type} {count : Nat} (fault : FormFault) :
    Refuses compiling count (fail fault : CompileM α) :=
  .fail ⟨fault, rfl⟩

theorem refuses_showing {α : Type} {count : Nat} {expr : Expr} (fault : String → FormFault)
    (fits : ∀ n ∈ expr.integers, Numeral.Fits n) :
    Refuses compiling count (showing expr fault : CompileM α) :=
  .fail ⟨fault expr.text, Failure.showing_eq fits _⟩

theorem judges_registerOf (name : String) :
    Judges compiling [.reached (.var name)] 0 (registerOf name) := by
  apply Judges.use
  intro context
  unfold registerOf
  cases found : context.registers.find? name with
  | some register => exact ⟨Table.mem_keys_iff.mpr ⟨register, found⟩, rfl⟩
  | none => exact ⟨Table.find?_eq_none_iff.mp found, _, rfl⟩

theorem judges_assign (name : String) : Judges compiling [.bound name] 0 (assign name) := by
  apply Judges.keep
  intro context
  obtain ⟨register, after, assigned⟩ : ∃ register after,
      assign name context = .ok register after := by
    unfold assign
    cases context.registers.find? name <;> exact ⟨_, _, rfl⟩
  refine ⟨register, after, assigned, fun other => ?_, fun more room stem member => ?_⟩
  · obtain ⟨found, rfl⟩ | ⟨_, _, rfl⟩ := assign_cases assigned
    · have member := Table.mem_keys_iff.mpr ⟨register, found⟩
      constructor
      · exact .inl
      · rintro (known | rfl)
        · exact known
        · exact member
    · exact Table.mem_keys_insert
  · rw [count_assign assigned]
    exact room stem member

/-- As long as there is room for a branch its labels are granted, and one number is gone. -/
theorem labels_granted {context : Context}
    (room : ∀ stem ∈ ["fls", "tru", "done"], context.count stem < Numeral.ceiling) :
    ∃ onFalse second onTrue third done drawn, freshLabel "fls" context = .ok onFalse second ∧
      freshLabel "tru" second = .ok onTrue third ∧ freshLabel "done" third = .ok done drawn ∧
      ∀ stem ∈ ["fls", "tru", "done"], drawn.count stem = context.count stem + 1 := by
  cases first : freshLabel "fls" context with
  | error failure after => exact (not_refused (room _ (by simp)) first).elim
  | ok onFalse second =>
  have firstCount := count_freshLabel first
  cases next : freshLabel "tru" second with
  | error failure after =>
    refine (not_refused ?_ next).elim
    rw [firstCount, if_neg (by decide)]
    exact room _ (by simp)
  | ok onTrue third =>
  have nextCount := count_freshLabel next
  cases last : freshLabel "done" third with
  | error failure after =>
    refine (not_refused ?_ last).elim
    rw [nextCount, if_neg (by decide), firstCount, if_neg (by decide)]
    exact room _ (by simp)
  | ok done drawn =>
  have lastCount := count_freshLabel last
  refine ⟨onFalse, second, onTrue, third, done, drawn, rfl, next, last, fun stem member => ?_⟩
  simp only [List.mem_cons, List.not_mem_nil, or_false] at member
  obtain rfl | rfl | rfl := member <;> simp [lastCount, nextCount, firstCount]

theorem judges_labels {α : Type} {occurrences : List Occurrence} {count : Nat}
    {following : String → String → String → CompileM α}
    (each : ∀ onFalse onTrue done,
      Judges compiling occurrences count (following onFalse onTrue done)) :
    Judges compiling occurrences (1 + count)
      (do
        let onFalse ← freshLabel "fls"
        let onTrue ← freshLabel "tru"
        let done ← freshLabel "done"
        following onFalse onTrue done) := by
  intro context room
  have one : ∀ stem ∈ ["fls", "tru", "done"], context.count stem < Numeral.ceiling := by
    intro stem member
    have enough := room stem member
    omega
  obtain ⟨onFalse, second, onTrue, third, done, drawn, first, next, last, counts⟩ :=
    labels_granted one
  have spare {more : Nat} (enough : compiling.room (1 + more) context) :
      compiling.room more drawn := by
    intro stem member
    have left := enough stem member
    rw [counts stem member]
    omega
  have names : compiling.names drawn = compiling.names context :=
    congrArg Table.keys (registers_drawn first next last).1
  have judged := each onFalse onTrue done drawn (spare room)
  rw [bind_ok first, bind_ok next, bind_ok last]
  rw [names] at judged
  cases result : following onFalse onTrue done drawn with
  | ok value after =>
    rw [result] at judged
    obtain ⟨accepted, known, rest⟩ := judged
    refine ⟨accepted, known, fun more enough => rest more (spare ?_)⟩
    rwa [Nat.add_assoc] at enough
  | error failure after =>
    rw [result] at judged
    exact judged

/-- A binding list is passed if it holds bindings only, and otherwise objected to. -/
theorem checkBindings_cases {members : List Expr}
    (fits : ∀ n ∈ Expr.allIntegers members, Numeral.Fits n) :
    ((∀ member ∈ members, member.IsBinding) ∧ ∃ pairs, checkBindings members = .ok pairs) ∨
      (¬∀ member ∈ members, member.IsBinding) ∧
        ∃ fault, checkBindings members = .error (.ofFault (.compile fault)) := by
  induction members with
  | nil => exact .inl ⟨by simp, [], rfl⟩
  | cons member rest ih =>
    rw [Expr.fits_cons] at fits
    rw [List.forall_mem_cons]
    by_cases first : member.IsBinding
    · obtain ⟨name, value, rfl⟩ := first
      rw [checkBindings]
      rcases ih fits.2 with ⟨all, pairs, checked⟩ | ⟨other, fault, refused⟩
      · exact .inl ⟨⟨⟨name, value, rfl⟩, all⟩, (name, value) :: pairs, by rw [checked]; rfl⟩
      · exact .inr ⟨fun both => other both.2, fault, by rw [refused]; rfl⟩
    · refine .inr ⟨fun both => first both.1, .notBinding member.text, ?_⟩
      rw [checkBindings.eq_3 _ _ fun name value same => first ⟨name, value, same⟩,
        Failure.showing_eq fits.1]

/-- A `let` passes if and only if it is well made. -/
theorem bindingsOf_cases (operator : Operator.ofName op = .letIn)
    (fits : ∀ n ∈ Expr.allIntegers args, Numeral.Fits n) :
    (∃ members bodies, args = .form "" members :: bodies ∧
        (∀ member ∈ members, member.IsBinding) ∧ ∃ pairs, bindingsOf args = .ok pairs) ∨
      ¬Expr.WellMade (.form op args) ∧
        ∃ fault, bindingsOf args = .error (.ofFault (.compile fault)) := by
  unfold bindingsOf
  split
  · rename_i members bodies
    simp only [Expr.integers, Expr.fits_cons] at fits
    rcases checkBindings_cases fits.1 with ⟨all, passed⟩ | ⟨other, refused⟩
    · exact .inl ⟨members, bodies, rfl, all, passed⟩
    · exact .inr ⟨fun made => other ((Expr.wellMade_letIn operator).mp made), refused⟩
  · rename_i other tail head
    rw [Expr.fits_cons] at fits
    refine .inr ⟨Expr.flawed_letIn operator ?_, _, by rw [Failure.showing_eq fits.1]⟩
    intro members bodies same
    exact head members (List.cons.inj same).1
  · exact .inr ⟨Expr.flawed_letIn operator (by simp), _, rfl⟩

/-- The induction follows the compiler, one case for each of its branches. -/
theorem all_judged :
    (∀ expr, (∀ n ∈ expr.integers, Numeral.Fits n) →
      Judges compiling expr.reading (branches expr.reading) (compile expr)) ∧
    (∀ args, ∀ {members bodies}, args = .form "" members :: bodies →
      (∀ member ∈ members, member.IsBinding) → (∀ n ∈ Expr.allIntegers args, Numeral.Fits n) →
      Judges compiling (Expr.headReading members ++ Expr.allReading bodies)
        (branches (Expr.headReading members ++ Expr.allReading bodies)) (compileLet args)) ∧
    (∀ exprs, (∀ n ∈ Expr.allIntegers exprs, Numeral.Fits n) →
      Judges compiling (Expr.allReading exprs) (branches (Expr.allReading exprs))
        (compileAll exprs)) ∧
    (∀ members, (∀ member ∈ members, member.IsBinding) →
      (∀ n ∈ Expr.allIntegers members, Numeral.Fits n) →
      Judges compiling (Expr.headReading members) (branches (Expr.headReading members))
        (compileBindings members)) ∧
    (∀ op args, (∀ n ∈ Expr.allIntegers args, Numeral.Fits n) →
      Judges compiling (Expr.allReading args) (branches (Expr.allReading args))
        (compileOperands op args)) := by
  refine compile.mutual_induct _ _ _ _ _ ?int ?bool ?var ?outside ?println ?printCount ?arith
    ?tooFew ?letIn ?ifElse ?branchCount ?group ?unknown ?bound ?unbound ?noBodies ?body ?binding
    ?noBindings ?noOperands ?operand
  case int =>
    intro value _
    rw [compile, Expr.reading]
    exact (Judges.pure _).visit trivial (by simp)
  case bool =>
    intro value _
    rw [compile, Expr.reading]
    exact (Judges.pure _).visit trivial (by simp)
  case var =>
    intro name _
    rw [compile, Expr.reading]
    exact (judges_registerOf name).map _
  case outside =>
    intro name value fits
    rw [compile, Expr.reading]
    exact .refuse id (refuses_showing _ fits)
  case println =>
    intro op arg operator ih fits
    simp only [Expr.integers, Expr.allIntegers, List.append_nil] at fits
    have argument := (ih fits).map (· ++ [.print])
    rw [compile.eq_5 _ _ operator]
    exact .form (by simp [Expr.WellMade, operator]) (by simp [operator]) (by simp [operator])
      (by simp [operator]) (by simpa [Expr.allReading] using argument)
  case printCount =>
    intro op args other operator fits
    rw [compile.eq_6 _ _ operator other]
    exact .flawed (Expr.flawed_println operator other) (refuses_fail _)
  case arith =>
    intro op f first second rest operator ih ihs fits
    rw [Expr.integers, Expr.fits_cons] at fits
    have judged := (ih fits.1).bind fun code => (ihs fits.2).map fun codes => code ++ codes
    rw [compile.eq_7 _ _ _ _ _ operator]
    exact .form (by simp [Expr.WellMade, operator]) (by simp [operator]) (by simp [operator])
      (by simp [operator]) (by rwa [Expr.allReading, branches_append])
  case tooFew =>
    intro op f args other operator fits
    rw [compile.eq_8 _ _ _ operator other]
    exact .flawed (Expr.flawed_arith operator other) (refuses_fail _)
  case letIn =>
    intro op args operator ih fits
    rw [Expr.integers] at fits
    rw [compile.eq_9 _ _ operator]
    rcases bindingsOf_cases operator fits with
      ⟨members, bodies, rfl, all, pairs, passed⟩ | ⟨flawed, fault, refused⟩
    · rw [passed]
      exact .letIn operator all (.ahead (.pure pairs) fun _ => ih rfl all fits)
    · rw [refused]
      exact .flawed flawed (.bind (.fail ⟨fault, rfl⟩))
  case ifElse =>
    intro op condition positive negative operator ihTest ihTrue ihFalse fits
    rw [compile.eq_10 _ _ _ _ operator, Expr.reading_form (by simp [operator])
      (by simp [operator]), branches_form, if_pos operator]
    simp only [Expr.integers, Expr.fits_cons] at fits
    have judged := (ihTest fits.1).bind fun tested => judges_labels fun onFalse onTrue done =>
      (ihTrue fits.2.1).bind fun taken => (ihFalse fits.2.2.1).map fun other =>
        tested ++ [.jumpIfZero onFalse, .label onTrue] ++ taken ++
          [.jump done, .label onFalse] ++ other ++ [.label done]
    -- the branch is reached before its condition, but its labels are drawn after it
    refine .visit (by simp [Expr.WellMade, operator]) (by simp) ?_
    simpa [Expr.allReading, Nat.add_left_comm] using judged
  case branchCount =>
    intro op args other operator fits
    rw [compile.eq_11 _ _ operator other]
    exact .flawed (Expr.flawed_ifElse operator other) (refuses_fail _)
  case group =>
    intro op args operator fits
    rw [compile.eq_12 _ _ operator]
    exact .group operator _
  case unknown =>
    intro op args operator fits
    rw [compile.eq_13 _ _ operator]
    exact .flawed (Expr.flawed_unknown operator) (refuses_fail _)
  case bound =>
    intro members bodies ihBindings ihBodies _ _ same all fits
    cases same
    simp only [Expr.integers, Expr.fits_cons] at fits
    rw [compileLet, branches_append]
    exact (ihBindings all fits.1).bind fun _ => (ihBodies fits.2).map _
  case unbound =>
    intro args other members bodies same
    exact (other members bodies same).elim
  case noBodies =>
    intro _
    rw [compileAll, Expr.allReading]
    exact .pure _
  case body =>
    intro expr rest ih ihs fits
    rw [Expr.fits_cons] at fits
    rw [compileAll, Expr.allReading, branches_append]
    exact (ih fits.1).bind fun _ => (ihs fits.2).map _
  case binding =>
    intro name value rest ih ihs all fits
    simp only [Expr.integers, Expr.fits_cons] at fits
    have others := ihs (List.forall_mem_cons.mp all).2 fits.2
    have judged := (ih fits.1).bind fun code => (judges_assign name).bind fun register =>
      others.map fun codes => code ++ [.store register] ++ codes
    rw [compileBindings, Expr.headReading]
    simpa [branches] using judged
  case noBindings =>
    intro members other all _
    cases members with
    | nil =>
      rw [compileBindings.eq_2 _ other, Expr.headReading]
      exact .pure _
    | cons member rest =>
      obtain ⟨name, value, rfl⟩ := all member List.mem_cons_self
      exact (other name value rest rfl).elim
  case noOperands =>
    intro op _
    rw [compileOperands, Expr.allReading]
    exact .pure _
  case operand =>
    intro op arg rest ih ihs fits
    rw [Expr.fits_cons] at fits
    rw [compileOperands, Expr.allReading, branches_append]
    exact (ih fits.1).bind fun _ => (ihs fits.2).map _

theorem compileProgram_sweeps : Sweeps compile compileProgram := by
  constructor
  · exact ⟨[], rfl⟩
  · intro line form rest
    exact ⟨(· ++ ·), rfl⟩

theorem program_judged {program : Program}
    (fits : ∀ n ∈ Expr.allIntegers program.exprs, Numeral.Fits n) :
    ∀ numbered ∈ program, Judges compiling numbered.form.toExpr.reading
      (branches numbered.form.toExpr.reading) (compile numbered.form.toExpr) :=
  fun numbered member => all_judged.1 _ (Program.fits_of_mem fits numbered member)

/-- A new context has room for all the branches that can be numbered. -/
theorem room_empty {count : Nat} (few : count ≤ Numeral.ceiling) : compiling.room count {} := by
  intro stem _
  have zero : Context.count {} stem = 0 := rfl
  omega

section
variable {program : Program} (fits : ∀ n ∈ Expr.allIntegers program.exprs, Numeral.Fits n)
  (few : branches (Expr.allReading program.exprs) < Numeral.ceiling)
include fits few

theorem compiles_iff : (∃ code after, compileProgram program {} = .ok code after) ↔
    Acceptable [] (Expr.allReading program.exprs) := by
  have judged := compileProgram_sweeps.judged (program_judged fits)
  constructor
  · rintro ⟨code, after, done⟩
    exact (judged.ok (room_empty few.le) done).1
  · intro acceptable
    cases result : compileProgram program {} with
    | ok code after => exact ⟨code, after, rfl⟩
    | error failure after =>
      rcases judged.error (room_empty few.le) result with ⟨_, flawed⟩ | ⟨_, _, excused, _⟩
      · exact (flawed acceptable).elim
      · exact excused.elim

/-- A program that does not compile is reported on the line of its first flaw. -/
theorem refused_at {failure : Failure} {after : Context}
    (failed : compileProgram program {} = .error failure after) :
    ∃ (before : Program) (line : Nat) (form : Form) (rest : Program) (fault : FormFault),
      program = before ++ ⟨line, form⟩ :: rest ∧
      failure = .program ⟨.compile fault, some line⟩ ∧
      Acceptable [] (Expr.allReading before.exprs) ∧
      ¬Acceptable [] (Expr.allReading (before ++ [⟨line, form⟩] : Program).exprs) := by
  obtain ⟨before, line, form, rest, code, middle, cause, same, _, _, rfl, accepted, reason⟩ :=
    compileProgram_sweeps.error (program_judged fits) (room_empty few.le) failed
  rcases reason with ⟨⟨fault, rfl⟩, flawed⟩ | excused
  · exact ⟨before, line, form, rest, fault, same, rfl, accepted, flawed⟩
  · exact excused.elim

end

/-- The compiler accepts exactly the programs in which what is read is acceptable, and otherwise
reports the line of the first form that is not acceptable after those before it. -/
theorem compileProgram_accepts {program : Program}
    (fits : ∀ n ∈ Expr.allIntegers program.exprs, Numeral.Fits n)
    (few : branches (Expr.allReading program.exprs) < Numeral.ceiling) :
    ((∃ code after, compileProgram program {} = .ok code after) ↔
      Acceptable [] (Expr.allReading program.exprs)) ∧
    ∀ failure after, compileProgram program {} = .error failure after →
      ∃ (before : Program) (line : Nat) (form : Form) (rest : Program) (fault : FormFault),
        program = before ++ ⟨line, form⟩ :: rest ∧
        failure = .program ⟨.compile fault, some line⟩ ∧
        Acceptable [] (Expr.allReading before.exprs) ∧
        ¬Acceptable [] (Expr.allReading (before ++ [⟨line, form⟩] : Program).exprs) := by
  constructor
  · exact compiles_iff fits few
  · intro failure after failed
    exact refused_at fits few failed

/-- A name that one branch binds is known in the other branch and in the next form; a binding does
not know the name that it binds. -/
theorem compileProgram_accepts_late :
    let program : Program :=
      [⟨1, "if", [.bool false, .form "let" [.form "" [.binding "x" (.int 1)]], .var "x"]⟩,
        ⟨3, "println", [.var "x"]⟩]
    let longer : Program := program ++ [⟨5, "let", [.form "" [.binding "y" (.var "y")]]⟩]
    Acceptable [] (Expr.allReading program.exprs) ∧
    ∃ failure after, compileProgram longer {} = .error failure after ∧
      ∃ (before : Program) (line : Nat) (form : Form) (rest : Program) (fault : FormFault),
        longer = before ++ ⟨line, form⟩ :: rest ∧
        failure = .program ⟨.compile fault, some line⟩ ∧
        Acceptable [] (Expr.allReading before.exprs) ∧
        ¬Acceptable [] (Expr.allReading (before ++ [⟨line, form⟩] : Program).exprs) := by
  intro program longer
  have one : 1 < Numeral.ceiling := Numeral.fits_natCast.mp (Numeral.fits_small (by decide))
  constructor
  · have runs : passes (fun _ _ => true) (compileProgram program {}) := by
      decide +kernel
    obtain ⟨code, after, done, _⟩ := passes_iff.mp runs
    have few : branches (Expr.allReading program.exprs) = 1 := by
      decide +kernel
    exact (compileProgram_accepts (by decide +kernel) (few ▸ one)).1.mp ⟨code, after, done⟩
  · have failed : compileProgram longer {} =
        .error (.program ⟨.compile (.undefinedVariable "y"), some 5⟩)
          { registers := ⟨[("x", 0)]⟩, next := 1
            counters := ⟨[("fls", 1), ("tru", 1), ("done", 1)]⟩ } := by
      decide +kernel
    have few : branches (Expr.allReading longer.exprs) = 1 := by
      decide +kernel
    exact ⟨_, _, failed, (compileProgram_accepts (by decide +kernel) (few ▸ one)).2 _ _ failed⟩

end StackScheme.Compiler
