import StackScheme.Proofs.Compiler.Record
import StackScheme.Proofs.Static.Reading

/-! The registers that code uses are those that are handed out while it is compiled. In the order in
which a form is read, each binding and each variable is granted a register, and the stores and loads
of the code have these registers, in the same order. A compilation that fails has gone through the
first of them. -/
namespace StackScheme

/-- The instruction that the register is for. -/
def Grant.access? : Grant → Option Instr
  | .label _ => none
  | .stored _ register => some (.store register)
  | .loaded _ register => some (.load register)

/-- The occurrence of the name that the register is for. -/
def Grant.occurrence? : Grant → Option Occurrence
  | .label _ => none
  | .stored name _ => some (.bound name)
  | .loaded name _ => some (.reached (.var name))

/-- The instruction stores to a register or loads one. -/
@[simp] def Instr.usesRegister : Instr → Bool
  | .store _ | .load _ => true
  | .push _ | .print | .arith _ | .jump _ | .jumpIfZero _ | .jumpIfNonzero _ | .label _ => false

namespace Occurrence

/-- A name is bound here, or it is used. -/
def ofName : Occurrence → Bool
  | .bound _ | .reached (.var _) => true
  | .reached _ => false

/-- The names that occur, in reading order. -/
def named (occurrences : List Occurrence) : List Occurrence :=
  occurrences.filter ofName

@[simp] theorem named_append (occurrences others : List Occurrence) :
    named (occurrences ++ others) = named occurrences ++ named others :=
  List.filter_append ..

end Occurrence

namespace Code

/-- The stores and loads of the code, in order. -/
def accesses (code : Code) : Code :=
  code.filter Instr.usesRegister

@[simp] theorem accesses_append (first second : Code) :
    accesses (first ++ second) = first.accesses ++ second.accesses :=
  List.filter_append ..

end Code

theorem Compiler.checkBindings_binds {members : List Expr} {pairs : List (String × Expr)}
    (checked : checkBindings members = .ok pairs) : ∀ member ∈ members, member.IsBinding := by
  induction members generalizing pairs with
  | nil => simp
  | cons member rest ih =>
    cases member with
    | binding name value =>
      obtain ⟨others, following, _⟩ := Fallible.bind_eq_ok.mp checked
      exact List.forall_mem_cons.mpr ⟨⟨name, value, rfl⟩, ih following⟩
    | _ => contradiction

theorem Compiler.bindingsOf_binds {args : List Expr} {pairs : List (String × Expr)}
    (checked : bindingsOf args = .ok pairs) :
    ∃ members bodies, args = .form "" members :: bodies ∧
      ∀ member ∈ members, member.IsBinding := by
  unfold bindingsOf at checked
  split at checked
  · exact ⟨_, _, rfl, checkBindings_binds checked⟩
  · contradiction
  · contradiction

namespace Record
open Stateful Occurrence Compiler

/-- Where the action succeeds it has granted a register at every name that occurs, and what it comes
to is as it should be with the instructions that the registers are for. Where it fails it has done
so at the first of the names. -/
def Grants {α : Type} (occurrences : List Occurrence) (action : RecordM α)
    (after : α → Code → Prop) : Prop :=
  ∀ record, ∃ grants, (final (action record)).grants = record.grants ++ grants ∧
    match action record with
    | .ok value _ => grants.filterMap Grant.occurrence? = named occurrences ∧
        after value (grants.filterMap Grant.access?)
    | .error _ _ => grants.filterMap Grant.occurrence? <+: named occurrences

namespace Grants
variable {α β : Type} {occurrences others : List Occurrence} {action : RecordM α}
  {after : α → Code → Prop}

theorem pure {value : α} (none : named occurrences = []) (holds : after value []) :
    Grants occurrences (pure value) after :=
  fun _ => ⟨[], by simp [final], none.symm, holds⟩

theorem bind {next : α → RecordM β} {last : β → Code → Prop}
    (first : Grants occurrences action after)
    (second : ∀ value accesses, after value accesses →
      Grants others (next value) fun result further => last result (accesses ++ further)) :
    Grants (occurrences ++ others) (action >>= next) last := by
  intro record
  obtain ⟨grants, added, told⟩ := first record
  rw [bind_apply, named_append]
  cases result : action record with
  | error failure middle =>
    rw [result] at added told
    exact ⟨grants, added, told.trans (List.prefix_append _ _)⟩
  | ok value middle =>
    rw [result] at added told
    obtain ⟨names, holds⟩ := told
    obtain ⟨more, addedNext, toldNext⟩ := second value _ holds middle
    refine ⟨grants ++ more, ?_, ?_⟩
    · rw [addedNext, show middle.grants = record.grants ++ grants from added, List.append_assoc]
    · simp only [List.filterMap_append, names]
      cases further : next value middle with
      | ok result last =>
        rw [further] at toldNext
        exact ⟨by rw [toldNext.1], toldNext.2⟩
      | error failure last =>
        rw [further] at toldNext
        exact (List.prefix_append_right_inj _).mpr toldNext

theorem map {f : α → β} {last : β → Code → Prop} (first : Grants occurrences action after)
    (holds : ∀ value accesses, after value accesses → last (f value) accesses) :
    Grants occurrences (action >>= fun value => Pure.pure (f value)) last := by
  have mapped : Grants (occurrences ++ []) (action >>= fun value => Pure.pure (f value)) last :=
    first.bind fun value accesses told => .pure rfl (by simpa using holds value accesses told)
  rwa [List.append_nil] at mapped

theorem fail (failure : Failure) :
    Grants occurrences (fun record => .error failure record : RecordM α) after :=
  fun _ => ⟨[], by simp [final], List.nil_prefix⟩

theorem assign (name : String) :
    Grants [.bound name] (Supply.assign name)
      fun register accesses => accesses = [.store register] := by
  intro record
  simp only [Supply.assign, noting]
  cases Context.assign name record.context with
  | ok register next => exact ⟨_, rfl, rfl, rfl⟩
  | error failure next => exact ⟨[], by simp [final], List.nil_prefix⟩

theorem registerOf (name : String) :
    Grants [.reached (.var name)] (Supply.registerOf name)
      fun register accesses => accesses = [.load register] := by
  intro record
  simp only [Supply.registerOf, noting]
  cases Context.registerOf name record.context with
  | ok register next => exact ⟨_, rfl, rfl, rfl⟩
  | error failure next => exact ⟨[], by simp [final], List.nil_prefix⟩

theorem freshLabel (stem : String) :
    Grants [] (Supply.freshLabel stem) fun _ accesses => accesses = [] := by
  intro record
  simp only [Supply.freshLabel, noting]
  cases Context.freshLabel stem record.context with
  | ok label next => exact ⟨_, rfl, rfl, rfl⟩
  | error failure next => exact ⟨[], by simp [final], List.nil_prefix⟩

/-- Labels have nothing to do with registers. -/
theorem label (stem : String) {next : String → RecordM α}
    (each : ∀ label, Grants occurrences (next label) after) :
    Grants occurrences (Supply.freshLabel stem >>= next) after := by
  refine (freshLabel stem).bind fun label accesses none => ?_
  rw [none]
  exact each label

theorem branch {next : String → String → String → RecordM α}
    (each : ∀ onFalse onTrue done, Grants occurrences (next onFalse onTrue done) after) :
    Grants occurrences
      (do
        let onFalse ← Supply.freshLabel "fls"
        let onTrue ← Supply.freshLabel "tru"
        let done ← Supply.freshLabel "done"
        next onFalse onTrue done) after := by
  refine .label _ fun onFalse => .label _ fun onTrue => .label _ fun done => ?_
  exact each onFalse onTrue done

theorem form {op : String} {args : List Expr} (grants : Grants occurrences action after) :
    Grants (.reached (.form op args) :: occurrences) action after :=
  grants

/-- A check by which nothing is granted, and what follows if it is passed. -/
theorem lift {result : Except Failure β} {next : β → RecordM α}
    (passed : ∀ value, result = .ok value → Grants occurrences (next value) after) :
    Grants occurrences (Failure.lift result >>= next) after := by
  intro record
  cases same : result with
  | ok value => exact passed value same record
  | error failure => exact ⟨[], by simp [bind_apply, Failure.lift, final], List.nil_prefix⟩

theorem onLine (grants : Grants occurrences action after) (line : Nat) :
    Grants occurrences (Failure.onLine line action) after := by
  intro record
  obtain ⟨more, added, told⟩ := grants record
  refine ⟨more, ?_⟩
  unfold Failure.onLine
  cases result : action record with
  | ok value next | error failure next =>
    rw [result] at added told
    exact ⟨added, told⟩

end Grants

/-- The code has the stores and loads that its registers are for. -/
def Accesses (code accesses : Code) : Prop :=
  code.accesses = accesses

/-- The induction follows the compiler, one case for each of its branches. -/
theorem all_grant : (∀ expr, Grants expr.reading (compile expr) Accesses) ∧
    (∀ args, ∀ {members bodies}, args = .form "" members :: bodies →
      (∀ member ∈ members, member.IsBinding) →
      Grants (Expr.headReading members ++ Expr.allReading bodies) (compileLet args) Accesses) ∧
    (∀ exprs, Grants (Expr.allReading exprs) (compileAll exprs) Accesses) ∧
    (∀ members, (∀ member ∈ members, member.IsBinding) →
      Grants (Expr.headReading members) (compileBindings members) Accesses) ∧
    (∀ op args, Grants (Expr.allReading args) (compileOperands op args) Accesses) := by
  refine compile.mutual_induct _ _ _ _ _ ?int ?bool ?var ?outside ?println ?printCount
    ?arith ?tooFew ?letIn ?ifElse ?branchCount ?group ?unknown ?bound ?unbound ?noBodies ?body
    ?binding ?noBindings ?noOperands ?operand
  case int =>
    intro value
    rw [compile, Expr.reading]
    exact .pure rfl rfl
  case bool =>
    intro value
    rw [compile, Expr.reading]
    exact .pure rfl rfl
  case var =>
    intro name
    rw [compile, Expr.reading]
    refine (Grants.registerOf name).map ?_
    rintro register _ rfl
    rfl
  case outside =>
    intro name value
    rw [compile, Expr.reading]
    exact .fail _
  case println =>
    intro op arg operator ih
    rw [compile.eq_5 _ _ operator, Expr.reading_form (by simp [operator]) (by simp [operator])]
    refine .form ?_
    rw [Expr.allReading, Expr.allReading, List.append_nil]
    refine ih.map ?_
    rintro code _ rfl
    simp [Accesses, Code.accesses]
  case printCount =>
    intro op args other operator
    rw [compile.eq_6 _ _ operator other]
    exact .fail _
  case arith =>
    intro op f first second rest operator ih ihs
    rw [compile.eq_7 _ _ _ _ _ operator, Expr.reading_form (by simp [operator])
      (by simp [operator])]
    refine .form (ih.bind fun code _ start => ihs.map fun codes _ further => ?_)
    rw [Accesses, Code.accesses_append, start, further]
  case tooFew =>
    intro op f args other operator
    rw [compile.eq_8 _ _ _ operator other]
    exact .fail _
  case letIn =>
    intro op args operator ih
    rw [compile.eq_9 _ _ operator]
    refine .lift fun pairs checked => ?_
    obtain ⟨members, bodies, rfl, all⟩ := Compiler.bindingsOf_binds checked
    rw [Expr.reading.eq_6 _ _ _ operator]
    exact .form (ih rfl all)
  case ifElse =>
    intro op condition positive negative operator ihTest ihTrue ihFalse
    rw [compile.eq_10 _ _ _ _ operator, Expr.reading_form (by simp [operator])
      (by simp [operator])]
    simp only [Expr.allReading, List.append_nil]
    refine .form (ihTest.bind ?_)
    rintro tested _ rfl
    refine .branch fun onFalse onTrue done => ihTrue.bind ?_
    rintro taken _ rfl
    refine ihFalse.map ?_
    rintro other _ rfl
    simp [Accesses, Code.accesses]
  case branchCount =>
    intro op args other operator
    rw [compile.eq_11 _ _ operator other]
    exact .fail _
  case group =>
    intro op args operator
    rw [compile.eq_12 _ _ operator, Expr.reading.eq_5 _ _ operator]
    exact .pure rfl rfl
  case unknown =>
    intro op args operator
    rw [compile.eq_13 _ _ operator]
    exact .fail _
  case bound =>
    intro members bodies ihBindings ihBodies _ _ same all
    cases same
    rw [compileLet]
    refine (ihBindings all).bind fun code _ first => ihBodies.map fun codes _ second => ?_
    rw [Accesses, Code.accesses_append, first, second]
  case unbound =>
    intro args other members bodies same
    exact (other members bodies same).elim
  case noBodies =>
    rw [compileAll, Expr.allReading]
    exact .pure rfl rfl
  case body =>
    intro expr rest ih ihs
    rw [compileAll, Expr.allReading]
    refine ih.bind fun code _ first => ihs.map fun codes _ second => ?_
    rw [Accesses, Code.accesses_append, first, second]
  case binding =>
    intro name value rest ih ihs all
    rw [compileBindings, Expr.headReading, List.append_assoc]
    refine ih.bind ?_
    rintro code _ rfl
    refine (Grants.assign name).bind ?_
    rintro register _ rfl
    refine (ihs (List.forall_mem_cons.mp all).2).map ?_
    rintro codes _ rfl
    simp [Accesses, Code.accesses, List.filter_cons]
  case noBindings =>
    intro members other all
    cases members with
    | nil =>
      rw [compileBindings.eq_2 _ other, Expr.headReading]
      exact .pure rfl rfl
    | cons member rest =>
      obtain ⟨name, value, rfl⟩ := all member List.mem_cons_self
      exact (other name value rest rfl).elim
  case noOperands =>
    intro op
    rw [compileOperands, Expr.allReading]
    exact .pure rfl rfl
  case operand =>
    intro op arg rest ih ihs
    rw [compileOperands, Expr.allReading]
    refine ih.bind ?_
    rintro code _ rfl
    refine ihs.map ?_
    rintro codes _ rfl
    simp [Accesses, Code.accesses]

theorem compile_grants (expr : Expr) : Grants expr.reading (compile expr) Accesses :=
  all_grant.1 expr

theorem compileForms_grants (program : Program) :
    Grants (Expr.allReading program.exprs) (compileForms program) Accesses := by
  induction program with
  | nil => exact .pure rfl rfl
  | cons numbered rest ih =>
    obtain ⟨line, form⟩ := numbered
    rw [compileForms, Program.exprs_cons, Expr.allReading]
    refine ((compile_grants form.toExpr).onLine line).bind fun code _ head => ?_
    refine ih.map fun codes _ further => ?_
    rw [Accesses, Code.accesses_append, head, further]

end Record
end StackScheme
