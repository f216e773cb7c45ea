import StackScheme.Evaluator
import StackScheme.Proofs.Structured

/-! How an evaluation and a structured execution go along with each other: whenever the evaluation
ends, so does the execution, with the same values under the same names and the same output. -/
namespace StackScheme.Evaluator
open Stateful

/-- The environment has the values of the registers, under the names of the registers. -/
structure Matches (names : Table String Nat) (state : Evaluation) (memory : Memory) : Prop where
  output : state.output = memory.output
  values : ∀ name, state.env.find? name =
    (names.find? name).bind fun register => memory.registers.find? register

/-- Something that has no value stands where one is needed. -/
def Lacks (failure : Failure) : Prop :=
  ∃ shown line, failure = .program ⟨.noValue shown, line⟩

/-- The trouble of an execution that goes with the failure of an evaluation. -/
inductive Answers (names : Table String Nat) : Failure → Trouble → Prop
  | undefined {name register line} (assigned : names.find? name = some register) :
      Answers names (.program ⟨.evaluate (.undefinedVariable name), line⟩) (.unset register)
  | unprintable : Answers names (.numeral .tooLongToWrite) .unprintable

/-- From this stack the action goes along with the evaluation, as long as nothing lacks a value. The
condition holds of the value and the stack at the end. -/
def Tracks {α : Type} (names : Table String Nat) (stack : List Int) (evaluation : EvalM α)
    (action : MemoryM Unit) (post : α → List Int → Prop) : Prop :=
  ∀ state memory, Matches names state memory → memory.stack = stack →
    match evaluation state with
    | .ok value state => ∃ after, action memory = .ok () after ∧ Matches names state after ∧
      post value after.stack
    | .error failure state => Lacks failure ∨ ∃ trouble after,
      action memory = .error trouble after ∧ Matches names state after ∧
        Answers names failure trouble

/-- No two names have the same register. -/
def Distinct (names : Table String Nat) : Prop :=
  ∀ name other register, names.find? name = some register → names.find? other = some register →
    name = other

theorem remark_done (expr : Expr) (bodies : List Expr) (state : Evaluation) :
    ∃ log, remark expr bodies state = .ok () { state with log } := by
  unfold remark
  split
  · exact ⟨_, rfl⟩
  · exact ⟨_, rfl⟩

theorem pop_done {memory : Memory} {value : Int} {stack : List Int}
    (start : memory.stack = value :: stack) :
    Memory.pop memory = .ok value { memory with stack } := by
  simp only [Memory.pop, start]

namespace Tracks
variable {α β : Type} {names : Table String Nat} {stack middle : List Int} {evaluation : EvalM α}
  {action following : MemoryM Unit} {post : α → List Int → Prop}

theorem bind {next : α → EvalM β} {last : β → List Int → Prop}
    (first : Tracks names stack evaluation action post)
    (second : ∀ value middle, post value middle → Tracks names middle (next value) following last) :
    Tracks names stack (evaluation >>= next) (action >>= fun _ => following) last := by
  intro state memory same start
  have begun := first state memory same start
  rw [bind_apply]
  cases result : evaluation state with
  | ok value state =>
    simp only [result] at begun
    obtain ⟨after, done, same, holds⟩ := begun
    rw [bind_ok done]
    exact second value after.stack holds state after same rfl
  | error failure state =>
    simp only [result] at begun
    obtain lacks | ⟨trouble, after, failed, same, answers⟩ := begun
    · exact Or.inl lacks
    · exact Or.inr ⟨trouble, after, bind_error failed, same, answers⟩

theorem map {f : α → β} {last : β → List Int → Prop}
    (tracks : Tracks names stack evaluation action post)
    (weaker : ∀ value after, post value after → last (f value) after) :
    Tracks names stack (evaluation >>= fun value => pure (f value)) action last := by
  intro state memory same start
  have ended := tracks state memory same start
  rw [bind_apply]
  cases result : evaluation state with
  | ok value state =>
    simp only [result] at ended
    obtain ⟨after, done, same, holds⟩ := ended
    exact ⟨after, done, same, weaker value _ holds⟩
  | error failure state =>
    simp only [result] at ended
    exact ended

theorem weaken {last : α → List Int → Prop} (tracks : Tracks names stack evaluation action post)
    (weaker : ∀ value after, post value after → last value after) :
    Tracks names stack evaluation action last := by
  simpa using tracks.map (f := id) weaker

theorem nothing {value : α} (holds : post value stack) :
    Tracks names stack (pure value) (pure ()) post := by
  rintro state memory same rfl
  exact ⟨memory, rfl, same, holds⟩

/-- Where a value is needed, evaluation goes on only if there is one. -/
theorem demand {expr : Expr} {value : Option Int} {next : Int → EvalM β}
    {last : β → List Int → Prop} (fits : ∀ n ∈ expr.integers, Numeral.Fits n)
    (present : ∀ number, value = some number → Tracks names stack (next number) action last) :
    Tracks names stack (demand expr value >>= next) action last := by
  intro state memory same start
  cases value with
  | none =>
    have failed : Evaluator.demand expr none state =
        .error (.ofFault (.noValue expr.text)) state := by
      simp only [Evaluator.demand, Failure.showing, Expr.write, Numeral.writeAmong]
      rw [if_pos fits]
    rw [bind_error failed]
    exact Or.inl ⟨_, _, rfl⟩
  | some number => exact present number rfl state memory same start

theorem remark {expr : Expr} {bodies : List Expr} {next : EvalM β} {last : β → List Int → Prop}
    (tracks : Tracks names stack next action last) :
    Tracks names stack (remark expr bodies >>= fun _ => next) action last := by
  intro state memory same start
  obtain ⟨log, done⟩ := remark_done expr bodies state
  rw [bind_ok done]
  exact tracks _ memory ⟨same.output, same.values⟩ start

/-- What only the execution does. -/
theorem ahead {last : α → List Int → Prop}
    (done : ∀ memory : Memory, memory.stack = stack → action memory = .ok () { memory with
      stack := middle })
    (tracks : Tracks names middle evaluation following last) :
    Tracks names stack evaluation (action >>= fun _ => following) last := by
  intro state memory same start
  rw [bind_ok (done memory start)]
  exact tracks state _ ⟨same.output, same.values⟩ rfl

theorem pop {value : Int} {next : Int → MemoryM Unit} {last : α → List Int → Prop}
    (tracks : Tracks names stack evaluation (next value) last) :
    Tracks names (value :: stack) evaluation (Memory.pop >>= next) last := by
  intro state memory same start
  rw [bind_ok (pop_done start)]
  exact tracks state _ ⟨same.output, same.values⟩ rfl

theorem push {value : α} {number : Int} (holds : post value (number :: stack)) :
    Tracks names stack (pure value) (Memory.push number) post := by
  rintro state memory same rfl
  exact ⟨_, rfl, ⟨same.output, same.values⟩, holds⟩

theorem printLine (value : Int) : Tracks names stack (printLine value) (Memory.printLine value)
    fun _ after => after = stack := by
  rintro state memory same rfl
  by_cases fits : Numeral.Fits value
  · simp only [Evaluator.printLine, Memory.printLine, Numeral.write, fits, if_true]
    exact ⟨_, rfl, ⟨by simp only [same.output], same.values⟩, rfl⟩
  · simp only [Evaluator.printLine, Memory.printLine, Numeral.write, fits, if_false]
    exact Or.inr ⟨_, _, rfl, same, .unprintable⟩

theorem fetch {name : String} {register : Nat} (assigned : names.find? name = some register) :
    Tracks names stack (lookup name) (Structured.fetch names name)
      fun value after => after = value :: stack := by
  rintro state memory same rfl
  have found := same.values name
  rw [assigned, Option.bind_some] at found
  rw [Structured.fetch, assigned]
  cases value : memory.registers.find? register with
  | none =>
    simp only [lookup, found, value, bind_apply, Memory.load]
    exact Or.inr ⟨_, _, rfl, same, .undefined assigned⟩
  | some number =>
    simp only [lookup, found, value, bind_apply, Memory.load]
    exact ⟨_, rfl, ⟨same.output, same.values⟩, rfl⟩

theorem keep {name : String} {register : Nat} (assigned : names.find? name = some register)
    (distinct : Distinct names) (value : Int) :
    Tracks names (value :: stack) (bindName name value) (Structured.keep names name)
      fun _ after => after = stack := by
  rw [Structured.keep, assigned]
  refine pop ?_
  rintro state memory same rfl
  refine ⟨_, rfl, ⟨same.output, ?_⟩, rfl⟩
  intro other
  simp only [Table.find?_insert]
  by_cases equal : name = other
  · subst equal
    simp [assigned]
  · rw [if_neg equal, same.values]
    cases found : names.find? other with
    | none => rfl
    | some number =>
      have apart : (register : Int) ≠ number := by
        intro shared
        have numbers : register = number := by omega
        exact equal (distinct name other register assigned (numbers ▸ found))
      simp only [Option.bind_some, if_neg apart]

theorem onLine (tracks : Tracks names stack evaluation action post) (line : Nat) :
    Tracks names stack (Failure.onLine line evaluation) action post := by
  intro state memory same start
  have ended := tracks state memory same start
  rw [Failure.onLine]
  cases result : evaluation state with
  | ok value state =>
    simp only [result] at ended
    exact ended
  | error failure state =>
    simp only [result] at ended
    obtain ⟨shown, inner, rfl⟩ | ⟨trouble, after, failed, same, answers⟩ := ended
    · exact Or.inl ⟨shown, _, rfl⟩
    · refine Or.inr ⟨trouble, after, failed, same, ?_⟩
      cases answers with
      | undefined assigned => exact .undefined assigned
      | unprintable => exact .unprintable

end Tracks
end StackScheme.Evaluator
