import Mathlib.Logic.Basic

/-! Sequences of operations that may fail, without a state and with one: what a sequence does, and
what its parts have done when it has succeeded. -/
namespace StackScheme

namespace Fallible
variable {ε α β : Type}

theorem bind_eq_ok {first : Except ε α} {next : α → Except ε β} {result : β} :
    (first >>= next) = .ok result ↔ ∃ value, first = .ok value ∧ next value = .ok result := by
  cases first with
  | error failure => simp [bind, Except.bind]
  | ok value => simp [bind, Except.bind]

theorem bind_ok {value : α} {next : α → Except ε β} : (Except.ok value >>= next) = next value :=
  rfl

/-- What comes behind a check is done only if the check is passed. -/
theorem check_eq_ok {condition : Prop} [Decidable condition] {fault : ε}
    {next : Unit → Except ε β} {result : β} :
    (if condition then throw fault >>= next else next ()) = .ok result ↔
      ¬condition ∧ next () = .ok result := by
  by_cases holds : condition
  · simp [holds, throw, throwThe, MonadExceptOf.throw, bind, Except.bind]
  · simp [holds]

theorem mapError_eq_ok {δ : Type} {first : Except ε α} {f : ε → δ} {result : α} :
    first.mapError f = .ok result ↔ first = .ok result := by
  cases first with
  | error failure => exact iff_of_false nofun nofun
  | ok value =>
    change (Except.ok value : Except δ α) = .ok result ↔ _
    simp

end Fallible

namespace Stateful
variable {ε σ α β : Type}

/-- Results can be compared, so what a closed run comes to can be checked by running it. -/
instance decidableEqResult [DecidableEq ε] [DecidableEq σ] [DecidableEq α] :
    DecidableEq (EStateM.Result ε σ α)
  | .ok value state, .ok other after =>
    decidable_of_iff (value = other ∧ state = after) (by simp)
  | .error failure state, .error other after =>
    decidable_of_iff (failure = other ∧ state = after) (by simp)
  | .ok _ _, .error _ _ | .error _ _, .ok _ _ => isFalse (by simp)

@[simp] theorem pure_apply (value : α) (state : σ) :
    (pure value : EStateM ε σ α) state = .ok value state := rfl

theorem bind_apply (first : EStateM ε σ α) (next : α → EStateM ε σ β) (state : σ) :
    (first >>= next) state = match first state with
      | .ok value state => next value state
      | .error failure state => .error failure state := rfl

theorem bind_ok {first : EStateM ε σ α} {next : α → EStateM ε σ β} {value : α} {state middle : σ}
    (done : first state = .ok value middle) : (first >>= next) state = next value middle := by
  rw [bind_apply, done]

theorem bind_error {first : EStateM ε σ α} {next : α → EStateM ε σ β} {failure : ε}
    {state after : σ} (failed : first state = .error failure after) :
    (first >>= next) state = .error failure after := by
  rw [bind_apply, failed]

theorem bind_eq_ok {first : EStateM ε σ α} {next : α → EStateM ε σ β} {result : β}
    {state after : σ} : (first >>= next) state = .ok result after ↔
      ∃ value middle, first state = .ok value middle ∧ next value middle = .ok result after := by
  rw [bind_apply]
  cases first state with
  | ok value middle => simp [and_assoc]
  | error failure middle => simp

theorem pure_eq_ok {value result : α} {state after : σ} :
    (pure value : EStateM ε σ α) state = .ok result after ↔ value = result ∧ state = after := by
  simp

/-- Failures are renamed action by action. -/
theorem adaptExcept_bind {δ : Type} (f : ε → δ) (first : EStateM ε σ α)
    (next : α → EStateM ε σ β) :
    (first >>= next).adaptExcept f =
      first.adaptExcept f >>= fun value => (next value).adaptExcept f := by
  funext state
  rw [bind_apply, EStateM.adaptExcept, EStateM.adaptExcept, bind_apply]
  cases first state <;> rfl

/-- The state in which an action ends, well or badly. -/
def final : EStateM.Result ε σ α → σ
  | .ok _ state | .error _ state => state

/-- The same result in another kind of state. -/
def mapState {τ : Type} (f : σ → τ) : EStateM.Result ε σ α → EStateM.Result ε τ α
  | .ok value state => .ok value (f state)
  | .error failure state => .error failure (f state)

@[simp] theorem final_mapState {τ : Type} (f : σ → τ) (result : EStateM.Result ε σ α) :
    final (mapState f result) = f (final result) := by
  cases result <;> rfl

/-- The value that an action has come to. -/
def value? : EStateM.Result ε σ α → Option α
  | .ok value _ => some value
  | .error _ _ => none

theorem value?_eq_some_iff {result : EStateM.Result ε σ α} {value : α} :
    value? result = some value ↔ ∃ state, result = .ok value state := by
  cases result with
  | ok value state => simp [value?]
  | error failure state => simp [value?]

/-- The failure that an action has ended in. -/
def failure? : EStateM.Result ε σ α → Option ε
  | .ok _ _ => none
  | .error failure _ => some failure

theorem failure?_eq_some_iff {result : EStateM.Result ε σ α} {failure : ε} :
    failure? result = some failure ↔ ∃ state, result = .error failure state := by
  cases result with
  | ok value state => simp [failure?]
  | error failure state => simp [failure?]

/-- The action has succeeded, and what it has come to passes the check. -/
def passes (check : α → σ → Bool) : EStateM.Result ε σ α → Bool
  | .ok value state => check value state
  | .error _ _ => false

theorem passes_iff {check : α → σ → Bool} {result : EStateM.Result ε σ α} :
    passes check result = true ↔ ∃ value state, result = .ok value state ∧ check value state := by
  cases result with
  | ok value state => simp [passes, and_assoc]
  | error failure state => simp [passes]

/-- From a state that satisfies the condition, the action ends as it should or fails in a way that
is allowed. -/
def Ensures (allowed : ε → Prop) (before : σ → Prop) (action : EStateM ε σ α)
    (after : α → σ → Prop) : Prop :=
  ∀ state, before state →
    match action state with
    | .ok value state => after value state
    | .error failure _ => allowed failure

namespace Ensures
variable {allowed : ε → Prop} {before : σ → Prop} {action : EStateM ε σ α}
  {middle after : α → σ → Prop}

theorem bind {next : α → EStateM ε σ β} {last : β → σ → Prop}
    (first : Ensures allowed before action middle)
    (second : ∀ value, Ensures allowed (middle value) (next value) last) :
    Ensures allowed before (action >>= next) last := by
  intro state holds
  have begun := first state holds
  rw [bind_apply]
  cases result : action state with
  | ok value state =>
    simp only [result] at begun
    exact second value state begun
  | error failure state =>
    simp only [result] at begun
    exact begun

theorem pure {value : α} (holds : ∀ state, before state → after value state) :
    Ensures allowed before (pure value) after :=
  holds

theorem ok (ensures : Ensures allowed before action after) {value : α} {state last : σ}
    (holds : before state) (done : action state = .ok value last) : after value last := by
  have ended := ensures state holds
  rwa [done] at ended

theorem strengthen {earlier : σ → Prop} (ensures : Ensures allowed before action after)
    (stronger : ∀ state, earlier state → before state) : Ensures allowed earlier action after :=
  fun state holds => ensures state (stronger state holds)

theorem weaken (ensures : Ensures allowed before action middle)
    (weaker : ∀ value state, middle value state → after value state) :
    Ensures allowed before action after := by
  intro state holds
  have ended := ensures state holds
  cases result : action state with
  | ok value state =>
    simp only [result] at ended
    exact weaker value state ended
  | error failure state =>
    simp only [result] at ended
    exact ended

end Ensures

section
variable {τ δ : Type}

/-- The same value, or failures that correspond, in states that correspond. -/
inductive Paired (states : σ → τ → Prop) (failures : ε → δ → Prop) :
    EStateM.Result ε σ α → EStateM.Result δ τ α → Prop
  | ok {value state other} (same : states state other) :
      Paired states failures (.ok value state) (.ok value other)
  | error {failure fault state other} (alike : failures failure fault)
      (same : states state other) :
      Paired states failures (.error failure state) (.error fault other)

theorem Paired.weaken {states statesLater : σ → τ → Prop} {failures failuresLater : ε → δ → Prop}
    {result : EStateM.Result ε σ α} {result' : EStateM.Result δ τ α}
    (paired : Paired states failures result result')
    (weaker : ∀ state state', states state state' → statesLater state state')
    (fail : ∀ failure state fault, result = .error failure state → failures failure fault →
      failuresLater failure fault) :
    Paired statesLater failuresLater result result' := by
  cases paired with
  | ok same => exact .ok (weaker _ _ same)
  | error alike same => exact .error (fail _ _ _ rfl alike) (weaker _ _ same)

/-- From states that correspond, the two actions come to results that correspond. -/
def Parallel (states : σ → τ → Prop) (failures : ε → δ → Prop) (action : EStateM ε σ α)
    (other : EStateM δ τ α) : Prop :=
  ∀ state state', states state state' →
    Paired states failures (action state) (other state')

namespace Parallel
variable {states : σ → τ → Prop} {failures : ε → δ → Prop} {action : EStateM ε σ α}
  {other : EStateM δ τ α}

theorem pure (value : α) : Parallel states failures (pure value) (pure value) :=
  fun _ _ same => .ok same

theorem bind {next : α → EStateM ε σ β} {following : α → EStateM δ τ β}
    (first : Parallel states failures action other)
    (second : ∀ value, Parallel states failures (next value) (following value)) :
    Parallel states failures (action >>= next) (other >>= following) := by
  intro state state' same
  have begun := first state state' same
  rw [bind_apply, bind_apply]
  generalize action state = result, other state' = result' at begun
  cases begun with
  | ok same => exact second _ _ _ same
  | error alike same => exact .error alike same

end Parallel
end

end Stateful
end StackScheme
