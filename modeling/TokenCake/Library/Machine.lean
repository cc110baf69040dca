import Mathlib.Data.List.Forall2
import Mathlib.Order.Basic

/-!
# Runs of state machines

Rules that turn a statement about one step into a statement about every run.  The steps of a
fallible machine return a state or fail; they are run for the operations of a list, or in a loop
with a termination test and a bound on the number of rounds, for which we also describe the
states the loop visits.  The steps of a transducer do not fail: they write output for every item
they read and at the end of the input.
-/

namespace TokenCake

open List

section Results

variable {action : Except ε α} {continuation : α → Except ε β}

theorem bind_eq_ok {result : β} :
    (action >>= continuation) = .ok result ↔
      ∃ value, action = .ok value ∧ continuation value = .ok result := by
  cases action with
  | error failure | ok value => simp [bind, Except.bind]

theorem bind_eq_error {failure : ε} :
    (action >>= continuation) = .error failure ↔ action = .error failure ∨
        ∃ value, action = .ok value ∧ continuation value = .error failure := by
  cases action with
  | error other | ok value => simp [bind, Except.bind]

theorem ok_of_toOption_eq_some {value : α}
    (returned : action.toOption = some value) : action = .ok value := by
  cases action with
  | error failure => cases returned
  | ok result =>
    cases returned
    rfl

/-- The result of a computation that returns. -/
theorem eq_ok_getD_of_isSome (result : Except ε α) (default : α)
    (returns : result.toOption.isSome = true) : result = .ok (result.toOption.getD default) := by
  cases result with
  | ok value => rfl
  | error failure => cases returns

/-- The failure of a result, if it failed. -/
def failureOf : Except ε α → Option ε
  | .ok _ => none
  | .error failure => some failure

/-- An action fails in none of the ways of a given kind. -/
def Avoids (bad : ε → Prop) (action : Except ε α) : Prop :=
  ∀ failure, action = .error failure → ¬ bad failure

namespace Avoids

variable {bad : ε → Prop}

theorem ok (value : α) : Avoids bad (.ok value : Except ε α) :=
  fun _ failed => nomatch failed

theorem error {failure : ε} (harmless : ¬ bad failure) :
    Avoids bad (.error failure : Except ε α) := by
  rintro _ ⟨⟩
  exact harmless

theorem bind (first : Avoids bad action)
    (second : ∀ value, action = .ok value → Avoids bad (continuation value)) :
    Avoids bad (action >>= continuation) := by
  intro failure failed
  rcases bind_eq_error.mp failed with stuck | ⟨value, returned, stuck⟩
  · exact first failure stuck
  · exact second value returned failure stuck

theorem mapM {action : α → Except ε β} {items : List α}
    (each : ∀ item ∈ items, Avoids bad (action item)) : Avoids bad (items.mapM action) := by
  induction items with
  | nil => exact ok []
  | cons item items ih =>
    rw [mapM_cons]
    refine bind (each item mem_cons_self) fun _ _ => ?_
    refine bind (ih fun other mem =>
      each other (mem_cons_of_mem item mem)) fun _ _ => ok _

end Avoids

/-- An action fails in none of the ways of a given kind, and what it returns is good. -/
structure Returns (bad : ε → Prop) (good : α → Prop) (action : Except ε α) : Prop where
  avoids : Avoids bad action
  good : ∀ value, action = .ok value → good value

namespace Returns

variable {bad : ε → Prop} {good : α → Prop} {result : β → Prop}

theorem ok {value : α} (isGood : good value) : Returns bad good (.ok value : Except ε α) where
  avoids := .ok value
  good := by
    rintro _ ⟨⟩
    exact isGood

theorem imp {weaker : α → Prop} (returns : Returns bad good action)
    (implies : ∀ value, good value → weaker value) : Returns bad weaker action :=
  ⟨returns.avoids, fun value returned => implies value (returns.good value returned)⟩

theorem bind (first : Returns bad good action)
    (second : ∀ value, good value → Returns bad result (continuation value)) :
    Returns bad result (action >>= continuation) where
  avoids := first.avoids.bind fun value returned => (second value (first.good value returned)).avoids
  good := fun _ returned => by
    obtain ⟨value, isValue, returned⟩ := bind_eq_ok.mp returned
    exact (second value (first.good value isValue)).good _ returned

theorem ok_bind {value : α} (returns : Returns bad result (continuation value)) :
    Returns bad result ((.ok value : Except ε α) >>= continuation) :=
  returns

end Returns

end Results

/-- An invariant that every step of a fold preserves holds of its result. -/
@[elab_as_elim]
theorem invariant_of_foldlM {step : σ → ι → Except ε σ} {invariant : σ → Prop}
    (preserved : ∀ state item next, invariant state → step state item = .ok next → invariant next)
    {items : List ι} {state final : σ} (initial : invariant state)
    (folded : items.foldlM step state = .ok final) : invariant final := by
  induction items generalizing state with
  | nil =>
    cases folded
    exact initial
  | cons item items ih =>
    rw [foldlM_cons] at folded
    obtain ⟨next, stepped, rest⟩ := bind_eq_ok.mp folded
    exact ih (preserved state item next initial stepped) rest

/-- A fold whose steps return and keep an invariant of the items folded so far returns with the
invariant of all items. -/
theorem foldlM_eq_ok_of_prefix {step : σ → ι → Except ε σ} {invariant : List ι → σ → Prop}
    (returns : ∀ before state item, invariant before state →
      ∃ next, step state item = .ok next ∧ invariant (before ++ [item]) next) (items : List ι)
    {state : σ} (initial : invariant [] state) :
    ∃ final, items.foldlM step state = .ok final ∧ invariant items final := by
  have folds : ∀ (before : List ι) (state : σ), invariant before state →
      ∃ final, items.foldlM step state = .ok final ∧ invariant (before ++ items) final := by
    induction items with
    | nil =>
      intro before state holds
      rw [append_nil]
      exact ⟨state, rfl, holds⟩
    | cons item items ih =>
      intro before state holds
      obtain ⟨next, stepped, kept⟩ := returns before state item holds
      obtain ⟨final, folded, result⟩ := ih (before ++ [item]) next kept
      rw [foldlM_cons, stepped, append_cons]
      exact ⟨final, folded, result⟩
  exact folds [] state initial

namespace Machine

section Operations

variable (step : σ → ι → Except ε σ)

/-- Apply a sequence of operations; the first failure ends the run. -/
def run : σ → List ι → Except ε σ
  | state, [] => .ok state
  | state, operation :: operations => do
      let next ← step state operation
      run next operations

theorem run_cons_eq_ok {state final : σ} {operation : ι} {operations : List ι} :
    run step state (operation :: operations) = .ok final ↔
      ∃ next, step state operation = .ok next ∧ run step next operations = .ok final :=
  bind_eq_ok

/-- Every operation of a run meets a condition on the state it is applied to. -/
def Along (condition : σ → ι → Prop) : σ → List ι → Prop
  | _, [] => True
  | state, operation :: operations =>
    condition state operation ∧
      ∀ next, step state operation = .ok next → Along condition next operations

/-- Run a sequence of operations and test a condition before each of them. -/
def checkAlong (check : σ → ι → Bool) : σ → List ι → Bool
  | _, [] => true
  | state, operation :: operations =>
    check state operation &&
      match step state operation with
      | .ok next => checkAlong check next operations
      | .error _ => true

theorem along_of_checkAlong
    {condition : σ → ι → Prop} [decision : ∀ state operation, Decidable (condition state operation)]
    {state : σ} {operations : List ι}
    (checked : checkAlong step (fun state operation => decide (condition state operation))
      state operations = true) : Along step condition state operations := by
  induction operations generalizing state with
  | nil => trivial
  | cons operation operations ih =>
    unfold checkAlong at checked
    rw [Bool.and_eq_true] at checked
    refine ⟨of_decide_eq_true checked.1, fun next stepped => ?_⟩
    rw [stepped] at checked
    exact ih checked.2

variable {step} {condition : σ → ι → Prop} {state final : σ} {operations : List ι}

/-- A weaker condition holds along the same run. -/
theorem Along.imp {weaker : σ → ι → Prop} (along : Along step condition state operations)
    (implies : ∀ state operation, condition state operation → weaker state operation) :
    Along step weaker state operations := by
  induction operations generalizing state with
  | nil => trivial
  | cons operation operations ih =>
    exact ⟨implies _ _ along.1, fun next stepped => ih (along.2 next stepped)⟩

theorem along_true (operations : List ι) : Along step (fun _ _ => True) state operations := by
  induction operations generalizing state with
  | nil => trivial
  | cons operation operations ih => exact ⟨trivial, fun _ _ => ih⟩

/-- An invariant that every admissible operation preserves holds after every
run of admissible operations. -/
@[elab_as_elim]
theorem invariant_of_run {invariant : σ → Prop}
    (preserved : ∀ state operation next, invariant state → condition state operation →
        step state operation = .ok next → invariant next)
    (initial : invariant state) (along : Along step condition state operations)
    (reached : run step state operations = .ok final) : invariant final := by
  induction operations generalizing state with
  | nil =>
    cases reached
    exact initial
  | cons operation operations ih =>
    obtain ⟨next, stepped, rest⟩ := (run_cons_eq_ok step).mp reached
    exact ih (preserved state operation next initial along.1 stepped) (along.2 next stepped) rest

end Operations

section Loop

variable (done : σ → Bool) (transition : σ → Except ε σ) (outOfFuel : ε)

/-- Repeat a transition until the test holds, within a bounded number of rounds. -/
def loop : Nat → σ → Except ε σ
  | 0, state => if done state then .ok state else .error outOfFuel
  | fuel + 1, state =>
    if done state then .ok state
    else do
      let next ← transition state
      loop fuel next

/-- The states a loop passes through, its first and last one included. -/
inductive Visits : σ → σ → Prop where
  | start (state : σ) : Visits state state
  | next {first state following : σ} (visited : Visits first state) (continues : done state = false)
      (stepped : transition state = .ok following) : Visits first following

variable {done transition outOfFuel} {fuel : Nat} {state final : σ}

theorem Visits.trans {first second third : σ}
    (left : Visits done transition first second) (right : Visits done transition second third) :
    Visits done transition first third := by
  induction right with
  | start => exact left
  | next _ continues stepped ih =>
    exact .next ih continues stepped

/-- A loop that returns ends in a visited state that passes the test. -/
theorem visits_of_loop_eq_ok (returned : loop done transition outOfFuel fuel state = .ok final) :
    Visits done transition state final ∧ done final = true := by
  induction fuel generalizing state with
  | zero =>
    unfold loop at returned
    split at returned
    · next finished =>
      cases returned
      exact ⟨.start _, finished⟩
    · cases returned
  | succ fuel ih =>
    unfold loop at returned
    split at returned
    · next finished =>
      cases returned
      exact ⟨.start _, finished⟩
    · next continues =>
      obtain ⟨next, stepped, rest⟩ := bind_eq_ok.mp returned
      obtain ⟨visited, finished⟩ := ih rest
      have first : Visits done transition state next :=
        .next (.start state) (by simpa using continues) stepped
      exact ⟨first.trans visited, finished⟩

variable {invariant : σ → Prop}
  (preserved : ∀ state following, invariant state → done state = false →
    transition state = .ok following → invariant following)

include preserved

/-- An invariant of the transition holds in every state the loop visits. -/
theorem invariant_of_visits {first : σ} (initial : invariant first)
    (visited : Visits done transition first state) : invariant state := by
  induction visited with
  | start => exact initial
  | next _ continues stepped ih =>
    exact preserved _ _ ih continues stepped

/-- An invariant of the transition holds when the loop returns. -/
theorem invariant_of_loop (initial : invariant state) (returned : loop done transition outOfFuel fuel state = .ok final) :
    invariant final ∧ done final = true := by
  obtain ⟨visited, finished⟩ := visits_of_loop_eq_ok returned
  exact ⟨invariant_of_visits preserved initial visited, finished⟩

/-- With a measure that every transition decreases and enough fuel, a loop only
fails because a transition fails in a visited state. -/
theorem loop_eq_error (measure : σ → Nat)
    (decreases : ∀ state following, invariant state → done state = false →
        transition state = .ok following → measure following < measure state)
    {failure : ε} (initial : invariant state) (enough : measure state < fuel)
    (failed : loop done transition outOfFuel fuel state = .error failure) :
    ∃ last, invariant last ∧ done last = false ∧ transition last = .error failure := by
  induction fuel generalizing state with
  | zero => omega
  | succ fuel ih =>
    unfold loop at failed
    split at failed
    · cases failed
    · next continues =>
      have running : done state = false := by simpa using continues
      rcases bind_eq_error.mp failed with stuck | ⟨next, stepped, rest⟩
      · exact ⟨state, initial, running, stuck⟩
      · have smaller := decreases state next initial running stepped
        exact ih (preserved state next initial running stepped) (by omega) rest

end Loop

end Machine

/-- A machine that writes output for every item it reads and at the end of the input. -/
structure Transducer (σ : Type u) (ι : Type v) (ω : Type w) where
  start : σ
  step : σ → ι → List ω × σ
  finish : σ → List ω

namespace Transducer

variable (machine : Transducer σ ι ω)

/-- The output for some items and the state behind them. -/
def feed : σ → List ι → List ω × σ
  | state, [] => ([], state)
  | state, item :: items =>
    let (written, next) := machine.step state item
    let (rest, final) := feed next items
    (written ++ rest, final)

/-- The whole output for an input. -/
def transduce (input : List ι) : List ω :=
  (machine.feed machine.start input).1 ++ machine.finish (machine.feed machine.start input).2

@[simp] theorem feed_nil (state : σ) : machine.feed state [] = ([], state) := rfl

theorem feed_cons (state : σ) (item : ι) (items : List ι) :
    machine.feed state (item :: items) =
      ((machine.step state item).1 ++ (machine.feed (machine.step state item).2 items).1,
        (machine.feed (machine.step state item).2 items).2) := rfl

theorem feed_append (state : σ) (first second : List ι) :
    machine.feed state (first ++ second) =
      ((machine.feed state first).1 ++ (machine.feed (machine.feed state first).2 second).1,
        (machine.feed (machine.feed state first).2 second).2) := by
  induction first generalizing state with
  | nil => rfl
  | cons item items ih =>
    rw [cons_append, feed_cons, feed_cons, ih]
    simp only [append_assoc]

@[simp] theorem feed_singleton (state : σ) (item : ι) :
    machine.feed state [item] = machine.step state item := by
  rw [feed_cons, feed_nil, append_nil]

/-- What follows an input is read in the state behind it. -/
theorem transduce_append (first second : List ι) :
    machine.transduce (first ++ second) = (machine.feed machine.start first).1 ++
        ((machine.feed (machine.feed machine.start first).2 second).1 ++
          machine.finish (machine.feed (machine.feed machine.start first).2 second).2) := by
  unfold transduce
  rw [feed_append]
  simp only [append_assoc]

/-- An item resets a state if it is read there as at the start, behind the end of what came
before. -/
def Resets (state : σ) (item : ι) : Prop :=
  machine.step state item = (machine.finish state ++ (machine.step machine.start item).1,
      (machine.step machine.start item).2)

/-- An input that begins with a reset is independent of what came before. -/
theorem feed_of_resets (resets : machine.Resets state item) (items : List ι) :
    machine.feed state (item :: items) =
      (machine.finish state ++ (machine.feed machine.start (item :: items)).1,
        (machine.feed machine.start (item :: items)).2) := by
  rw [feed_cons, feed_cons, resets]
  simp only [append_assoc]

end Transducer

end TokenCake
