import TokenCake.Library.Machine

/-!
# Computations in lockstep

Rules for two fallible computations that fail alike or return related values, and for those
that are only compared if both of them return.  A relation that every step keeps is kept by
folds, loops and runs.
-/

namespace TokenCake

/-- Two computations fail alike, or both return related values. -/
inductive Agrees (relation : α → β → Prop) : Except ε α → Except ε β → Prop where
  | ok {first : α} {second : β} (related : relation first second) :
      Agrees relation (.ok first) (.ok second)
  | error (failure : ε) : Agrees relation (.error failure) (.error failure)

variable {relation : α → β → Prop} {right : Except ε β} {left : Except ε α} {state : σ} {other : τ}
  {rightStep : τ → ι → Except ε τ} {leftStep : σ → ι → Except ε σ}
  {following : γ → δ → Prop} {leftNext : α → Except ε γ} {rightNext : β → Except ε δ}

namespace Agrees

theorem self (action : Except ε α) : Agrees Eq action action := by
  cases action with
  | ok value => exact .ok rfl
  | error failure => exact .error failure

theorem bind (first : Agrees relation left right) (second : ∀ value other, relation value other →
      Agrees following (leftNext value) (rightNext other)) :
    Agrees following (left >>= leftNext) (right >>= rightNext) := by
  cases first with
  | ok related => exact second _ _ related
  | error failure => exact .error failure

/-- Both computations begin with the same action. -/
theorem bind_self (action : Except ε α) {rightNext : α → Except ε δ}
    (second : ∀ value, Agrees following (leftNext value) (rightNext value)) :
    Agrees following (action >>= leftNext) (action >>= rightNext) :=
  (self action).bind fun value _ same => same ▸ second value

theorem ite {condition : Prop} [Decidable condition] {leftElse : Except ε α}
    {rightElse : Except ε β} (holds : condition → Agrees relation left right)
    (fails : ¬ condition → Agrees relation leftElse rightElse) :
    Agrees relation (if condition then left else leftElse)
      (if condition then right else rightElse) := by
  split
  · next true_ => exact holds true_
  · next false_ => exact fails false_

theorem foldlM {relation : σ → τ → Prop} (step : ∀ state other item, relation state other →
      Agrees relation (leftStep state item) (rightStep other item))
    (items : List ι) (initial : relation state other) :
    Agrees relation (items.foldlM leftStep state) (items.foldlM rightStep other) := by
  induction items generalizing state other with
  | nil => exact .ok initial
  | cons item items ih =>
    rw [List.foldlM_cons, List.foldlM_cons]
    exact (step state other item initial).bind fun _ _ => ih

theorem loop {relation : σ → τ → Prop} {leftDone : σ → Bool} {rightDone : τ → Bool}
    {leftTransition : σ → Except ε σ} {rightTransition : τ → Except ε τ}
    (done : ∀ state other, relation state other → leftDone state = rightDone other)
    (transition : ∀ state other, relation state other →
      Agrees relation (leftTransition state) (rightTransition other))
    (outOfFuel : ε) (fuel : Nat) (initial : relation state other) :
    Agrees relation (Machine.loop leftDone leftTransition outOfFuel fuel state)
      (Machine.loop rightDone rightTransition outOfFuel fuel other) := by
  induction fuel generalizing state other with
  | zero =>
    unfold Machine.loop
    rw [done state other initial]
    exact .ite (fun _ => .ok initial) (fun _ => .error outOfFuel)
  | succ fuel ih =>
    unfold Machine.loop
    rw [done state other initial]
    exact .ite (fun _ => .ok initial) (fun _ => (transition state other initial).bind fun _ _ => ih)

/-- Runs of two machines on the same operations stay related, if all operations meet a condition
on the first machine. -/
theorem run {relation : σ → τ → Prop} {condition : σ → ι → Prop}
    (step : ∀ state other operation, relation state other → condition state operation →
      Agrees relation (leftStep state operation) (rightStep other operation)) {operations : List ι}
    (initial : relation state other) (along : Machine.Along leftStep condition state operations) :
    Agrees relation (Machine.run leftStep state operations)
      (Machine.run rightStep other operations) := by
  induction operations generalizing state other with
  | nil => exact .ok initial
  | cons operation operations ih =>
    unfold Machine.run
    have agrees := step state other operation initial along.1
    cases stepped : leftStep state operation with
    | error failure =>
      rw [stepped] at agrees
      generalize rightStep other operation = right at agrees ⊢
      cases agrees
      exact .error failure
    | ok next =>
      rw [stepped] at agrees
      generalize rightStep other operation = right at agrees ⊢
      cases agrees with
      | ok related => exact ih related (along.2 next stepped)

theorem imp {weaker : α → β → Prop} (agrees : Agrees relation left right)
    (weakens : ∀ value other, relation value other → weaker value other) :
    Agrees weaker left right := by
  cases agrees with
  | ok related => exact .ok (weakens _ _ related)
  | error failure => exact .error failure

/-- What the first computation guarantees holds of related results. -/
theorem and_left {guarantee : α → Prop} (agrees : Agrees relation left right)
    (guaranteed : ∀ value, left = .ok value → guarantee value) :
    Agrees (fun value other => relation value other ∧ guarantee value) left right := by
  cases agrees with
  | ok related => exact .ok ⟨related, guaranteed _ rfl⟩
  | error failure => exact .error failure

/-- A computation whose result is an image of the other one. -/
theorem map_eq {image : α → β}
    (agrees : Agrees (fun value other => other = image value) left right) :
    right = left.map image := by
  cases agrees with
  | ok related => exact congrArg Except.ok related
  | error failure => rfl

end Agrees

/-- Two actions return related values whenever both return. -/
def Relates (relation : α → β → Prop) (left : Except ε α) (right : Except ε β) : Prop :=
  ∀ first second, left = .ok first → right = .ok second → relation first second

namespace Relates

theorem ok {first : α} {second : β} (related : relation first second) :
    Relates relation (.ok first : Except ε α) (.ok second : Except ε β) := by
  rintro _ _ ⟨⟩ ⟨⟩
  exact related

theorem self (action : Except ε α) : Relates Eq action action := by
  intro first second left right
  rw [left, Except.ok.injEq] at right
  exact right

theorem error_left (failure : ε)
    (right : Except ε β) : Relates relation (.error failure : Except ε α) right :=
  fun _ _ failed => nomatch failed

theorem error_right (left : Except ε α)
    (failure : ε) : Relates relation left (.error failure : Except ε β) :=
  fun _ _ _ failed => nomatch failed

theorem bind (first : Relates relation left right) (second : ∀ value other, relation value other →
      Relates following (leftNext value) (rightNext other)) :
    Relates following (left >>= leftNext) (right >>= rightNext) := by
  intro result otherResult leftReturned rightReturned
  obtain ⟨value, leftFirst, leftRest⟩ := bind_eq_ok.mp leftReturned
  obtain ⟨other, rightFirst, rightRest⟩ := bind_eq_ok.mp rightReturned
  exact second value other (first value other leftFirst rightFirst) result otherResult
    leftRest rightRest

/-- A step that keeps related states related does so for a whole list. -/
theorem foldlM {relation : σ → τ → Prop} (step : ∀ state other item, relation state other →
      Relates relation (leftStep state item) (rightStep other item))
    (items : List ι) (initial : relation state other) :
    Relates relation (items.foldlM leftStep state) (items.foldlM rightStep other) := by
  induction items generalizing state other with
  | nil => exact ok initial
  | cons item items ih =>
    rw [List.foldlM_cons, List.foldlM_cons]
    exact (step state other item initial).bind fun _ _ => ih

/-- Runs of two machines on the same operations stay related, if all operations meet
the condition of the step. -/
theorem run {relation : σ → τ → Prop} {condition : ι → Prop}
    (step : ∀ state other operation, relation state other → condition operation →
      Relates relation (leftStep state operation) (rightStep other operation)) {operations : List ι}
    (admissible : ∀ operation ∈ operations, condition operation) (initial : relation state other) :
    Relates relation (Machine.run leftStep state operations)
      (Machine.run rightStep other operations) := by
  induction operations generalizing state other with
  | nil => exact ok initial
  | cons operation operations ih =>
    refine (step state other operation initial (admissible _ List.mem_cons_self)).bind
      fun next otherNext related => ?_
    exact ih (fun later mem => admissible later (.tail _ mem)) related

end Relates

end TokenCake
