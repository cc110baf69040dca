import TokenCake.KVCache.Manager
import TokenCake.Scheduler.QueueInvariant

/-!
# The failures of a call

Every move brings a call closer to its end.  The running loop advances its
position or shortens the running list; the waiting loop shortens the queues, and
the one turn that refills them happens once.

A transition can only fail for the reasons its state gives: with a consistent
state of the queues it pops no empty queue or order and removes no absent
request, an admission with a proper status is recorded, and an allocation within
its admitted demand is charged.  Any other failure is an assertion, a missing
key, an index or an argument outside its domain.  The call ends within its bound,
and the requests afterwards are those before.
-/

namespace TokenCake

open List Nat

variable {M E : Type} [KVCacheManager M] [EncoderCache E]

namespace Step

open Scheduler

/-- Number of requests that wait. -/
def numQueued (step : Step M E) : Nat :=
  step.scheduler.waiting.length + step.scheduler.skippedWaiting.length

/-- A bound on the rounds of the waiting loop: deferred requests come back once. -/
def rounds (step : Step M E) : Nat :=
  if step.borrowReserved then step.numQueued
  else 2 * step.numQueued + step.reservationDeferred.length + 1

/-- A bound on the transitions of the loop over the running requests. -/
def runningMoves (total : Nat) (step : Step M E) : Nat :=
  3 * (total - step.reqIndex) + 4 * step.scheduler.running.length

/-- A bound on the moves that remain, for a call with a number of requests. -/
def remaining (total : Nat) (step : Step M E) : Nat :=
  match step.phase with
  | .running => step.runningMoves total + 2 + (2 * total + 2) * (total + 3) + 2
  | .growing _ => step.runningMoves total + 1 + (2 * total + 2) * (total + 3) + 2
  | .allocating _ => step.runningMoves total + (2 * total + 2) * (total + 3) + 2
  | .afterRunning => (2 * total + 2) * (total + 3) + 1
  | .waiting => step.rounds * (total + 3) + (total + 2)
  | .choosing pending _ _ => step.rounds * (total + 3) + (pending.length + 1)
  | .admitting _ _ => step.rounds * (total + 3)
  | .done => 0

/-- A request in hand stands inside the running list the call started with. -/
def Positioned (total : Nat) (step : Step M E) : Prop :=
  match step.phase with
  | .growing _ | .allocating _ => step.reqIndex < total
  | _ => True

variable {initial : List RequestId} {env : StepEnvironment} {step next : Step M E}

section

variable (invariant : QueueInvariant initial step)

include invariant

section

omit [KVCacheManager M] [EncoderCache E]

theorem QueueInvariant.length_eq :
    step.numQueued + step.stepSkippedWaiting.length + step.scheduler.running.length =
      initial.length := by
  have length := invariant.conserved.length_eq
  simp only [contents, unstarted, length_append] at length
  exact length

/-- Deferred requests are among those set aside. -/
theorem QueueInvariant.length_deferred_le :
    step.reservationDeferred.length ≤ step.stepSkippedWaiting.length :=
  (subperm_of_subset invariant.deferredNodup invariant.deferredAside).length_le

theorem QueueInvariant.rounds_le : step.rounds ≤ 2 * initial.length + 1 := by
  have length := invariant.length_eq
  have deferred := invariant.length_deferred_le
  unfold rounds
  split <;> omega

end

end

omit [KVCacheManager M] [EncoderCache E] in
/-- A round that takes a request out of a queue is progress. -/
theorem rounds_lt_of_removed (queued : next.numQueued + 1 = step.numQueued)
    (borrow : next.borrowReserved = step.borrowReserved)
    (deferred : next.reservationDeferred.length ≤ step.reservationDeferred.length + 1) :
    next.rounds < step.rounds := by
  unfold rounds
  rw [borrow]
  split <;> omega

variable {id : RequestId} {total : Nat} {name : QueueName}

omit [KVCacheManager M] [EncoderCache E] in
theorem numQueued_of_removed (removed : (step.scheduler.queue name).Perm (id :: rest))
    (waiting : next.scheduler.waiting = (step.scheduler.setQueue name rest).waiting) (skipped :
      next.scheduler.skippedWaiting = (step.scheduler.setQueue name rest).skippedWaiting) :
    next.numQueued + 1 = step.numQueued := by
  have length := removed.length_eq
  unfold numQueued
  rw [waiting, skipped]
  cases name <;> simp only [setQueue, queue, length_cons] at length ⊢ <;> omega

/-- One round less pays for everything that happens within a round. -/
theorem round_lt {before after : Nat} (total extra : Nat) (fewer : after < before) :
    after * (total + 3) + (total + 2) < before * (total + 3) + extra := by
  have scaled : (after + 1) * (total + 3) ≤ before * (total + 3) :=
    mul_le_mul_right _ fewer
  rw [succ_mul] at scaled
  omega

omit [KVCacheManager M] [EncoderCache E] in
theorem one_le_rounds_of_mem (queued : id ∈ step.scheduler.queue name) : 1 ≤ step.rounds := by
  have nonempty : 1 ≤ step.numQueued := by
    have length := length_pos_of_mem queued
    unfold numQueued
    cases name <;> simp only [queue] at length <;> omega
  unfold rounds
  split <;> omega

theorem positioned_afterPreemption (probe : RunningProbe) (victim : RequestId)
    (inside : step.reqIndex < total) : (step.afterPreemption probe victim).Positioned total := by
  unfold Positioned
  by_cases last : victim = probe.requestId
  · simp [afterPreemption, last]
  · simp [afterPreemption, last, inside]

theorem remaining_afterPreemption_le
    (total : Nat) (step : Step M E) (probe : RunningProbe) (victim : RequestId) :
    (step.afterPreemption probe victim).remaining total ≤
      step.runningMoves total + (2 * total + 2) * (total + 3) + 2 := by
  unfold remaining
  by_cases last : victim = probe.requestId
  · simp only [afterPreemption, last, if_true]
    omega
  · simp only [afterPreemption, last, if_false]
    exact le_rfl

/-- The running loop makes progress. -/
theorem remaining_lt_of_runningMove (invariant : QueueInvariant initial step)
    (positioned : step.Positioned initial.length) (move : RunningMove env step next) :
    next.Positioned initial.length ∧
      next.remaining initial.length < step.remaining initial.length := by
  have length := invariant.length_eq
  have current : ∀ {id : RequestId},
      step.scheduler.running[step.reqIndex]? = some id → step.reqIndex < initial.length := by
    intro id found
    have inside := (List.getElem?_eq_some_iff.mp found).1
    omega
  unfold Positioned at positioned
  cases move with
  | leave phase =>
    refine ⟨trivial, ?_⟩
    simp only [remaining, goto, phase]
    omega
  | skipFinished phase id found =>
    have inside := current found
    refine ⟨trivial, ?_⟩
    simp only [remaining, nextRunning, runningMoves, phase]
    omega
  | skipProbed phase id found probe encoder probed =>
    have inside := current found
    refine ⟨trivial, ?_⟩
    simp only [remaining, nextRunning, setEncoder, runningMoves, phase]
    omega
  | prepare phase id found =>
    refine ⟨current found, ?_⟩
    simp only [remaining, goto, withResources, runningMoves, phase]
    omega
  | denyGrowth probe phase =>
    rw [phase] at positioned
    refine ⟨trivial, ?_⟩
    simp only [remaining, nextRunning, runningMoves, phase]
    omega
  | allowGrowth probe phase allowed =>
    rw [phase] at positioned
    refine ⟨positioned, ?_⟩
    simp only [remaining, goto, runningMoves, phase]
    omega
  | schedule probe phase =>
    rw [phase] at positioned
    refine ⟨trivial, ?_⟩
    simp only [remaining, nextRunning, recordEncoderInputs, scheduleSpecTokens, recordRunning,
      withResources, modifyRequest, runningMoves, phase]
    omega
  | preempt probe phase manager _ _ controller _ victim _ _ running removed reqIndex position =>
    rw [phase] at positioned
    have shorter := removed.length_eq
    refine ⟨positioned_afterPreemption _ _ (lt_of_le_of_lt position.1 positioned), ?_⟩
    refine lt_of_le_of_lt (remaining_afterPreemption_le ..) ?_
    simp only [remaining, setRunning, withResources, runningMoves, phase,
      List.length_cons] at shorter ⊢
    omega
  | preemptScheduled probe phase manager _ _ controller _ victim _ _ running removed =>
    rw [phase] at positioned
    have shorter := removed.length_eq
    refine ⟨positioned_afterPreemption _ _ (lt_of_le_of_lt (sub_le ..) positioned), ?_⟩
    refine lt_of_le_of_lt (remaining_afterPreemption_le ..) ?_
    simp only [remaining, withdrawn, setRunning, withResources, runningMoves, phase,
      List.length_cons] at shorter ⊢
    omega
  | enterWaiting phase nonePreempted scheduledLoras =>
    refine ⟨trivial, ?_⟩
    have few := invariant.rounds_le
    have fewer := round_lt initial.length 1 (lt_succ_of_le few)
    simp only [remaining, phase]
    exact fewer
  | skipWaiting phase scheduledLoras =>
    refine ⟨trivial, ?_⟩
    simp only [remaining, phase]
    omega

variable (candidate : RequestId × QueueName) (best : RequestId × QueueName)
  (pending : List (RequestId × QueueName)) (eligible : List (RequestId × QueueName))
  {scheduler : Scheduler M E} {ready : Bool} (rank : Nat)

section

omit [KVCacheManager M] [EncoderCache E]

/-- A move within a round goes to a place of lower rank. -/
theorem remaining_lt_of_rank (nextRank : Nat)
    (before : step.remaining total = step.rounds * (total + 3) + rank)
    (after : next.remaining total = next.rounds * (total + 3) + nextRank)
    (same : next.rounds = step.rounds)
    (lower : nextRank < rank) : next.remaining total < step.remaining total := by
  rw [before, after, same]
  omega

/-- A move to the head of the waiting loop ends a round. -/
theorem remaining_lt_of_round (before : step.remaining total = step.rounds * (total + 3) + rank)
    (after : next.remaining total = next.rounds * (total + 3) + (total + 2))
    (fewer : next.rounds < step.rounds) : next.remaining total < step.remaining total := by
  rw [before, after]
  exact round_lt total rank fewer

end

omit [EncoderCache E] in
/-- Settling a request does not change the number of rounds. -/
theorem rounds_withScheduler_of_settled (settled : step.scheduler.Settled env id ready scheduler) :
    (step.withScheduler scheduler).rounds = step.rounds := by
  obtain ⟨_, _, _, _, _, rfl⟩ := settled.shape
  rfl

omit [KVCacheManager M] [EncoderCache E] in
theorem rounds_lt_of_borrow {waiting : RequestQueue}
    (skipped : RequestQueue) (invariant : QueueInvariant initial step)
    (queued : waiting.Perm (step.reservationDeferred ++ step.scheduler.waiting))
    (emptyWaiting : step.scheduler.waiting = []) (emptySkipped : step.scheduler.skippedWaiting = [])
    (deferred : step.reservationDeferred ≠ []) :
    (step.borrowing waiting skipped).rounds < step.rounds := by
  have unborrowed : step.borrowReserved = false := by
    cases borrow : step.borrowReserved with
    | false => rfl
    | true => exact absurd (invariant.borrowed borrow) deferred
  have length := queued.length_eq
  rw [emptyWaiting, append_nil] at length
  simp only [rounds, numQueued, unborrowed, emptySkipped, emptyWaiting, length, if_true, length_nil]
  simp

omit [EncoderCache E] in
/-- The candidates of a comparison are queued requests. -/
theorem length_annotatedPrefix_le (controller : SchedulingController)
    (invariant : QueueInvariant initial step)
    (settled : step.scheduler.Settled env id ready scheduler) :
    (controller.annotatedPrefix scheduler.config.policy scheduler.lt scheduler.waiting
      scheduler.skippedWaiting).length ≤ initial.length := by
  obtain ⟨others, fits, _⟩ := controller.annotatedPrefix_perm scheduler.config.policy
    scheduler.lt scheduler.waiting scheduler.skippedWaiting
  have length := fits.length_eq
  have total := invariant.length_eq
  have same := congrArg List.length settled.tagged_eq
  rw [length_tagged, length_tagged] at same
  simp only [List.length_append, List.length_map, numQueued] at length total
  omega

section

omit [KVCacheManager M] [EncoderCache E]

theorem remaining_keepCandidate :
    (step.goto (step.keepCandidate candidate pending eligible best)).remaining total =
      step.rounds * (total + 3) + (pending.length + 1) := by
  unfold keepCandidate
  split
  · rfl
  · split <;> rfl

theorem positioned_keepCandidate :
    (step.goto (step.keepCandidate candidate pending eligible best)).Positioned total := by
  unfold keepCandidate
  split
  · trivial
  · split <;> trivial

end

section

variable (invariant : QueueInvariant initial step)

include invariant

omit [EncoderCache E] in
/-- The choice among waiting requests makes progress. -/
theorem remaining_lt_of_waitingMove (move : WaitingMove env step next) :
    next.Positioned initial.length ∧
      next.remaining initial.length < step.remaining initial.length := by
  have atWaiting : step.phase = .waiting → step.remaining initial.length =
      step.rounds * (initial.length + 3) + (initial.length + 2) := by
    intro phase
    simp only [remaining, phase]
  have atChoosing : ∀ {pending eligible best}, step.phase = .choosing pending eligible best →
      step.remaining initial.length =
        step.rounds * (initial.length + 3) + (pending.length + 1) := by
    intro pending eligible best phase
    simp only [remaining, phase]
  cases move with
  | leave phase =>
    refine ⟨trivial, ?_⟩
    simp only [remaining, goto, phase]
    omega
  | borrow phase skipped waiting returned queued emptyWaiting emptySkipped deferred =>
    have fewer := rounds_lt_of_borrow skipped invariant queued emptyWaiting emptySkipped deferred
    refine ⟨?_, remaining_lt_of_round _ (atWaiting phase) ?_ fewer⟩
    · simp only [Positioned, phase]
    · simp only [remaining, phase]
  | setHeadAside phase name id ready scheduler settled rest removed agentOrder order =>
    refine ⟨trivial, remaining_lt_of_round _ (atWaiting phase) rfl ?_⟩
    obtain ⟨_, _, _, _, _, rfl⟩ := settled.shape
    exact rounds_lt_of_removed (numQueued_of_removed removed rfl rfl) rfl (le_succ _)
  | chooseHead phase name id head scheduler settled ordinary
  | chooseOrdered phase name id head scheduler settled annotated candidate rest order =>
    refine ⟨trivial, remaining_lt_of_rank _ 0 (atWaiting phase) rfl ?_ (by omega)⟩
    exact rounds_withScheduler_of_settled settled
  | startChoosing phase name id selected head scheduler settled controller active
      annotated order =>
      have few := length_annotatedPrefix_le controller invariant settled
      refine ⟨trivial, remaining_lt_of_rank _ _ (atWaiting phase) rfl ?_ ?_⟩
      · exact rounds_withScheduler_of_settled settled
      · omega
  | keepBest candidate best pending eligible phase same =>
    refine ⟨positioned_keepCandidate _ _ _ _, ?_⟩
    refine remaining_lt_of_rank _ _ (atChoosing phase)
      (remaining_keepCandidate candidate best pending eligible) rfl ?_
    simp
  | keepCandidate candidate best pending eligible phase scheduler settled =>
    refine ⟨positioned_keepCandidate _ _ _ _, ?_⟩
    refine remaining_lt_of_rank _ _ (atChoosing phase)
      (remaining_keepCandidate candidate best pending eligible)
      (rounds_withScheduler_of_settled settled) ?_
    simp
  | dropCandidate candidate best pending eligible phase different ready scheduler settled rest
      removed =>
      refine ⟨trivial, ?_⟩
      have fewer : ((((step.withScheduler scheduler).withQueue candidate.2 rest).prependSkipped
          candidate.1).goto (.choosing pending eligible best)).rounds < step.rounds := by
        obtain ⟨_, _, _, _, _, rfl⟩ := settled.shape
        exact rounds_lt_of_removed (numQueued_of_removed removed rfl rfl) rfl (le_succ _)
      rw [atChoosing phase]
      have scaled := mul_le_mul_right (initial.length + 3) (le_of_lt fewer)
      simp only [remaining, goto, length_cons] at scaled ⊢
      omega
  | chooseBest eligible best phase uncached =>
    exact ⟨trivial, remaining_lt_of_rank _ 0 (atChoosing phase) rfl rfl (by simp)⟩
  | chooseFirst eligible best phase cached candidate rest order =>
    exact ⟨trivial, remaining_lt_of_rank _ 0 (atChoosing phase) rfl rfl (by simp)⟩

/-- An admission makes progress. -/
theorem remaining_lt_of_admissionMove (phase : step.phase = .admitting id name)
    (move : AdmissionMove env step id name next) :
    next.Positioned initial.length ∧
      next.remaining initial.length < step.remaining initial.length := by
  obtain ⟨queued, head, _⟩ := invariant.consistent.at phase
  have before : step.remaining initial.length = step.rounds * (initial.length + 3) + 0 := by
    simp only [remaining, phase, add_zero]
  have positive : 0 < step.remaining initial.length := by
    rw [before]
    have some_ := one_le_rounds_of_mem queued
    positivity
  obtain ⟨manager, controller, encoder, calls, keeps, ends⟩ := move.ends
  cases ends with
  | leave => exact ⟨trivial, positive⟩
  | aside rest taken deferred deferral =>
    refine ⟨trivial, remaining_lt_of_round 0 before rfl ?_⟩
    refine rounds_lt_of_removed (numQueued_of_removed (keeps.removed taken head) rfl rfl) rfl ?_
    rcases deferral with rfl | ⟨rfl, _⟩
    · exact le_succ _
    · simp [goto, prependSkipped, withQueue, withScheduler, withCalls, withResources]
  | await rest taken probe chosen | start rest taken probe chosen newReqs resumedReqs =>
    refine ⟨trivial, remaining_lt_of_round 0 before rfl ?_⟩
    exact rounds_lt_of_removed (numQueued_of_removed (keeps.removed taken head) rfl rfl) rfl
      (le_succ _)

/-- Every move makes progress. -/
theorem remaining_lt_of_move (positioned : step.Positioned initial.length)
    (move : Move env step next) :
    next.Positioned initial.length ∧
      next.remaining initial.length < step.remaining initial.length := by
  cases move with
  | running move => exact remaining_lt_of_runningMove invariant positioned move
  | waiting move => exact remaining_lt_of_waitingMove invariant move
  | admission id name phase move =>
    exact remaining_lt_of_admissionMove invariant phase move

end

end Step

open List RequestQueue Avoids SchedulingController

/-- Failures other than the general ones of the language and its assertions. -/
structure Harmless (bad : EngineError → Prop) : Prop where
  keyError : ¬ bad .keyError
  indexError : ¬ bad .indexError
  valueError : ¬ bad .valueError
  assertionFailed : ¬ bad .assertionFailed

variable {bad : EngineError → Prop}

namespace Harmless

theorem liftResource (harmless : Harmless bad) (action : Except ResourceError α) :
    Avoids bad (TokenCake.liftResource action) := by
  cases action with
  | ok value => exact ok value
  | error failure =>
    refine error ?_
    cases failure with
    | assertionFailed => exact harmless.assertionFailed
    | keyError => exact harmless.keyError
    | indexError => exact harmless.indexError
    | valueError => exact harmless.valueError

theorem ensure (harmless : Harmless bad) (condition : Bool) :
    Avoids bad (TokenCake.ensure condition EngineError.assertionFailed) := by
  cases condition with
  | true => exact ok ()
  | false => exact error harmless.assertionFailed

end Harmless

namespace Step

open Scheduler

variable {initial : List RequestId} {env : StepEnvironment} {step : Step M E}

section Queues

variable {id : RequestId} {name : QueueName}

theorem avoids_removeRequest {queue : RequestQueue}
    (policy : SchedulingPolicy) (lt : RequestId → RequestId → Bool) (present : id ∈ queue) :
    Avoids bad (RequestQueue.removeRequest policy lt queue id) := by
  intro failure failed
  exact absurd present (removeRequest_eq_error failed)

section

omit [KVCacheManager M] [EncoderCache E]

theorem avoids_removeFrom (present : id ∈ step.scheduler.queue name) :
    Avoids bad (step.removeFrom name id) :=
  bind (avoids_removeRequest _ _ present) fun _ _ => ok _

theorem avoids_popFrom (head : (step.scheduler.queue name).head? = some id) :
    Avoids bad (step.popFrom name) := by
  unfold popFrom
  obtain ⟨rest, popped⟩ := exists_popRequest step.scheduler.config.policy step.scheduler.lt head
  rw [popped]
  exact ok _

end

/-- A chosen request is queued; without the capacity policy it is the head. -/
def Chosen (step : Step M E) (name : QueueName) (requestId : RequestId) : Prop :=
  requestId ∈ step.scheduler.queue name ∧
    (step.tokencake = none → (step.scheduler.queue name).head? = some requestId)

section

variable (chosen : step.Chosen name id)

include chosen

section

omit [KVCacheManager M] [EncoderCache E]

theorem Chosen.withResources (keeps : step.KeepsAnnotations controller) (manager : M)
    (encoder : E) : (step.withResources manager controller encoder).Chosen name id :=
  ⟨chosen.1, fun inactive => chosen.2 (keeps.tokencake_eq_none inactive)⟩

theorem avoids_takeOut : Avoids bad (step.takeOut name id) := by
  unfold takeOut
  split
  · next inactive => exact avoids_popFrom (chosen.2 inactive)
  · exact avoids_removeFrom chosen.1

theorem avoids_setAside : Avoids bad (step.setAside name id) :=
  bind (avoids_takeOut chosen) fun _ _ => ok _

end

end

section

omit [KVCacheManager M] [EncoderCache E]

theorem avoids_returnDeferred {candidates : List RequestId}
    (nodup : candidates.Nodup) (aside : ∀ id ∈ candidates, id ∈ step.stepSkippedWaiting) :
    Avoids bad (returnDeferred candidates step) := by
  induction candidates generalizing step with
  | nil => exact ok _
  | cons candidate rest ih =>
    obtain ⟨fresh, nodup⟩ := nodup_cons.mp nodup
    refine bind (avoids_removeRequest _ _ (aside _ mem_cons_self))
      fun skipped removal => ih nodup ?_
    intro id mem
    have kept := (removeRequest_perm removal).mem_iff.mp (aside id (mem_cons_of_mem _ mem))
    rcases mem_cons.mp kept with same | kept
    · exact absurd (same ▸ mem) fresh
    · exact kept

theorem exists_head_of_selected
    (selected : step.scheduler.selectWaitingQueueForScheduling = some name) :
    ∃ id, (step.scheduler.queue name).head? = some id := by
  unfold selectWaitingQueueForScheduling at selected
  split at selected
  · next queue =>
    cases selected
    exact ⟨_, congrArg head? queue⟩
  · next waiting skipped =>
    split at selected
    · cases selected
      exact ⟨_, congrArg head? waiting⟩
    · cases selected
      exact ⟨_, congrArg head? skipped⟩
  · next waiting _ =>
    cases selected
    exact ⟨_, congrArg head? waiting⟩
  · next _ skipped =>
    cases selected
    exact ⟨_, congrArg head? skipped⟩
  · cases selected

theorem avoids_popCandidate (mem : candidate ∈ order) : Avoids bad (step.popCandidate order) := by
  cases order with
  | nil => cases mem
  | cons _ _ => exact ok _

end

end Queues

section Transitions

variable (harmless : Harmless bad)
include harmless

theorem avoids_runningTransition : Avoids bad (step.runningTransition env) := by
  unfold runningTransition
  split
  · exact ok _
  · split
    · exact ok _
    · split
      · exact ok _
      · refine bind (harmless.liftResource _) fun _ _ => ?_
        dsimp only
        split <;> exact ok _

omit [EncoderCache E] in
theorem avoids_growingTransition (probe : RunningProbe) :
    Avoids bad (step.growingTransition probe) := by
  unfold growingTransition
  split
  · exact ok _
  · refine bind (fun failure failed => ?_) fun _ _ => ?_
    · rw [canGrow_eq_error failed]
      exact harmless.valueError
    · split <;> exact ok _

theorem avoids_scheduleRunning (probe : RunningProbe)
    (newBlocks : KVCacheBlocks) : Avoids bad (step.scheduleRunning probe newBlocks) := by
  refine bind ?_ fun _ _ => ?_
  · unfold commitRunning
    split
    · exact ok _
    · refine bind (fun failure failed => ?_) fun _ _ => ok _
      rcases commit_eq_error failed with rfl | ⟨_, waiting, _⟩
      · exact harmless.keyError
      · cases waiting
  · exact bind (harmless.liftResource _) fun _ _ => ok _

variable {victim : RequestId}

section

omit [KVCacheManager M] [EncoderCache E]

theorem avoids_removeVictim (probe : RunningProbe) (byAgent : Bool)
    (running : victim ∈ step.scheduler.running) :
    Avoids bad (step.removeVictim probe victim byAgent) := by
  unfold removeVictim
  dsimp only
  split
  · next absent => exact absurd running absent
  · split
    · unfold withdrawScheduled
      split
      · exact bind (harmless.liftResource _) fun _ _ => ok _
      · exact error harmless.keyError
    · split <;> exact ok _

theorem avoids_takeVictim {agentVictim : Option RequestId} (probe : RunningProbe)
    (running : ∀ victim, agentVictim = some victim → victim ∈ step.scheduler.running) :
    Avoids bad (step.takeVictim probe agentVictim) := by
  unfold takeVictim
  split
  · next victim =>
    exact bind (avoids_removeVictim harmless probe true (running victim rfl)) fun _ _ =>
      ok _
  · split
    · exact error harmless.valueError
    · next lowest =>
      exact bind (avoids_removeVictim harmless probe false (firstMax_mem lowest)) fun _ _ => ok _
  · split
    · exact error harmless.indexError
    · exact ok _

end

omit harmless in
omit [EncoderCache E] in
/-- The victim named by the capacity policy is a running request. -/
theorem mem_running_of_agentVictim
    (naming : step.agentVictim env probe = .ok (some victim, named)) :
    victim ∈ named.scheduler.running := by
  unfold agentVictim at naming
  split at naming
  · cases naming
  · obtain ⟨⟨_, new⟩, chosen, naming⟩ := bind_eq_ok.mp naming
    cases naming
    obtain ⟨other, mem, rfl⟩ := victim_mem chosen
    obtain ⟨id, running, rfl⟩ := mem_map.mp mem
    rw [step.scheduler.requestHeap.requestId_object id]
    exact running

theorem avoids_preemptFor (probe : RunningProbe) : Avoids bad (step.preemptFor env probe) := by
  refine bind ?_ fun answer naming => ?_
  · unfold agentVictim
    split
    · exact ok _
    · refine bind (fun failure failed => ?_) fun _ _ => ok _
      rw [victim_eq_error failed]
      exact harmless.valueError
  · obtain ⟨victim, named⟩ := answer
    refine bind (avoids_takeVictim harmless _ ?_) fun _ _ => ?_
    · rintro victim rfl
      exact mem_running_of_agentVictim naming
    · exact bind (harmless.ensure _) fun _ _ => ok _

theorem avoids_allocatingTransition (probe : RunningProbe) :
    Avoids bad (step.allocatingTransition env probe) := by
  refine bind (harmless.liftResource _) fun allocation _ => ?_
  obtain ⟨newBlocks, manager⟩ := allocation
  cases newBlocks with
  | some newBlocks => exact avoids_scheduleRunning harmless _ _
  | none => exact avoids_preemptFor harmless _

omit [KVCacheManager M] [EncoderCache E] in
theorem avoids_afterRunningTransition : Avoids bad (step.afterRunningTransition env) := by
  refine bind (harmless.ensure _) fun _ _ => ?_
  dsimp only
  split <;> exact ok _

variable {id : RequestId} {name : QueueName} {probe : WaitingProbe}

omit [EncoderCache E] in
theorem avoids_settle (id : RequestId) : Avoids bad (step.scheduler.settle env id) := by
  unfold Scheduler.settle
  split
  · unfold tryPromoteBlockedWaitingRequest
    dsimp only
    split
    · split
      · exact ok _
      · refine bind ?_ fun _ _ => ok _
        refine bind (harmless.ensure _) fun _ _ => ?_
        dsimp only
        split
        · exact ok _
        · refine bind (harmless.liftResource _) fun _ _ => ?_
          split <;> exact ok _
    · split <;> exact ok _
    · exact bind (harmless.ensure _) fun _ _ => ok _
    · exact error harmless.assertionFailed
  · exact ok _

section

variable (invariant : QueueInvariant initial step)

include invariant

section

omit [EncoderCache E]

theorem avoids_visitWaiting (phase : step.phase = .waiting)
    (selected : step.scheduler.selectWaitingQueueForScheduling = some name) :
    Avoids bad (step.visitWaiting env name) := by
  obtain ⟨head, isHead⟩ := exists_head_of_selected selected
  refine bind ?_ fun id peeked => ?_
  · unfold peekRequest
    split
    · next empty => simp [empty] at isHead
    · exact ok _
  have front := peekRequest_eq_ok peeked
  refine bind (avoids_settle harmless id) fun answer settling => ?_
  obtain ⟨ready, scheduler⟩ := answer
  have settled := settled_of_settle settling
  have settledFront : (scheduler.queue name).head? = some id := by
    rw [settled.queue_eq name]
    exact front
  dsimp only
  split
  · exact bind (avoids_popFrom settledFront) fun _ _ => ok _
  · split
    · exact bind (avoids_popFrom settledFront) fun _ _ => ok _
    · split
      · split
        · unfold compareCandidates
          split
          · next order cached =>
            -- A cached order lists what is queued, in particular the head.
            have listed : (id, name) ∈ order := by
              rw [(invariant.consistent.at phase order cached).mem_iff, mem_tagged]
              exact mem_of_mem_head? front
            exact avoids_popCandidate listed
          · exact ok _
        · exact ok _
      · exact ok _

theorem avoids_waitingTransition
    (phase : step.phase = .waiting) : Avoids bad (step.waitingTransition env) := by
  unfold waitingTransition
  split
  · exact ok _
  · split
    · exact bind (avoids_returnDeferred invariant.deferredNodup invariant.deferredAside)
        fun _ _ => ok _
    · split
      · exact error harmless.assertionFailed
      · next selected => exact avoids_visitWaiting harmless invariant phase selected

theorem avoids_choosingTransition (phase : step.phase = .choosing pending eligible best) :
    Avoids bad (step.choosingTransition env pending eligible best) := by
  obtain ⟨-, -, bestQueued, others, fits, complete⟩ := invariant.consistent.at phase
  unfold choosingTransition
  split
  · split
    · next cached =>
      -- All candidates were examined and the best one is still queued.
      rw [complete cached, append_nil, append_nil] at fits
      have listed : best ∈ step.orderCandidates eligible := by
        rw [(orderCandidates_perm step eligible).mem_iff, fits.mem_iff]
        exact bestQueued
      exact avoids_popCandidate listed
    · exact ok _
  · next candidate rest =>
    split
    · exact ok _
    · refine bind (avoids_settle harmless candidate.1) fun answer settling => ?_
      obtain ⟨ready, scheduler⟩ := answer
      have settled := settled_of_settle settling
      dsimp only
      split
      · refine bind (avoids_removeFrom ?_) fun _ _ => ok _
        rw [settled.queue_eq, ← mem_tagged, ← fits.mem_iff]
        simp
      · exact ok _

end

end

omit [EncoderCache E] in
theorem avoids_commitWaiting (affordable : bad .nativeAllocationExceededAdmittedCapacity →
      step.commitWaiting probe ≠ .error .nativeAllocationExceededAdmittedCapacity) :
    Avoids bad (step.commitWaiting probe) := by
  intro failure failed isBad
  have reason : failure = .keyError ∨ failure = .nativeAllocationExceededAdmittedCapacity := by
    unfold commitWaiting at failed
    split at failed
    · cases failed
    · rcases bind_eq_error.mp failed with stuck | ⟨_, _, stuck⟩
      · exact (commit_eq_error stuck).imp_right And.left
      · cases stuck
  rcases reason with rfl | rfl
  · exact harmless.keyError isBad
  · exact affordable isBad failed

/-- A status with which an admission is recorded. -/
def Recordable (step : Step M E) (requestId : RequestId) : Prop :=
  (step.request requestId).status = .waiting ∨ (step.request requestId).status = .preempted

theorem avoids_startRunning
    (recordable : bad .invalidRequestStatus → step.Recordable probe.requestId) :
    Avoids bad (step.startRunning probe) := by
  refine bind ?_ fun _ _ => harmless.liftResource _
  unfold recordAdmitted
  split
  · exact ok _
  · exact ok _
  · next waiting preempted =>
    refine error fun isBad => ?_
    rcases recordable isBad with status | status
    · exact waiting status
    · exact preempted status

theorem avoids_admit (chosen : step.Chosen probe.queue probe.requestId)
    (recordable : bad .invalidRequestStatus → step.Recordable probe.requestId)
    (affordable : bad .nativeAllocationExceededAdmittedCapacity →
      step.commitWaiting probe ≠ .error .nativeAllocationExceededAdmittedCapacity) :
    Avoids bad (step.admitRequest probe) := by
  refine bind (avoids_commitWaiting harmless affordable) fun committed commit => ?_
  obtain ⟨controller, commits, rfl⟩ := commitWaiting_eq_ok commit
  refine bind (avoids_takeOut (chosen.withResources commits.keepsAnnotations _ _))
    fun taken take => ?_
  obtain ⟨rest, _, rfl⟩ := takeOut_eq_ok take
  split
  · exact ok _
  · exact avoids_startRunning harmless recordable

/-- Whatever slots an admission receives, they can be charged. -/
def Affordable (step : Step M E) (probe : WaitingProbe) : Prop :=
  ∀ askedManager controller newBlocks manager, step.Asks probe true askedManager controller →
    KVCacheManager.allocateSlots askedManager (step.request probe.requestId)
      (step.admissionArguments probe) = .ok (some newBlocks, manager) →
    (step.withResources manager controller step.scheduler.encoderCacheManager).commitWaiting
      probe ≠ .error .nativeAllocationExceededAdmittedCapacity

theorem avoids_admitWithCapacity (chosen : step.Chosen probe.queue probe.requestId)
    (recordable : bad .invalidRequestStatus → step.Recordable probe.requestId)
    (affordable : bad .nativeAllocationExceededAdmittedCapacity → step.Affordable probe) :
    Avoids bad (step.admitWithCapacity probe) := by
  unfold admitWithCapacity
  split
  · next asked answer =>
    obtain ⟨manager, controller, asks, rfl⟩ := mayAllocate_eq answer
    have stillChosen := chosen.withResources asks.keepsAnnotations manager
      step.scheduler.encoderCacheManager
    refine bind (harmless.liftResource _) fun blocks allocation => ?_
    obtain ⟨newBlocks, allocated⟩ := blocks
    rw [liftResource_eq_ok] at allocation
    cases newBlocks with
    | some newBlocks =>
      exact avoids_admit harmless stillChosen recordable fun isBad =>
        affordable isBad manager controller newBlocks allocated asks allocation
    | none => exact ok _
  · next asked answer =>
    obtain ⟨manager, controller, asks, rfl⟩ := mayAllocate_eq answer
    have stillChosen := chosen.withResources asks.keepsAnnotations manager
      step.scheduler.encoderCacheManager
    unfold denyAdmission deferRequest
    split
    · dsimp only
      split <;> exact avoids_setAside stillChosen
    · next old active =>
      have defers : (step.withResources manager controller
          step.scheduler.encoderCacheManager).Defers probe.requestId _ :=
        Or.inr ⟨old, active, rfl⟩
      have deferred := stillChosen.withResources defers.keepsAnnotations manager
        step.scheduler.encoderCacheManager
      dsimp only
      split <;> exact avoids_setAside deferred

/-- Every allocation of the admission in hand can be charged. -/
def AdmissionAffordable (environment : StepEnvironment) (step : Step M E)
    (requestId : RequestId) : Prop :=
  ∀ calls numNewTokens scan probe, probe.requestId = requestId →
    step.Probed environment calls numNewTokens scan probe →
      ((step.withCalls calls).setEncoder scan.encoderCacheManager).Affordable probe

theorem avoids_admitWithTokens
    (looked : step.lookup env requestId = .ok (some admission, step.withCalls calls))
    (chosen : step.Chosen name requestId)
    (recordable : bad .invalidRequestStatus → step.Recordable requestId)
    (affordable : bad .nativeAllocationExceededAdmittedCapacity →
      step.AdmissionAffordable env requestId) :
    Avoids bad ((step.withCalls calls).admitWithTokens env name requestId admission) := by
  refine bind ?_ fun choice tokens => ?_
  · unfold waitingTokens
    split
    · exact bind (harmless.ensure _) fun _ _ => ok _
    · dsimp only
      split
      · exact ok _
      · refine bind (harmless.ensure _) fun _ _ => ?_
        split <;> exact ok _
  · cases choice with
    | exit => exact ok _
    | setAside =>
      have stillChosen : (step.withCalls calls).Chosen name requestId := chosen
      exact avoids_setAside stillChosen
    | tokens numNewTokens limitedPrefill =>
      refine bind (harmless.liftResource _) fun answer probing => ?_
      obtain ⟨probe, scanned⟩ := answer
      rw [liftResource_eq_ok] at probing
      obtain ⟨scan, scanning, rfl, fields⟩ := probeWaiting_eq_ok probing
      cases probe with
      | none => exact ok _
      | some probe =>
        obtain ⟨rfl, rfl, rfl, rfl, _, _⟩ := fields probe rfl
        have stillChosen : ((step.withCalls calls).setEncoder
            scan.encoderCacheManager).Chosen probe.queue probe.requestId := chosen
        refine avoids_admitWithCapacity harmless stillChosen recordable fun isBad => ?_
        exact affordable isBad calls numNewTokens scan probe rfl ⟨looked, tokens, scanning, probing⟩

omit [EncoderCache E] in
theorem avoids_lookup (id : RequestId) : Avoids bad (step.lookup env id) := by
  unfold lookup
  dsimp only
  split
  · split
    · exact ok _
    · exact bind (harmless.ensure _) fun _ _ =>
        bind (harmless.ensure _) fun _ _ => ok _
  · exact ok _

theorem avoids_admittingTransition (chosen : step.Chosen name id)
    (recordable : bad .invalidRequestStatus → step.Recordable id)
    (affordable : bad .nativeAllocationExceededAdmittedCapacity → step.AdmissionAffordable env id) :
    Avoids bad (step.admittingTransition env name id) := by
  refine bind (avoids_lookup harmless id) fun answer looked => ?_
  obtain ⟨admission, asked⟩ := answer
  rcases lookup_eq_ok looked with ⟨rfl, controller, calls, deferred, rfl⟩ | ⟨found, calls, rfl⟩
  · have stillChosen : ((step.withResources step.scheduler.kvCacheManager controller
        step.scheduler.encoderCacheManager).withCalls calls).Chosen name id :=
      chosen.withResources deferred.keepsAnnotations _ _
    exact avoids_setAside stillChosen
  · cases admission with
    | none => exact absurd rfl found
    | some admission => exact avoids_admitWithTokens harmless looked chosen recordable affordable

/-- The reasons for which a transition fails, beside the harmless ones. -/
theorem avoids_transition (invariant : QueueInvariant initial step)
    (recordable : bad .invalidRequestStatus → ∀ id name,
      step.phase = .admitting id name → step.Recordable id)
    (affordable : bad .nativeAllocationExceededAdmittedCapacity → ∀ id name,
      step.phase = .admitting id name → step.AdmissionAffordable env id) :
    Avoids bad (step.transition env) := by
  unfold transition
  split
  · exact avoids_runningTransition harmless
  · exact avoids_growingTransition harmless _
  · exact avoids_allocatingTransition harmless _
  · exact avoids_afterRunningTransition harmless
  · next phase => exact avoids_waitingTransition harmless invariant phase
  · next phase => exact avoids_choosingTransition harmless invariant phase
  · next id name phase =>
    obtain ⟨queued, head, _⟩ := invariant.consistent.at phase
    exact avoids_admittingTransition harmless ⟨queued, head⟩
      (fun isBad => recordable isBad id name phase)
      (fun isBad => affordable isBad id name phase)
  · exact ok _

section

omit [KVCacheManager M] [EncoderCache E]

theorem avoids_requestData (resumed : Bool) (id : RequestId) :
    Avoids bad (step.requestData resumed id) := by
  unfold requestData
  split
  · exact error harmless.keyError
  · exact ok _

theorem avoids_advanceRequests
    (spec : Dict RequestId (List TokenId)) (entries : List (RequestId × Int))
    (scheduler : Scheduler M E) : Avoids bad (advanceRequests spec entries scheduler) := by
  induction entries generalizing scheduler with
  | nil => exact ok _
  | cons entry rest ih =>
    unfold advanceRequests
    split
    · exact ih _
    · exact error harmless.keyError

end

omit [KVCacheManager M] in
theorem avoids_conclude (step : Step M E) : Avoids bad step.conclude := by
  refine bind (harmless.ensure _) fun _ _ => bind ?_ fun _ _ =>
    bind (bind (avoids_advanceRequests harmless _ _ _) fun _ _ => ok _)
      fun _ _ => ok _
  refine bind (mapM fun id _ => avoids_requestData harmless false id) fun _ _ =>
    bind (mapM fun id _ => avoids_requestData harmless false id) fun _ _ =>
      bind (harmless.ensure _) fun _ _ =>
        bind (mapM fun id _ => avoids_requestData harmless true id) fun _ _ =>
          ok _

end Transitions

end Step

open Step

namespace EngineError

/-- Failures of the bookkeeping of queues: an empty queue or order is popped, an
absent request is removed, or the call does not end. -/
def isQueueFailure : EngineError → Bool
  | .emptyAgentOrder | .emptyQueue | .requestNotInQueue | .outOfFuel => true
  | _ => false

theorem harmless_isQueueFailure : Harmless fun failure => failure.isQueueFailure = true :=
  ⟨Bool.noConfusion, Bool.noConfusion, Bool.noConfusion, Bool.noConfusion⟩

end EngineError

namespace Scheduler

variable {env : StepEnvironment} {scheduler : Scheduler M E}

/-- The requests that wait or run. -/
def live (scheduler : Scheduler M E) : List RequestId :=
  scheduler.waiting ++ scheduler.skippedWaiting ++ scheduler.running

omit [EncoderCache E] in
theorem queueInvariant_beginStep (env : StepEnvironment) (scheduler : Scheduler M E) :
    (scheduler.beginStep env).QueueInvariant scheduler.live where
  conserved := by
    show (scheduler.waiting ++ scheduler.skippedWaiting ++ [] ++ scheduler.running).Perm
      scheduler.live
    rw [append_nil]
    exact Perm.refl _
  deferredNodup := nodup_nil
  deferredAside := nofun
  borrowed := fun _ => rfl
  cached := nofun
  uncached := fun _ => rfl
  consistent := ⟨rfl, rfl, rfl⟩

omit [KVCacheManager M] [EncoderCache E] in
theorem length_live (scheduler : Scheduler M E) :
    scheduler.waiting.length + scheduler.skippedWaiting.length + scheduler.running.length =
      scheduler.live.length := by
  simp only [live, length_append]

omit [EncoderCache E] in
theorem remaining_beginStep_lt (env : StepEnvironment) (scheduler : Scheduler M E) :
    (scheduler.beginStep env).remaining scheduler.live.length < Step.transitionBound scheduler := by
  show 3 * scheduler.live.length + 4 * scheduler.running.length + 2 +
      (2 * scheduler.live.length + 2) * (scheduler.live.length + 3) + 2 <
    transitionBound scheduler
  have total := length_live scheduler
  unfold transitionBound
  rw [total]
  nlinarith

/-- What holds in every state a call visits. -/
def CallInvariant (scheduler : Scheduler M E) (step : Step M E) : Prop :=
  step.QueueInvariant scheduler.live ∧ step.Positioned scheduler.live.length

omit [EncoderCache E] in
theorem callInvariant_beginStep (env : StepEnvironment) (scheduler : Scheduler M E) :
    scheduler.CallInvariant (scheduler.beginStep env) :=
  ⟨queueInvariant_beginStep env scheduler, trivial⟩

theorem callInvariant_of_transition (nodup : scheduler.live.Nodup) (step next : Step M E)
    (invariant : scheduler.CallInvariant step) (continues : step.isDone = false)
    (moved : step.transition env = .ok next) : scheduler.CallInvariant next := by
  have move := move_of_transition continues moved
  exact ⟨invariant.1.of_move nodup move, (remaining_lt_of_move invariant.1 invariant.2 move).1⟩

variable {next : Scheduler M E}

omit [KVCacheManager M] [EncoderCache E] in
theorem advanceRequests_eq_ok (advanced : advanceRequests spec entries scheduler = .ok next) :
    ∃ heap, next = { scheduler with requestHeap := heap } := by
  induction entries generalizing scheduler with
  | nil =>
    cases advanced
    exact ⟨_, rfl⟩
  | cons entry rest ih =>
    unfold advanceRequests at advanced
    split at advanced
    · obtain ⟨heap, rfl⟩ := ih advanced
      exact ⟨heap, rfl⟩
    · cases advanced

variable {output : SchedulerOutput}

omit [KVCacheManager M] [EncoderCache E] in
theorem live_updateAfterSchedule
    (updated : scheduler.updateAfterSchedule output = .ok next) : next.live = scheduler.live := by
  obtain ⟨advanced, moved, updated⟩ := bind_eq_ok.mp updated
  cases updated
  obtain ⟨heap, rfl⟩ := advanceRequests_eq_ok moved
  rfl

/-- The call ends, pops no empty queue or order and removes no absent request. -/
theorem keepsQueues_schedule (env : StepEnvironment) (nodup : scheduler.live.Nodup) :
    Avoids (fun failure => failure.isQueueFailure = true) (scheduler.schedule env) := by
  refine Avoids.bind ?_ fun step _ =>
    avoids_conclude EngineError.harmless_isQueueFailure step
  intro failure failed
  obtain ⟨last, invariant, _, stuck⟩ := Machine.loop_eq_error
    (callInvariant_of_transition nodup) (remaining scheduler.live.length)
    (fun step next invariant continues moved =>
      (remaining_lt_of_move invariant.1 invariant.2
        (move_of_transition continues moved)).2)
    (callInvariant_beginStep env scheduler)
    (remaining_beginStep_lt env scheduler) failed
  exact avoids_transition EngineError.harmless_isQueueFailure invariant.1
    Bool.noConfusion Bool.noConfusion failure stuck

/-- A call neither loses nor duplicates a request. -/
theorem live_perm_of_schedule (nodup : scheduler.live.Nodup)
    (scheduled : scheduler.schedule env = .ok (output, next)) : next.live.Perm scheduler.live := by
  obtain ⟨final, looped, concluded⟩ := bind_eq_ok.mp scheduled
  obtain ⟨invariant, _⟩ := Machine.invariant_of_loop (callInvariant_of_transition nodup)
    (callInvariant_beginStep env scheduler) looped
  obtain ⟨_, _, concluded⟩ := bind_eq_ok.mp concluded
  obtain ⟨built, _, concluded⟩ := bind_eq_ok.mp concluded
  obtain ⟨updated, updating, concluded⟩ := bind_eq_ok.mp concluded
  cases concluded
  rw [live_updateAfterSchedule updating]
  refine Perm.trans ?_ invariant.1.conserved
  rw [perm_iff_count]
  intro id
  have requeued := (RequestQueue.prependRequests_perm final.scheduler.config.policy
    final.scheduler.lt final.scheduler.skippedWaiting final.stepSkippedWaiting).count_eq id
  simp only [live, requeueSkipped, contents, unstarted, count_append] at *
  omega

/-- A call of `schedule` terminates without popping an empty queue or order and
without removing an absent request, and it conserves the requests. -/
theorem schedule_conserves_requests (environment : StepEnvironment) (scheduler : Scheduler M E)
    (separate : (scheduler.waiting ++ scheduler.skippedWaiting ++ scheduler.running).Nodup) :
    (∀ failure, scheduler.schedule environment = .error failure →
      failure ≠ .outOfFuel ∧ failure ≠ .emptyAgentOrder ∧ failure ≠ .emptyQueue ∧
        failure ≠ .requestNotInQueue) ∧
    ∀ output next, scheduler.schedule environment = .ok (output, next) →
      (next.waiting ++ next.skippedWaiting ++ next.running).Nodup ∧
        (next.waiting ++ next.skippedWaiting ++ next.running).Perm
          (scheduler.waiting ++ scheduler.skippedWaiting ++ scheduler.running) := by
  refine ⟨fun failure failed => ?_, fun output next scheduled => ?_⟩
  · have harmless := keepsQueues_schedule environment separate failure failed
    refine ⟨?_, ?_, ?_, ?_⟩ <;> rintro rfl <;> exact harmless rfl
  · have conserved := live_perm_of_schedule separate scheduled
    exact ⟨conserved.nodup_iff.mpr separate, conserved⟩

/-- A pool of nineteen blocks of two tokens, without prefix caching. -/
def smallManager : NativeKVCacheManager :=
  .init [{ kind := .fullAttention, blockSize := 2 }] 20 2 16 8 false false []

/-- A running request, a waiting annotated one and a skipped one. -/
def mixedScheduler : Scheduler NativeKVCacheManager EncoderCacheManager where
  config :=
    { maxNumRunningReqs := 4
      maxNumScheduledTokens := 8
      maxModelLen := 16
      blockSize := 2 }
  kvCacheManager := smallManager
  encoderCacheManager := .init 0
  tokencakeScheduling :=
    some ((SchedulingController.init {} smallManager 0).associate 2 { agentType := 7 })
  requestHeap :=
    { object := fun id =>
        { requestId := id
          samplingParams := some { maxTokens := 4 }
          status := if id = 1 then .running else .waiting
          maxTokens := 4
          promptTokenIds := some [1, 2, 3]
          numPromptTokens := 3
          allTokenIds := [1, 2, 3] }
      requestId_object := fun _ => rfl }
  requests := [1, 2, 3]
  waiting := [2]
  skippedWaiting := [3]
  running := [1]
  finishedReqIds := []
  finishedRecvingKvReqIds := []
  failedRecvingKvReqIds := []
  prevStepScheduledReqIds := []

theorem mixedScheduler_conserves_requests :
    ((mixedScheduler.schedule .quiet).toOption.map fun result =>
      result.2.running) = some [1, 3, 2] ∧
    ∀ output next, mixedScheduler.schedule .quiet = .ok (output, next) →
      (next.waiting ++ next.skippedWaiting ++ next.running).Nodup ∧
        (next.waiting ++ next.skippedWaiting ++ next.running).Perm [2, 3, 1] :=
  ⟨by decide +kernel, (schedule_conserves_requests .quiet mixedScheduler (by decide)).2⟩

end Scheduler

end TokenCake
