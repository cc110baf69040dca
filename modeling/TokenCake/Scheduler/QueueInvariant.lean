import TokenCake.Scheduler.AdmissionMoves

/-!
# The queues during a call

A call of `schedule` moves requests between the waiting queues, the requests set
aside and the running list.  The invariant says that no request is lost or
duplicated and that the cached order of candidates stays in step with the queues.
-/

namespace TokenCake

open List RequestQueue SchedulingController

variable {M E : Type} [KVCacheManager M] [EncoderCache E]

namespace Scheduler

/-- The queued requests, each with its queue. -/
def tagged (scheduler : Scheduler M E) : List (RequestId × QueueName) :=
  scheduler.waiting.map (·, .waiting) ++ scheduler.skippedWaiting.map (·, .skippedWaiting)

variable {scheduler : Scheduler M E} {id : RequestId} {name : QueueName}

section

omit [KVCacheManager M] [EncoderCache E]

theorem mem_tagged : (id, name) ∈ scheduler.tagged ↔ id ∈ scheduler.queue name := by
  unfold tagged
  cases name <;> simp [queue]

theorem tagged_perm_of_removed (removed : (scheduler.queue name).Perm (id :: rest)) :
    scheduler.tagged.Perm ((id, name) :: (scheduler.setQueue name rest).tagged) := by
  cases name with
  | waiting => exact (removed.map (·, QueueName.waiting)).append_right _
  | skippedWaiting =>
    exact ((removed.map (·, QueueName.skippedWaiting)).append_left _).trans perm_middle

theorem length_tagged (scheduler : Scheduler M E) :
    scheduler.tagged.length = scheduler.waiting.length + scheduler.skippedWaiting.length := by
  simp [tagged]

end

omit [EncoderCache E] in
/-- Settling a request leaves the queues alone. -/
theorem Settled.tagged_eq (settles : Settled env scheduler id ready settled) :
    settled.tagged = scheduler.tagged := by
  obtain ⟨_, _, _, _, _, rfl⟩ := settles.shape
  rfl

end Scheduler

namespace Step

open Scheduler

variable {encoder : E} {probe : WaitingProbe}

section Annotations

/-- A new state of the capacity policy that knows the same annotations. -/
def KeepsAnnotations (step : Step M E) (controller : Option SchedulingController) : Prop :=
  (step.tokencake = none ∧ controller = step.scheduler.tokencakeScheduling) ∨
    ∃ old new, step.tokencake = some old ∧ controller = some new ∧ new.metadata = old.metadata

variable {controller : Option SchedulingController} {step : Step M E} {id : RequestId}
  {env : StepEnvironment} {scheduler : Scheduler M E} {manager : M} {ready : Bool}

omit [KVCacheManager M] [EncoderCache E] in
theorem tokencake_eq_some {controller : SchedulingController}
    (active : step.tokencake = some controller) :
    step.tokencakeActive = true ∧ step.scheduler.tokencakeScheduling = some controller := by
  unfold tokencake at active
  split at active
  · next isActive => exact ⟨isActive, active⟩
  · cases active

section

variable (keeps : step.KeepsAnnotations controller)

include keeps

section

omit [KVCacheManager M] [EncoderCache E]

theorem KeepsAnnotations.tokencake (manager : M) (encoder : E) :
    (step.tokencake = none ∧ (step.withResources manager controller encoder).tokencake = none) ∨
      ∃ old new, step.tokencake = some old ∧ new.metadata = old.metadata ∧
        (step.withResources manager controller encoder).tokencake = some new := by
  rcases keeps with ⟨inactive, rfl⟩ | ⟨old, new, active, rfl, same⟩
  · exact .inl ⟨inactive, inactive⟩
  · refine .inr ⟨old, new, active, same, ?_⟩
    simp [Step.tokencake, withResources, (tokencake_eq_some active).1]

theorem KeepsAnnotations.isAnnotated_eq (manager : M) (encoder : E) (id : RequestId) :
    (step.withResources manager controller encoder).isAnnotated id = step.isAnnotated id := by
  unfold isAnnotated
  rcases keeps.tokencake manager encoder with ⟨before, after⟩ | ⟨old, new, before, same, after⟩
  · rw [before, after]
  · simp only [before, after, same]

theorem KeepsAnnotations.tokencake_eq_none
    (inactive : (step.withResources manager controller encoder).tokencake = none) :
    step.tokencake = none := by
  rcases keeps.tokencake manager encoder with ⟨before, _⟩ | ⟨_, _, _, _, after⟩
  · exact before
  · cases after.symm.trans inactive

end

end

omit [KVCacheManager M] [EncoderCache E] in
theorem Defers.keepsAnnotations
    (defers : step.Defers id controller) : step.KeepsAnnotations controller := by
  rcases defers with rfl | ⟨old, active, rfl⟩
  · cases active : step.tokencake with
    | none => exact .inl ⟨active, rfl⟩
    | some old => exact .inr ⟨old, old, active, (tokencake_eq_some active).2, rfl⟩
  · exact .inr ⟨old, _, active, rfl, metadata_defer _ _⟩

section

omit [EncoderCache E]

theorem Asks.keepsAnnotations {allowed : Bool}
    (asks : step.Asks probe allowed manager controller) : step.KeepsAnnotations controller := by
  rcases asks with ⟨inactive, _, _, same⟩ | ⟨old, new, active, same, answer⟩
  · exact .inl ⟨inactive, same⟩
  · exact .inr ⟨old, new, active, same, metadata_canAllocate answer⟩

theorem Commits.keepsAnnotations
    {running : Bool} {numEncoderTokens : Nat} {newBlocks : Option KVCacheBlocks}
    {borrowReserved : Bool}
    (commits : step.Commits manager id running numEncoderTokens newBlocks borrowReserved
      controller) : step.KeepsAnnotations controller := by
  rcases commits with ⟨inactive, same⟩ | ⟨old, new, active, same, commit⟩
  · exact .inl ⟨inactive, same⟩
  · exact .inr ⟨old, new, active, same, metadata_commit commit⟩

end

omit [KVCacheManager M] [EncoderCache E] in
/-- Two changes that keep the annotations keep them together. -/
theorem KeepsAnnotations.trans (first : step.KeepsAnnotations middle)
    (second : (step.withResources manager middle encoder).KeepsAnnotations controller) :
    step.KeepsAnnotations controller := by
  rcases first with ⟨_, rfl⟩ | ⟨old, new, active, rfl, same⟩
  · exact second
  · have between : (step.withResources manager (some new) encoder).tokencake = some new := by
      simp [Step.tokencake, withResources, (tokencake_eq_some active).1]
    rcases second with ⟨inactive, _⟩ | ⟨_, final, active', rfl, kept⟩
    · cases between.symm.trans inactive
    · cases between.symm.trans active'
      exact .inr ⟨old, final, active, rfl, kept.trans same⟩

section

variable (settled : step.scheduler.Settled env id ready scheduler)

include settled

section

omit [EncoderCache E]

theorem tokencake_withScheduler_of_settled :
    (step.withScheduler scheduler).tokencake = step.tokencake ∨
      ∃ manager : M, (step.withScheduler scheduler).tokencake =
        step.tokencake.map fun controller => controller.release manager := by
  cases settled with
  | unblocked _ | blocked _ | grammar _ | loaded _ _ _ _ _ _ => exact .inl rfl
  | loadFailed _ _ _ _ =>
    refine .inr ⟨KVCacheManager.free step.scheduler.kvCacheManager id, ?_⟩
    unfold Step.tokencake withScheduler
    split <;> rfl

theorem isAnnotated_withScheduler_of_settled (other : RequestId) :
    (step.withScheduler scheduler).isAnnotated other = step.isAnnotated other := by
  unfold isAnnotated
  rcases tokencake_withScheduler_of_settled settled with same | ⟨manager, released⟩
  · rw [same]
  · rw [released]
    cases step.tokencake with
    | none => rfl
    | some controller => simp

theorem tokencake_withScheduler_eq_none :
    (step.withScheduler scheduler).tokencake = none ↔ step.tokencake = none := by
  rcases tokencake_withScheduler_of_settled settled with same | ⟨manager, released⟩
  · rw [same]
  · rw [released, Option.map_eq_none_iff]

end

end

end Annotations

section Invariant

/-- The requests that do not run: queued or set aside. -/
def unstarted (step : Step M E) : List RequestId :=
  step.scheduler.waiting ++ step.scheduler.skippedWaiting ++ step.stepSkippedWaiting

/-- Every request the call handles. -/
def contents (step : Step M E) : List RequestId :=
  step.unstarted ++ step.scheduler.running

/-- Whether a place belongs to the loop over running requests. -/
def inRunningLoop : Phase → Bool
  | .running | .growing _ | .allocating _ | .afterRunning => true
  | .waiting | .choosing _ _ _ | .admitting _ _ | .done => false

/-- What the place in the call promises about candidates and their order. -/
def Consistent (step : Step M E) : Prop :=
  match step.phase with
  | .choosing pending eligible best =>
    step.agentOrder = none ∧ step.tokencake ≠ none ∧ best ∈ step.scheduler.tagged ∧
      ∃ others, (eligible ++ pending ++ others).Perm step.scheduler.tagged ∧
        (step.cacheAgentOrder = true → others = [])
  | .admitting requestId name =>
    requestId ∈ step.scheduler.queue name ∧
      (step.tokencake = none → (step.scheduler.queue name).head? = some requestId) ∧
      ∀ order, step.agentOrder = some order →
        ((requestId, name) :: order).Perm step.scheduler.tagged
  | .waiting => ∀ order, step.agentOrder = some order → order.Perm step.scheduler.tagged
  | .done => True
  | _ => step.agentOrder = none ∧ step.cacheAgentOrder = false ∧ step.stepSkippedWaiting = []

/-- The queues of a call that started with some requests. -/
structure QueueInvariant (initial : List RequestId) (step : Step M E) : Prop where
  conserved : step.contents.Perm initial
  deferredNodup : step.reservationDeferred.Nodup
  deferredAside : ∀ id ∈ step.reservationDeferred, id ∈ step.stepSkippedWaiting
  borrowed : step.borrowReserved = true → step.reservationDeferred = []
  /-- A cached order is only used among annotated requests without adapters. -/
  cached : step.cacheAgentOrder = true → step.scheduler.config.maxLoras = none ∧
    ∀ id ∈ step.unstarted, step.isAnnotated id = true
  uncached : step.cacheAgentOrder = false → step.agentOrder = none
  consistent : step.Consistent

variable {initial : List RequestId} {env : StepEnvironment} {step next : Step M E}
  {id : RequestId} {name : QueueName} {rest : RequestQueue}
  {scheduler : Scheduler M E} {candidate : RequestId × QueueName} {ready : Bool}

variable {eligible pending : List (RequestId × QueueName)}
  {controller : Option SchedulingController} {best : RequestId × QueueName}
  {waiting : RequestQueue} {manager : M} {calls : Nat}

section

omit [KVCacheManager M] [EncoderCache E]

/-- A request that leaves its queue to run leaves the unstarted ones. -/
theorem unstarted_perm_of_removed (removed : (step.scheduler.queue name).Perm (requestId :: rest)) :
    step.unstarted.Perm (requestId :: ((step.scheduler.setQueue name rest).waiting ++
      (step.scheduler.setQueue name rest).skippedWaiting ++ step.stepSkippedWaiting)) := by
  rw [perm_iff_count]
  intro id
  have removedCount := removed.count_eq id
  cases name <;>
    simp only [unstarted, setQueue, queue, count_append, count_cons] at * <;>
    omega

/-- Setting a request aside only moves it. -/
theorem unstarted_perm_of_aside {aside : RequestQueue}
    (removed : (step.scheduler.queue name).Perm (id :: rest))
    (added : aside.Perm (id :: step.stepSkippedWaiting)) :
    ((step.scheduler.setQueue name rest).waiting ++
      (step.scheduler.setQueue name rest).skippedWaiting ++ aside).Perm step.unstarted :=
  ((added.append_left _).trans perm_middle).trans (unstarted_perm_of_removed removed).symm

/-- The order of the remaining candidates fits the remaining queues. -/
theorem perm_tagged_of_removed (fits : ((id, name) :: order).Perm scheduler.tagged)
    (removed : (scheduler.queue name).Perm (id :: rest)) :
    order.Perm (scheduler.setQueue name rest).tagged :=
  (fits.trans (tagged_perm_of_removed removed)).cons_inv

/-- A request that is in a queue is not set aside. -/
theorem notMem_aside_of_mem_queue (nodup : initial.Nodup)
    (invariant : QueueInvariant initial step) (queued : id ∈ step.scheduler.queue name) :
    id ∉ step.stepSkippedWaiting := by
  have separate : step.unstarted.Nodup :=
    ((invariant.conserved.nodup_iff.mpr nodup).sublist (sublist_append_left ..))
  unfold unstarted at separate
  rw [nodup_append] at separate
  intro aside
  refine separate.2.2 id ?_ id aside rfl
  cases name with
  | waiting => exact mem_append_left _ queued
  | skippedWaiting => exact mem_append_right _ queued

/-- A request that is in a queue takes part in the call. -/
theorem mem_unstarted_of_mem_queue
    (queued : id ∈ step.scheduler.queue name) : id ∈ step.unstarted := by
  cases name with
  | waiting => exact mem_append_left _ (mem_append_left _ queued)
  | skippedWaiting => exact mem_append_left _ (mem_append_right _ queued)

theorem prependSkipped_perm (step : Step M E) (id : RequestId) :
    (step.prependSkipped id).stepSkippedWaiting.Perm (id :: step.stepSkippedWaiting) :=
  prependRequest_perm _ _ _ _

theorem Consistent.at {place : Phase} (consistent : step.Consistent) (phase : step.phase = place) :
    { step with phase := place }.Consistent := by
  subst phase
  exact consistent

/-- The loop over running requests does not use a cached order. -/
theorem Consistent.unordered (consistent : step.Consistent)
    (loop : inRunningLoop step.phase = true) :
    step.agentOrder = none ∧ step.cacheAgentOrder = false ∧ step.stepSkippedWaiting = [] := by
  unfold Consistent at consistent
  cases phase : step.phase <;> rw [phase] at consistent loop
  all_goals first
    | exact consistent
    | cases loop

/-- A preempted request moves from the running list to the waiting queue. -/
theorem contents_perm_of_preempted {victim : RequestId} {running : List RequestId}
    (removed : step.scheduler.running.Perm (victim :: running))
    (queued : waiting.Perm (victim :: step.scheduler.waiting)) :
    (waiting ++ step.scheduler.skippedWaiting ++ step.stepSkippedWaiting ++ running).Perm
      step.contents := by
  rw [perm_iff_count]
  intro id
  have removedCount := removed.count_eq id
  have queuedCount := queued.count_eq id
  simp only [contents, unstarted, count_append, count_cons] at *
  omega

/-- Taking a chosen request out of its queue removes this request. -/
theorem TakesOut.removed (takes : step.TakesOut name id rest)
    (head : step.tokencake = none → (step.scheduler.queue name).head? = some id) :
    (step.scheduler.queue name).Perm (id :: rest) := by
  cases active : step.tokencake with
  | none =>
    simp only [TakesOut, active] at takes
    obtain ⟨popped, pop⟩ := takes
    obtain ⟨poppedHead, removed⟩ := popRequest_perm pop
    cases (head active).symm.trans poppedHead
    exact removed
  | some controller =>
    simp only [TakesOut, active] at takes
    exact removeRequest_perm takes

theorem KeepsAnnotations.removed (keeps : step.KeepsAnnotations controller)
    (taken : ((step.withResources manager controller encoder).withCalls calls).TakesOut name
      id rest) (head : step.tokencake = none → (step.scheduler.queue name).head? = some id) :
    (step.scheduler.queue name).Perm (id :: rest) :=
  taken.removed fun inactive => head (keeps.tokencake_eq_none inactive)

end

/-- What becomes of a chosen request, from the step with the resources after it. -/
inductive AdmissionEnd (charged : Step M E) (requestId : RequestId)
    (name : QueueName) : Step M E → Prop where
  | leave : AdmissionEnd charged requestId name (charged.goto .done)
  | aside (rest : RequestQueue) (taken : charged.TakesOut name requestId rest)
      (deferred : List RequestId)
      (deferral : deferred = charged.reservationDeferred ∨
        deferred = charged.reservationDeferred ++ [requestId] ∧ charged.borrowReserved = false) :
      AdmissionEnd charged requestId name
        ((({ charged with reservationDeferred := deferred }.withQueue name
          rest).prependSkipped requestId).goto .waiting)
  | await (rest : RequestQueue) (taken : charged.TakesOut name requestId rest)
      (probe : WaitingProbe) (chosen : probe.requestId = requestId ∧ probe.queue = name) :
      AdmissionEnd charged requestId name ((charged.withQueue name rest).awaitRemoteKvs probe)
  | start (rest : RequestQueue) (taken : charged.TakesOut name requestId rest)
      (probe : WaitingProbe) (chosen : probe.requestId = requestId ∧ probe.queue = name)
      (newReqs resumedReqs : List RequestId) :
      AdmissionEnd charged requestId name
        (((charged.withQueue name rest).started probe newReqs resumedReqs).recordEncoderInputs
          requestId probe.encoderInputsToSchedule probe.newEncoderComputeBudget)

/-- Every move of an admission has one of four ends. -/
theorem AdmissionMove.ends (move : AdmissionMove env step id name next) :
    ∃ manager controller encoder calls, step.KeepsAnnotations controller ∧
      AdmissionEnd ((step.withResources manager controller encoder).withCalls calls) id
        name next := by
  cases move with
  | setAside controller deferred calls rest taken =>
    refine ⟨_, controller, _, calls, deferred.keepsAnnotations, .aside rest ?_ _ (.inl rfl)⟩
    exact taken
  | leave encoder examined calls =>
    have unchanged : step.Defers id step.scheduler.tokencakeScheduling := .inl rfl
    exact ⟨_, _, encoder, calls, unchanged.keepsAnnotations, .leave⟩
  | deny probe chosen calls numNewTokens scan probed old new manager active asked deferred
      deferral rest taken =>
      have keeps : step.KeepsAnnotations (some (new.defer (step.request id))) := by
        refine .inr ⟨old, _, active, rfl, ?_⟩
        rw [metadata_defer]
        exact metadata_canAllocate asked
      refine ⟨manager, _, _, calls, keeps, .aside rest ?_ deferred deferral⟩
      exact taken
  | refuse probe chosen calls numNewTokens scan probed askedManager controller asked manager
      allocated => exact ⟨manager, controller, _, calls, asked.keepsAnnotations, .leave⟩
  | await probe chosen calls numNewTokens scan probed askedManager askedController asked
      newBlocks manager allocated controller committed rest taken loads =>
      refine ⟨manager, controller, _, calls,
        asked.keepsAnnotations.trans committed.keepsAnnotations, .await rest ?_ probe chosen⟩
      exact taken
  | start probe chosen calls numNewTokens scan probed askedManager askedController asked
      newBlocks manager allocated controller committed rest taken loads newReqs resumedReqs
      recorded encoder referred =>
      refine ⟨manager, controller, encoder, calls,
        asked.keepsAnnotations.trans committed.keepsAnnotations,
        .start rest ?_ probe chosen newReqs resumedReqs⟩
      exact taken

section

omit [KVCacheManager M] [EncoderCache E]

/-- Keeping a candidate only moves it among the examined ones. -/
theorem Consistent.keepCandidate (other : Step M E) (consistent : step.Consistent)
    (phase : step.phase = .choosing (candidate :: pending) eligible best)
    (queues : other.scheduler.tagged = step.scheduler.tagged)
    (active : other.tokencake = none → step.tokencake = none)
    (order : other.agentOrder = step.agentOrder)
    (cache : other.cacheAgentOrder = step.cacheAgentOrder) :
    (other.goto (other.keepCandidate candidate pending eligible best)).Consistent := by
  obtain ⟨unordered, isActive, bestQueued, others, fits, complete⟩ := consistent.at phase
  rw [← order] at unordered
  rw [← queues] at bestQueued fits
  rw [← cache] at complete
  have queued : candidate ∈ other.scheduler.tagged := by
    refine fits.mem_iff.mp ?_
    simp
  have stillActive : other.tokencake ≠ none := fun none_ => isActive (active none_)
  unfold Step.keepCandidate
  split
  · next cached =>
    refine ⟨unordered, stillActive, bestQueued, [], ?_, fun _ => rfl⟩
    have nothing := complete cached
    subst nothing
    refine Perm.trans ?_ fits
    simp
  · next uncached =>
    have demoted : (eligible ++ pending ++ (candidate :: others)).Perm other.scheduler.tagged := by
      refine Perm.trans ?_ fits
      rw [append_assoc, append_assoc, cons_append]
      exact perm_middle.append_left eligible
    split
    · exact ⟨unordered, stillActive, queued, candidate :: others, demoted,
        fun cached => absurd cached uncached⟩
    · exact ⟨unordered, stillActive, bestQueued, candidate :: others, demoted,
        fun cached => absurd cached uncached⟩

theorem tokencake_ne_none_of_isAnnotated
    (annotated : step.isAnnotated id = true) : step.tokencake ≠ none := by
  intro inactive
  unfold isAnnotated at annotated
  rw [inactive] at annotated
  cases annotated

/-- The chosen candidate is queued, and the others still fit the queues. -/
theorem consistent_admitting {rest : List (RequestId × QueueName)}
    (active : step.tokencake ≠ none) (fits : (candidate :: rest).Perm step.scheduler.tagged) :
    { step with
      agentOrder := some rest
      phase := .admitting candidate.1 candidate.2 }.Consistent := by
  refine ⟨?_, fun none_ => absurd none_ active, ?_⟩
  · exact mem_tagged.mp (fits.mem_iff.mp mem_cons_self)
  · rintro order ⟨⟩
    exact fits

end

omit [EncoderCache E] in
theorem orderCandidates_perm (step : Step M E) (eligible : List (RequestId × QueueName)) :
    (step.orderCandidates eligible).Perm eligible := by
  unfold orderCandidates
  split
  · exact Perm.refl _
  · exact SchedulingController.orderCandidates_perm ..

variable (invariant : QueueInvariant initial step)

include invariant

omit [KVCacheManager M] [EncoderCache E] in
/-- Moves of the loop over running requests, up to what they do to the requests. -/
theorem QueueInvariant.of_runningLoop
    (loop : inRunningLoop step.phase = true) (contents : next.contents.Perm step.contents)
    (aside : next.stepSkippedWaiting = step.stepSkippedWaiting)
    (deferred : next.reservationDeferred = step.reservationDeferred)
    (borrow : next.borrowReserved = step.borrowReserved) (order : next.agentOrder = step.agentOrder)
    (cache : next.cacheAgentOrder = step.cacheAgentOrder)
    (phase : inRunningLoop next.phase = true ∨ next.phase = .done) :
    QueueInvariant initial next := by
  obtain ⟨unordered, uncached, nothing⟩ := invariant.consistent.unordered loop
  rw [← order] at unordered
  rw [← cache] at uncached
  rw [← aside] at nothing
  refine ⟨contents.trans invariant.conserved, ?_, ?_, ?_, ?_, fun _ => unordered, ?_⟩
  · rw [deferred]
    exact invariant.deferredNodup
  · rw [deferred, aside]
    exact invariant.deferredAside
  · rw [deferred, borrow]
    exact invariant.borrowed
  · rw [uncached]
    exact nofun
  · unfold Consistent
    cases nextPhase : next.phase <;> rw [nextPhase] at phase <;>
      simp [inRunningLoop] at phase ⊢ <;> exact ⟨unordered, uncached, nothing⟩

theorem QueueInvariant.of_runningMove
    (move : RunningMove env step next) : QueueInvariant initial next := by
  cases move with
  | leave phase | skipFinished phase _ _ | skipProbed phase _ _ _ _ _ | prepare phase
  | denyGrowth probe phase | allowGrowth probe phase _ | schedule probe phase =>
    exact invariant.of_runningLoop (by rw [phase]; rfl) (.refl _) rfl rfl rfl rfl rfl (.inl rfl)
  | preempt probe phase manager _ _ controller _ victim _ _ running removed _ _ _
  | preemptScheduled probe phase _ _ _ _ _ victim _ _ running removed _ _ _ _ _ =>
    refine invariant.of_runningLoop (by rw [phase]; rfl)
      (contents_perm_of_preempted removed (prependRequest_perm ..))
      rfl rfl rfl rfl rfl (.inl ?_)
    unfold afterPreemption
    split <;> rfl
  | enterWaiting phase _ _ =>
    obtain ⟨unordered, _, nothing⟩ := invariant.consistent.unordered (by rw [phase]; rfl)
    refine { invariant with cached := ?_, uncached := fun _ => unordered, consistent := ?_ }
    · intro cached
      simp only [Bool.and_eq_true, Option.isNone_iff_eq_none, all_eq_true] at cached
      refine ⟨cached.1.2, fun id mem => cached.2 id ?_⟩
      have split : id ∈ step.scheduler.waiting ++ step.scheduler.skippedWaiting ++
          step.stepSkippedWaiting := mem
      rwa [nothing, append_nil] at split
    · intro order some_
      cases unordered.symm.trans some_
  | skipWaiting phase _ =>
    exact invariant.of_runningLoop (by rw [phase]; rfl) (.refl _) rfl rfl rfl rfl rfl (.inr rfl)

omit [KVCacheManager M] [EncoderCache E] in
/-- Setting a queued request aside, up to what else changes. -/
theorem QueueInvariant.of_aside (removed : (step.scheduler.queue name).Perm (requestId :: rest))
    (annotations : ∀ id, next.isAnnotated id = step.isAnnotated id)
    (deferral : next.reservationDeferred = step.reservationDeferred ∨
      next.reservationDeferred = step.reservationDeferred ++ [requestId] ∧
        step.borrowReserved = false ∧ requestId ∉ step.stepSkippedWaiting)
    (aside : next.stepSkippedWaiting.Perm (requestId :: step.stepSkippedWaiting))
    (waiting : next.scheduler.waiting = (step.scheduler.setQueue name rest).waiting)
    (skipped : next.scheduler.skippedWaiting = (step.scheduler.setQueue name rest).skippedWaiting)
    (running : next.scheduler.running = step.scheduler.running)
    (config : next.scheduler.config = step.scheduler.config)
    (borrow : next.borrowReserved = step.borrowReserved)
    (cache : next.cacheAgentOrder = step.cacheAgentOrder)
    (uncached : next.cacheAgentOrder = false → next.agentOrder = none)
    (consistent : next.Consistent) : QueueInvariant initial next := by
  have moved : next.unstarted.Perm step.unstarted := by
    unfold unstarted
    rw [waiting, skipped]
    exact unstarted_perm_of_aside removed aside
  refine ⟨?_, ?_, ?_, ?_, ?_, uncached, consistent⟩
  · unfold contents
    rw [running]
    exact (moved.append_right _).trans invariant.conserved
  · rcases deferral with same | ⟨appended, _, fresh⟩
    · rw [same]
      exact invariant.deferredNodup
    · rw [appended]
      refine nodup_append.mpr ⟨invariant.deferredNodup, nodup_singleton _, ?_⟩
      rintro id deferred other same rfl
      exact fresh (mem_singleton.mp same ▸ invariant.deferredAside id deferred)
  · intro id mem
    refine aside.mem_iff.mpr ?_
    rcases deferral with same | ⟨appended, _⟩
    · rw [same] at mem
      exact mem_cons_of_mem _ (invariant.deferredAside id mem)
    · rw [appended] at mem
      rcases mem_append.mp mem with mem | mem
      · exact mem_cons_of_mem _ (invariant.deferredAside id mem)
      · rw [mem_singleton.mp mem]
        exact mem_cons_self
  · intro borrowed
    rw [borrow] at borrowed
    rcases deferral with same | ⟨_, unborrowed, _⟩
    · rw [same]
      exact invariant.borrowed borrowed
    · cases borrowed.symm.trans unborrowed
  · intro cached
    rw [cache] at cached
    rw [config]
    refine ⟨(invariant.cached cached).1, fun id mem => ?_⟩
    rw [annotations id]
    exact (invariant.cached cached).2 id (moved.mem_iff.mp mem)

section

omit [EncoderCache E]

theorem QueueInvariant.of_setHeadAside {agentOrder : Option (List (RequestId × QueueName))}
    (settled : step.scheduler.Settled env id ready scheduler)
    (removed : (step.scheduler.queue name).Perm (id :: rest)) (order : agentOrder = none ∨
      agentOrder = step.agentOrder ∧ step.scheduler.config.maxLoras ≠ none) :
    QueueInvariant initial
      { ((step.withScheduler scheduler).withQueue name rest).prependSkipped id with
        agentOrder := agentOrder
        phase := .waiting } := by
  have annotations := isAnnotated_withScheduler_of_settled settled
  have added := prependSkipped_perm ((step.withScheduler scheduler).withQueue name rest) id
  obtain ⟨_, _, _, _, _, rfl⟩ := settled.shape
  have unordered : agentOrder = none := by
    rcases order with none_ | ⟨same, adapters⟩
    · exact none_
    · rw [same]
      refine invariant.uncached ?_
      cases cache : step.cacheAgentOrder with
      | false => rfl
      | true => exact absurd (invariant.cached cache).1 adapters
  refine invariant.of_aside removed annotations (.inl rfl) added rfl rfl rfl rfl rfl rfl
    (fun _ => unordered) ?_
  intro order some_
  cases unordered.symm.trans some_

theorem QueueInvariant.of_dropCandidate
    (phase : step.phase = .choosing (candidate :: pending) eligible best)
    (different : candidate.1 ≠ best.1)
    (settled : step.scheduler.Settled env candidate.1 ready scheduler)
    (removed : (step.scheduler.queue candidate.2).Perm (candidate.1 :: rest)) :
    QueueInvariant initial
      ((((step.withScheduler scheduler).withQueue candidate.2 rest).prependSkipped
        candidate.1).goto (.choosing pending eligible best)) := by
  have annotations := isAnnotated_withScheduler_of_settled settled
  have inactive := tokencake_withScheduler_eq_none settled
  have added := prependSkipped_perm ((step.withScheduler scheduler).withQueue candidate.2 rest)
    candidate.1
  obtain ⟨_, _, _, _, _, rfl⟩ := settled.shape
  obtain ⟨unordered, active, bestQueued, others, fits, complete⟩ := invariant.consistent.at phase
  have shrinks := tagged_perm_of_removed removed
  refine invariant.of_aside removed annotations (.inl rfl) added rfl rfl rfl rfl rfl rfl
    (fun _ => unordered) ⟨unordered, fun none_ => active (inactive.mp none_), ?_, others, ?_,
      complete⟩
  · have kept := shrinks.mem_iff.mp bestQueued
    rcases mem_cons.mp kept with same | kept
    · exact absurd (congrArg Prod.fst same).symm different
    · exact kept
  · have front : (candidate :: (eligible ++ pending ++ others)).Perm step.scheduler.tagged := by
      refine Perm.trans ?_ fits
      rw [append_assoc, append_assoc, cons_append]
      exact perm_middle.symm
    exact (front.trans shrinks).cons_inv

/-- A move that only settles a request and goes to another place. -/
theorem QueueInvariant.of_settled (phase : Phase)
    (agentOrder : Option (List (RequestId × QueueName)))
    (settled : step.scheduler.Settled env requestId ready scheduler)
    (uncached : step.cacheAgentOrder = false → agentOrder = none)
    (consistent :
      { step with scheduler := scheduler, agentOrder := agentOrder, phase := phase }.Consistent) :
    QueueInvariant initial
      { step with scheduler := scheduler, agentOrder := agentOrder, phase := phase } := by
  have annotations := isAnnotated_withScheduler_of_settled settled
  obtain ⟨_, _, _, _, _, rfl⟩ := settled.shape
  refine { invariant with uncached, consistent, cached := fun cached => ?_ }
  refine ⟨(invariant.cached cached).1, fun id mem => ?_⟩
  exact (annotations id).trans ((invariant.cached cached).2 id mem)

end

section

omit [KVCacheManager M] [EncoderCache E]

/-- A move that only goes to another place. -/
theorem QueueInvariant.of_goto (phase : Phase) (agentOrder : Option (List (RequestId × QueueName)))
    (uncached : step.cacheAgentOrder = false → agentOrder = none)
    (consistent : { step with agentOrder := agentOrder, phase := phase }.Consistent) :
    QueueInvariant initial { step with agentOrder := agentOrder, phase := phase } :=
  { invariant with uncached, consistent }

theorem QueueInvariant.of_borrow (phase : step.phase = .waiting)
    (returned : step.stepSkippedWaiting.Perm (step.reservationDeferred ++ skipped))
    (queued : waiting.Perm (step.reservationDeferred ++ step.scheduler.waiting)) :
    QueueInvariant initial (step.borrowing waiting skipped) := by
  have moved : (waiting ++ step.scheduler.skippedWaiting ++ skipped).Perm step.unstarted := by
    rw [perm_iff_count]
    intro id
    have returnedCount := returned.count_eq id
    have queuedCount := queued.count_eq id
    simp only [unstarted, count_append] at *
    omega
  refine ⟨(moved.append_right _).trans invariant.conserved, nodup_nil, nofun,
    fun _ => rfl, ?_, fun _ => rfl, ?_⟩
  · intro cached
    exact ⟨(invariant.cached cached).1,
      fun id mem => (invariant.cached cached).2 id (moved.mem_iff.mp mem)⟩
  · simp only [borrowing, phase]
    exact nofun

end

section

omit [EncoderCache E]

theorem QueueInvariant.of_startChoosing {controller : SchedulingController}
    (head : (step.scheduler.queue name).head? = some requestId)
    (settled : step.scheduler.Settled env requestId true scheduler)
    (active : (step.withScheduler scheduler).tokencake = some controller)
    (order : step.agentOrder = none) :
    QueueInvariant initial ((step.withScheduler scheduler).goto (.choosing
          (controller.annotatedPrefix scheduler.config.policy scheduler.lt scheduler.waiting
            scheduler.skippedWaiting) [] (requestId, name))) := by
  have annotations := isAnnotated_withScheduler_of_settled settled
  obtain ⟨others, fits, complete⟩ := controller.annotatedPrefix_perm scheduler.config.policy
    scheduler.lt scheduler.waiting scheduler.skippedWaiting
  have isActive : (step.withScheduler scheduler).tokencake ≠ none := by
    rw [active]
    simp
  have queued : (requestId, name) ∈ scheduler.tagged := by
    rw [settled.tagged_eq, mem_tagged]
    exact mem_of_mem_head? head
  refine invariant.of_settled (.choosing _ [] (requestId, name)) step.agentOrder settled
    (fun _ => order) ⟨order, isActive, queued, others, fits, ?_⟩
  intro cached
  refine complete fun id mem => ?_
  have annotated : (step.withScheduler scheduler).isAnnotated id = true := by
    rw [annotations id]
    obtain ⟨_, _, _, _, _, rfl⟩ := settled.shape
    exact (invariant.cached cached).2 id (mem_append_left _ mem)
  unfold isAnnotated at annotated
  rw [active] at annotated
  exact of_decide_eq_true annotated

theorem QueueInvariant.of_waitingMove
    (move : WaitingMove env step next) : QueueInvariant initial next := by
  cases move with
  | leave phase => exact invariant.of_goto .done step.agentOrder invariant.uncached trivial
  | borrow phase skipped waiting returned queued _ _ _ =>
    exact invariant.of_borrow phase returned queued
  | setHeadAside phase name requestId ready scheduler settled rest removed agentOrder order =>
    exact invariant.of_setHeadAside settled removed order
  | chooseHead phase name requestId head scheduler settled ordinary =>
    have queued := mem_of_mem_head? head
    have unordered : step.agentOrder = none := by
      refine invariant.uncached ?_
      cases cache : step.cacheAgentOrder with
      | false => rfl
      | true =>
        have annotated := (invariant.cached cache).2 requestId (mem_unstarted_of_mem_queue queued)
        rw [isAnnotated_withScheduler_of_settled settled, annotated] at ordinary
        cases ordinary
    rw [← settled.queue_eq name] at head queued
    refine invariant.of_settled (.admitting requestId name) step.agentOrder settled
      (fun _ => unordered) ⟨queued, fun _ => head, ?_⟩
    intro order some_
    cases unordered.symm.trans some_
  | chooseOrdered phase name requestId head scheduler settled annotated candidate rest order =>
    have fits := invariant.consistent.at phase _ order
    rw [← settled.tagged_eq] at fits
    have active := tokencake_ne_none_of_isAnnotated annotated
    refine invariant.of_settled (.admitting candidate.1 candidate.2) (some rest) settled ?_ ?_
    · intro uncached
      cases (invariant.uncached uncached).symm.trans order
    · exact consistent_admitting active fits
  | startChoosing phase name requestId selected head scheduler settled controller active
      annotated order =>
      exact invariant.of_startChoosing head settled active order
  | keepBest candidate best pending eligible phase same =>
    have kept := Consistent.keepCandidate step invariant.consistent phase rfl id rfl rfl
    exact invariant.of_goto (step.keepCandidate candidate pending eligible best)
      step.agentOrder invariant.uncached kept
  | keepCandidate candidate best pending eligible phase scheduler settled =>
    have kept := Consistent.keepCandidate (step.withScheduler scheduler)
      invariant.consistent phase settled.tagged_eq
      (tokencake_withScheduler_eq_none settled).mp rfl rfl
    exact invariant.of_settled _ step.agentOrder settled invariant.uncached kept
  | dropCandidate candidate best pending eligible phase different ready scheduler settled rest
      removed =>
      exact invariant.of_dropCandidate phase different settled removed
  | chooseBest eligible best phase uncached =>
    obtain ⟨unordered, active, bestQueued, _⟩ := invariant.consistent.at phase
    refine invariant.of_goto (.admitting best.1 best.2) step.agentOrder invariant.uncached
      ⟨mem_tagged.mp bestQueued, fun none_ => absurd none_ active, ?_⟩
    intro order some_
    cases unordered.symm.trans some_
  | chooseFirst eligible best phase cached candidate rest order =>
    obtain ⟨_, active, _, others, fits, complete⟩ := invariant.consistent.at phase
    have nothing := complete cached
    subst nothing
    rw [append_nil, append_nil] at fits
    have ordered := (step.orderCandidates_perm eligible).trans fits
    rw [order] at ordered
    refine invariant.of_goto (.admitting candidate.1 candidate.2) (some rest) ?_ ?_
    · intro uncached
      cases cached.symm.trans uncached
    · exact consistent_admitting active ordered

end

section

omit [KVCacheManager M] [EncoderCache E]

/-- The cached order continues behind a chosen request that is set aside. -/
theorem QueueInvariant.consistent_of_aside (phase : step.phase = .admitting id name)
    (removed : (step.scheduler.queue name).Perm (id :: rest))
    (tagged : next.scheduler.tagged = (step.scheduler.setQueue name rest).tagged)
    (agentOrder : next.agentOrder = step.agentOrder)
    (nextPhase : next.phase = .waiting) : next.Consistent := by
  unfold Consistent
  rw [nextPhase, tagged, agentOrder]
  exact fun order some_ =>
    perm_tagged_of_removed ((invariant.consistent.at phase).2.2 order some_) removed

/-- Leaving the loop. -/
theorem QueueInvariant.of_leave (keeps : step.KeepsAnnotations controller) :
    QueueInvariant initial
      (((step.withResources manager controller encoder).withCalls calls).goto .done) := by
  refine { invariant with consistent := trivial, cached := fun cached => ?_ }
  refine ⟨(invariant.cached cached).1, fun id mem => ?_⟩
  exact (keeps.isAnnotated_eq manager encoder id).trans ((invariant.cached cached).2 id mem)

end

omit [EncoderCache E] in
theorem QueueInvariant.of_started (phase : step.phase = .admitting probe.requestId probe.queue)
    (keeps : step.KeepsAnnotations controller)
    (removed : (step.scheduler.queue probe.queue).Perm (probe.requestId :: rest)) :
    QueueInvariant initial
      (((((step.withResources manager controller encoder).withCalls calls).withQueue probe.queue
        rest).started probe newReqs resumedReqs).recordEncoderInputs probe.requestId
          probe.encoderInputsToSchedule probe.newEncoderComputeBudget) := by
  obtain ⟨_, _, fits⟩ := invariant.consistent.at phase
  have shrinks := unstarted_perm_of_removed removed
  refine { invariant with
    conserved := Perm.trans ?_ invariant.conserved, cached := ?_, consistent := ?_ }
  · refine Perm.trans ?_ (shrinks.append_right step.scheduler.running).symm
    rw [perm_iff_count]
    simp only [contents, unstarted, recordEncoderInputs, started, withQueue, withScheduler,
      withCalls, withResources, modifyRequest, setQueue, count_append, count_cons,
      count_nil]
    omega
  · intro cached
    refine ⟨(invariant.cached cached).1, fun id mem => ?_⟩
    exact (keeps.isAnnotated_eq manager encoder id).trans
      ((invariant.cached cached).2 id (shrinks.mem_iff.mpr (mem_cons_of_mem _ mem)))
  · intro order some_
    exact perm_tagged_of_removed (fits order some_) removed

theorem QueueInvariant.of_admissionMove (nodup : initial.Nodup)
    (phase : step.phase = .admitting id name) (move : AdmissionMove env step id name next) :
    QueueInvariant initial next := by
  obtain ⟨queued, head, _⟩ := invariant.consistent.at phase
  obtain ⟨manager, controller, encoder, calls, keeps, ends⟩ := move.ends
  cases ends with
  | leave => exact invariant.of_leave keeps
  | aside rest taken deferred deferral =>
    have removed := keeps.removed taken head
    have fresh := notMem_aside_of_mem_queue nodup invariant queued
    exact invariant.of_aside removed (keeps.isAnnotated_eq manager encoder)
      (deferral.imp_right fun appended => ⟨appended.1, appended.2, fresh⟩)
      (prependSkipped_perm ..) rfl rfl rfl rfl rfl rfl invariant.uncached
      (invariant.consistent_of_aside phase removed rfl rfl rfl)
  | await rest taken probe chosen =>
    obtain ⟨rfl, rfl⟩ := chosen
    have removed := keeps.removed taken head
    exact invariant.of_aside removed (keeps.isAnnotated_eq manager encoder) (.inl rfl)
      (prependSkipped_perm ..) rfl rfl rfl rfl rfl rfl invariant.uncached
      (invariant.consistent_of_aside phase removed rfl rfl rfl)
  | start rest taken probe chosen newReqs resumedReqs =>
    obtain ⟨rfl, rfl⟩ := chosen
    exact invariant.of_started phase keeps (keeps.removed taken head)

theorem QueueInvariant.of_move (nodup : initial.Nodup)
    (move : Move env step next) : QueueInvariant initial next := by
  cases move with
  | running move => exact invariant.of_runningMove move
  | waiting move => exact invariant.of_waitingMove move
  | admission id name phase move => exact invariant.of_admissionMove nodup phase move

end Invariant

end Step

end TokenCake
