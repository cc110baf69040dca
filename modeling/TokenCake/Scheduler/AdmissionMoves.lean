import TokenCake.Scheduler.RunningMoves

/-!
# Moves of the loop over waiting requests

The moves that examine the queues and choose the request to be admitted next.

A chosen waiting request is set aside, ends the loop, is denied by the capacity
policy, finds no slots, waits for a load or starts to run.
-/

namespace TokenCake

open KVCacheManager RequestQueue

variable {M E : Type} [KVCacheManager M] [EncoderCache E]

namespace Step

/-- The step when the requests that lack reserved capacity get their second turn. -/
abbrev borrowing (step : Step M E) (waiting skipped : RequestQueue) : Step M E :=
  { step with
    scheduler := { step.scheduler with waiting := waiting }
    stepSkippedWaiting := skipped
    reservationDeferred := []
    borrowReserved := true
    agentOrder := none }

/-- The moves of the loop over waiting requests. -/
inductive WaitingMove (environment : StepEnvironment) (step : Step M E) : Step M E → Prop where
  | leave (phase : step.phase = .waiting) :
      WaitingMove environment step (step.goto .done)
  | borrow (phase : step.phase = .waiting) (skipped waiting : RequestQueue)
      (returned : step.stepSkippedWaiting.Perm (step.reservationDeferred ++ skipped))
      (queued : waiting.Perm (step.reservationDeferred ++ step.scheduler.waiting))
      (emptyWaiting : step.scheduler.waiting = [])
      (emptySkipped : step.scheduler.skippedWaiting = [])
      (deferred : step.reservationDeferred ≠ []) :
      WaitingMove environment step (step.borrowing waiting skipped)
  | setHeadAside (phase : step.phase = .waiting) (name : QueueName) (requestId : RequestId)
      (ready : Bool) (scheduler : Scheduler M E)
      (settled : step.scheduler.Settled environment requestId ready scheduler) (rest : RequestQueue)
      (removed : (step.scheduler.queue name).Perm (requestId :: rest))
      (agentOrder : Option (List (RequestId × QueueName)))
      (order : agentOrder = none ∨
        agentOrder = step.agentOrder ∧ step.scheduler.config.maxLoras ≠ none) :
      WaitingMove environment step
        { ((step.withScheduler scheduler).withQueue name rest).prependSkipped requestId with
          agentOrder := agentOrder
          phase := .waiting }
  | chooseHead (phase : step.phase = .waiting) (name : QueueName) (requestId : RequestId)
      (head : (step.scheduler.queue name).head? = some requestId) (scheduler : Scheduler M E)
      (settled : step.scheduler.Settled environment requestId true scheduler)
      (ordinary : (step.withScheduler scheduler).isAnnotated requestId = false) :
      WaitingMove environment step ((step.withScheduler scheduler).goto (.admitting requestId name))
  | chooseOrdered (phase : step.phase = .waiting) (name : QueueName) (requestId : RequestId)
      (head : (step.scheduler.queue name).head? = some requestId) (scheduler : Scheduler M E)
      (settled : step.scheduler.Settled environment requestId true scheduler)
      (annotated : (step.withScheduler scheduler).isAnnotated requestId = true)
      (candidate : RequestId × QueueName) (rest : List (RequestId × QueueName))
      (order : step.agentOrder = some (candidate :: rest)) :
      WaitingMove environment step
        { (step.withScheduler scheduler).goto (.admitting candidate.1 candidate.2) with
          agentOrder := some rest }
  | startChoosing (phase : step.phase = .waiting) (name : QueueName) (requestId : RequestId)
      (selected : step.scheduler.selectWaitingQueueForScheduling = some name)
      (head : (step.scheduler.queue name).head? = some requestId) (scheduler : Scheduler M E)
      (settled : step.scheduler.Settled environment requestId true scheduler)
      (controller : SchedulingController)
      (active : (step.withScheduler scheduler).tokencake = some controller)
      (annotated : requestId ∈ controller.metadata) (order : step.agentOrder = none) :
      WaitingMove environment step ((step.withScheduler scheduler).goto (.choosing
            (controller.annotatedPrefix scheduler.config.policy scheduler.lt scheduler.waiting
              scheduler.skippedWaiting) [] (requestId, name)))
  | keepBest (candidate best : RequestId × QueueName)
      (pending eligible : List (RequestId × QueueName))
      (phase : step.phase = .choosing (candidate :: pending) eligible best)
      (same : candidate.1 = best.1) :
      WaitingMove environment step (step.goto (step.keepCandidate candidate pending eligible best))
  | keepCandidate (candidate best : RequestId × QueueName)
      (pending eligible : List (RequestId × QueueName))
      (phase : step.phase = .choosing (candidate :: pending) eligible best)
      (scheduler : Scheduler M E)
      (settled : step.scheduler.Settled environment candidate.1 true scheduler) :
      WaitingMove environment step ((step.withScheduler scheduler).goto
          ((step.withScheduler scheduler).keepCandidate candidate pending eligible best))
  | dropCandidate (candidate best : RequestId × QueueName)
      (pending eligible : List (RequestId × QueueName))
      (phase : step.phase = .choosing (candidate :: pending) eligible best)
      (different : candidate.1 ≠ best.1) (ready : Bool) (scheduler : Scheduler M E)
      (settled : step.scheduler.Settled environment candidate.1 ready scheduler)
      (rest : RequestQueue)
      (removed : (step.scheduler.queue candidate.2).Perm (candidate.1 :: rest)) :
      WaitingMove environment step
        ((((step.withScheduler scheduler).withQueue candidate.2 rest).prependSkipped
          candidate.1).goto (.choosing pending eligible best))
  | chooseBest (eligible : List (RequestId × QueueName)) (best : RequestId × QueueName)
      (phase : step.phase = .choosing [] eligible best) (uncached : step.cacheAgentOrder = false) :
      WaitingMove environment step (step.goto (.admitting best.1 best.2))
  | chooseFirst (eligible : List (RequestId × QueueName)) (best : RequestId × QueueName)
      (phase : step.phase = .choosing [] eligible best) (cached : step.cacheAgentOrder = true)
      (candidate : RequestId × QueueName) (rest : List (RequestId × QueueName))
      (order : step.orderCandidates eligible = candidate :: rest) :
      WaitingMove environment step
        { step.goto (.admitting candidate.1 candidate.2) with agentOrder := some rest }

variable {step next : Step M E} {env : StepEnvironment} {name : QueueName} {id : RequestId}

section

omit [KVCacheManager M] [EncoderCache E]

theorem popFrom_eq_ok (popped : step.popFrom name = .ok next) :
    ∃ id rest, (step.scheduler.queue name).head? = some id ∧
      (step.scheduler.queue name).Perm (id :: rest) ∧ next = step.withQueue name rest := by
  obtain ⟨⟨id, rest⟩, pop, popped⟩ := bind_eq_ok.mp popped
  cases popped
  obtain ⟨head, perm⟩ := popRequest_perm pop
  exact ⟨id, rest, head, perm, rfl⟩

theorem removeFrom_eq_ok (removed : step.removeFrom name id = .ok next) :
    ∃ rest, (step.scheduler.queue name).Perm (id :: rest) ∧ next = step.withQueue name rest := by
  obtain ⟨rest, removal, removed⟩ := bind_eq_ok.mp removed
  cases removed
  exact ⟨rest, removeRequest_perm removal, rfl⟩

theorem returnDeferred_eq_ok (returned : returnDeferred candidates step = .ok next) :
    ∃ skipped waiting, step.stepSkippedWaiting.Perm (candidates ++ skipped) ∧
      waiting.Perm (candidates ++ step.scheduler.waiting) ∧
      next = { step with
        scheduler := { step.scheduler with waiting := waiting }
        stepSkippedWaiting := skipped } := by
  induction candidates generalizing step with
  | nil =>
    cases returned
    exact ⟨_, _, List.Perm.refl _, List.Perm.refl _, rfl⟩
  | cons candidate rest ih =>
    obtain ⟨skipped, removal, returned⟩ := bind_eq_ok.mp returned
    obtain ⟨finalSkipped, finalWaiting, skippedPerm, waitingPerm, rfl⟩ :=
      ih returned
    refine ⟨finalSkipped, finalWaiting, ?_, ?_, rfl⟩
    · exact (removeRequest_perm removal).trans (skippedPerm.cons candidate)
    · have added := (addRequest_perm step.scheduler.config.policy
        step.scheduler.lt step.scheduler.waiting candidate).append_left rest
      exact (waitingPerm.trans added).trans List.perm_middle

end

variable {scheduler : Scheduler M E}

omit [EncoderCache E] in
/-- After its head was settled, a queue is popped at that head. -/
theorem popFrom_settled_eq_ok (head : (step.scheduler.queue name).head? = some id)
    (settled : step.scheduler.Settled env id ready scheduler)
    (pop : (step.withScheduler scheduler).popFrom name = .ok popped) :
    ∃ rest, (step.scheduler.queue name).Perm (id :: rest) ∧
      popped = (step.withScheduler scheduler).withQueue name rest := by
  obtain ⟨other, rest, otherHead, perm, rfl⟩ := popFrom_eq_ok pop
  have same : (step.withScheduler scheduler).scheduler.queue name =
      step.scheduler.queue name := settled.queue_eq name
  rw [same] at otherHead perm
  cases head.symm.trans otherHead
  exact ⟨rest, perm, rfl⟩

omit [KVCacheManager M] [EncoderCache E] in
theorem maxLoras_ne_none_of_exceedsMaxLoras (exceeds : step.exceedsMaxLoras id = true) :
    step.scheduler.config.maxLoras ≠ none := by
  intro disabled
  unfold exceedsMaxLoras at exceeds
  rw [disabled] at exceeds
  cases exceeds

section

variable (phase : step.phase = .waiting)
  (selected : step.scheduler.selectWaitingQueueForScheduling = some name)

include phase selected

section

omit [EncoderCache E]

theorem waitingMove_of_compareCandidates (head : (step.scheduler.queue name).head? = some id)
    (settled : step.scheduler.Settled env id true scheduler)
    (active : (step.withScheduler scheduler).tokencake = some controller)
    (annotated : id ∈ controller.metadata)
    (moved : (step.withScheduler scheduler).compareCandidates controller name id = .ok next) :
    WaitingMove env step next := by
  unfold compareCandidates at moved
  split at moved
  · next order found =>
    unfold popCandidate at moved
    split at moved
    · cases moved
    · next candidate rest =>
      cases moved
      have known : (step.withScheduler scheduler).isAnnotated id = true := by
        unfold isAnnotated
        rw [active]
        exact decide_eq_true annotated
      exact .chooseOrdered phase name id head scheduler settled known candidate rest found
  · next order =>
    cases moved
    exact .startChoosing phase name id selected head scheduler settled controller
      active annotated order

theorem waitingMove_of_visitWaiting (moved : step.visitWaiting env name = .ok next) :
    WaitingMove env step next := by
  obtain ⟨id, peeked, moved⟩ := bind_eq_ok.mp moved
  have head := peekRequest_eq_ok peeked
  obtain ⟨⟨ready, scheduler⟩, settle, moved⟩ := bind_eq_ok.mp moved
  have settled := Scheduler.settled_of_settle settle
  dsimp only at moved
  split at moved
  · obtain ⟨popped, pop, moved⟩ := bind_eq_ok.mp moved
    cases moved
    obtain ⟨rest, perm, rfl⟩ := popFrom_settled_eq_ok head settled pop
    exact .setHeadAside phase name id ready scheduler settled rest perm none (Or.inl rfl)
  · next isReady =>
    have settled : step.scheduler.Settled env id true scheduler := by
      cases ready with
      | true => exact settled
      | false => exact absurd rfl isReady
    split at moved
    · next exceeds =>
      obtain ⟨popped, pop, moved⟩ := bind_eq_ok.mp moved
      cases moved
      obtain ⟨rest, perm, rfl⟩ := popFrom_settled_eq_ok head settled pop
      have enabled := maxLoras_ne_none_of_exceedsMaxLoras exceeds
      obtain ⟨_, _, _, _, _, rfl⟩ := settled.shape
      exact .setHeadAside phase name id true _ settled rest perm step.agentOrder
        (Or.inr ⟨rfl, enabled⟩)
    · split at moved
      · next controller active =>
        split at moved
        · next annotated =>
          exact waitingMove_of_compareCandidates phase selected head settled active annotated moved
        · next ordinary =>
          cases moved
          refine .chooseHead phase name id head scheduler settled ?_
          unfold isAnnotated
          rw [show (step.withScheduler scheduler).tokencake = some controller from active]
          exact decide_eq_false ordinary
      · next inactive =>
        cases moved
        refine .chooseHead phase name id head scheduler settled ?_
        unfold isAnnotated
        rw [show (step.withScheduler scheduler).tokencake = none from inactive]

end

end

section

omit [EncoderCache E]

theorem waitingMove_of_waitingTransition (phase : step.phase = .waiting)
    (moved : step.waitingTransition env = .ok next) : WaitingMove env step next := by
  unfold waitingTransition at moved
  split at moved
  · cases moved
    exact .leave phase
  · next continues =>
    split at moved
    · next empty =>
      obtain ⟨returned, return_, moved⟩ := bind_eq_ok.mp moved
      cases moved
      obtain ⟨skipped, waiting, skippedPerm, waitingPerm, rfl⟩ := returnDeferred_eq_ok return_
      simp only [Bool.and_eq_true, List.isEmpty_iff] at empty
      have deferred : step.reservationDeferred ≠ [] := by
        intro nothing
        simp [waitingLoopEnds, empty.1, empty.2, nothing] at continues
      exact .borrow phase skipped waiting skippedPerm waitingPerm empty.1 empty.2 deferred
    · split at moved
      · cases moved
      · next name selected => exact waitingMove_of_visitWaiting phase selected moved

theorem waitingMove_of_choosingTransition (phase : step.phase = .choosing pending eligible best)
    (moved : step.choosingTransition env pending eligible best = .ok next) :
    WaitingMove env step next := by
  unfold choosingTransition at moved
  split at moved
  · split at moved
    · next cached =>
      unfold popCandidate at moved
      split at moved
      · cases moved
      · next candidate rest order =>
        cases moved
        exact .chooseFirst eligible best phase cached candidate rest order
    · next uncached =>
      cases moved
      exact .chooseBest eligible best phase (by simpa using uncached)
  · next candidate rest =>
    split at moved
    · next same =>
      cases moved
      exact .keepBest candidate best rest eligible phase same
    · next different =>
      obtain ⟨⟨ready, scheduler⟩, settle, moved⟩ := bind_eq_ok.mp moved
      have settled := Scheduler.settled_of_settle settle
      dsimp only at moved
      split at moved
      · obtain ⟨removedStep, removal, moved⟩ := bind_eq_ok.mp moved
        cases moved
        obtain ⟨queueRest, perm, rfl⟩ := removeFrom_eq_ok removal
        have same : ({ step with scheduler := scheduler } : Step M E).scheduler.queue
            candidate.2 = step.scheduler.queue candidate.2 := settled.queue_eq candidate.2
        rw [same] at perm
        exact .dropCandidate candidate best rest eligible phase different ready scheduler
          settled queueRest perm
      · next keeps =>
        cases moved
        have isReady : ready = true := by
          simp only [Bool.or_eq_true, Bool.not_eq_true', not_or] at keeps
          simpa using keeps.1
        subst isReady
        exact .keepCandidate candidate best rest eligible phase scheduler settled

end

/-- The rest of a queue from which a chosen request was taken. -/
def TakesOut (step : Step M E) (name : QueueName) (requestId : RequestId)
    (rest : RequestQueue) : Prop :=
  let queue := step.scheduler.queue name
  match step.tokencake with
  | none => ∃ head, RequestQueue.popRequest step.scheduler.config.policy step.scheduler.lt queue =
        .ok (head, rest)
  | some _ =>
    RequestQueue.removeRequest step.scheduler.config.policy step.scheduler.lt queue
      requestId = .ok rest

/-- The capacity policy after it passed a request over or was not asked. -/
def Defers (step : Step M E) (requestId : RequestId)
    (controller : Option SchedulingController) : Prop :=
  controller = step.scheduler.tokencakeScheduling ∨
    ∃ old, step.tokencake = some old ∧ controller = some (old.defer (step.request requestId))

/-- A waiting request that has been given tokens and encoder inputs. -/
structure Probed (environment : StepEnvironment) (step : Step M E) (calls : Nat)
    (numNewTokens : Int) (scan : EncoderScan E) (probe : WaitingProbe) : Prop where
  looked : step.lookup environment probe.requestId =
    .ok (some probe.admission, step.withCalls calls)
  tokens : (step.withCalls calls).waitingTokens probe.requestId probe.admission =
    .ok (.tokens numNewTokens probe.limitedPrefill)
  scanned :
    tryScheduleEncoderInputs step.scheduler.config environment.hasCacheItem
      step.scheduler.encoderCacheManager (step.request probe.requestId)
      probe.admission.numComputedTokens numNewTokens step.encoderComputeBudget = .ok scan
  probed : (step.withCalls calls).probeWaiting environment probe.queue probe.requestId
    probe.admission numNewTokens probe.limitedPrefill =
      .ok (some probe, (step.withCalls calls).setEncoder scan.encoderCacheManager)

/-- The managers after the capacity policy was asked for an admission. -/
def Asks (step : Step M E) (probe : WaitingProbe) (allowed : Bool) (manager : M)
    (controller : Option SchedulingController) : Prop :=
  (step.tokencake = none ∧ allowed = true ∧ manager = step.scheduler.kvCacheManager ∧
      controller = step.scheduler.tokencakeScheduling) ∨
    ∃ old new, step.tokencake = some old ∧ controller = some new ∧
      old.canAllocate step.scheduler.kvCacheManager (step.request probe.requestId)
        (step.admissionArguments probe) step.borrowReserved = (allowed, new, manager)

/-- The encoder cache after a chosen request was examined and not admitted. -/
def Examines (environment : StepEnvironment) (step : Step M E) (requestId : RequestId)
    (encoder : E) : Prop :=
  encoder = step.scheduler.encoderCacheManager ∨
    ∃ numComputedTokens numNewTokens scan,
      tryScheduleEncoderInputs step.scheduler.config environment.hasCacheItem
        step.scheduler.encoderCacheManager (step.request requestId) numComputedTokens
        numNewTokens step.encoderComputeBudget = .ok scan ∧
      encoder = scan.encoderCacheManager

/-- What examining a candidate can do to a step. -/
inductive AdmissionMove (environment : StepEnvironment) (step : Step M E) (requestId : RequestId)
    (name : QueueName) : Step M E → Prop where
  | setAside (controller : Option SchedulingController)
      (deferred : step.Defers requestId controller) (calls : Nat) (rest : RequestQueue)
      (taken : (step.withResources step.scheduler.kvCacheManager controller
        step.scheduler.encoderCacheManager).TakesOut name requestId rest) :
      AdmissionMove environment step requestId name
        (((((step.withResources step.scheduler.kvCacheManager controller
          step.scheduler.encoderCacheManager).withCalls calls).withQueue name
            rest).prependSkipped requestId).goto .waiting)
  | leave (encoder : E) (examined : step.Examines environment requestId encoder) (calls : Nat) :
      AdmissionMove environment step requestId name
        (((step.withCalls calls).setEncoder encoder).goto .done)
  | deny (probe : WaitingProbe) (chosen : probe.requestId = requestId ∧ probe.queue = name)
      (calls : Nat) (numNewTokens : Int) (scan : EncoderScan E)
      (probed : step.Probed environment calls numNewTokens scan probe)
      (old new : SchedulingController) (manager : M) (active : step.tokencake = some old)
      (asked : old.canAllocate step.scheduler.kvCacheManager (step.request requestId)
        (step.admissionArguments probe) step.borrowReserved = (false, new, manager))
      (deferred : List RequestId)
      (deferral : deferred = step.reservationDeferred ∨
        deferred = step.reservationDeferred ++ [requestId] ∧ step.borrowReserved = false)
      (rest : RequestQueue)
      (taken : (step.withResources manager (some (new.defer (step.request requestId)))
        scan.encoderCacheManager).TakesOut name requestId rest) :
      AdmissionMove environment step requestId name
        ((({ (step.withResources manager (some (new.defer (step.request requestId)))
              scan.encoderCacheManager).withCalls calls with
            reservationDeferred := deferred }.withQueue name rest).prependSkipped
              requestId).goto .waiting)
  | refuse (probe : WaitingProbe) (chosen : probe.requestId = requestId ∧ probe.queue = name)
      (calls : Nat) (numNewTokens : Int) (scan : EncoderScan E)
      (probed : step.Probed environment calls numNewTokens scan probe) (askedManager : M)
      (controller : Option SchedulingController)
      (asked : step.Asks probe true askedManager controller) (manager : M)
      (allocated : allocateSlots askedManager (step.request requestId)
        (step.admissionArguments probe) = .ok (none, manager)) :
      AdmissionMove environment step requestId name (((step.withResources manager controller
          (if (step.request requestId).hasEncoderInputs then
            EncoderCache.free scan.encoderCacheManager (step.request requestId)
          else scan.encoderCacheManager)).withCalls calls).goto .done)
  | await (probe : WaitingProbe) (chosen : probe.requestId = requestId ∧ probe.queue = name)
      (calls : Nat) (numNewTokens : Int) (scan : EncoderScan E)
      (probed : step.Probed environment calls numNewTokens scan probe) (askedManager : M)
      (askedController : Option SchedulingController)
      (asked : step.Asks probe true askedManager askedController) (newBlocks : KVCacheBlocks)
      (manager : M)
      (allocated : allocateSlots askedManager (step.request requestId)
        (step.admissionArguments probe) = .ok (some newBlocks, manager))
      (controller : Option SchedulingController)
      (committed : (step.withResources manager askedController
        scan.encoderCacheManager).Commits manager requestId false probe.numEncoderTokens none
          step.borrowReserved controller)
      (rest : RequestQueue)
      (taken : (step.withResources manager controller scan.encoderCacheManager).TakesOut name
        requestId rest)
      (loads : probe.admission.loadKvAsync = true) :
      AdmissionMove environment step requestId name
        ((((step.withResources manager controller scan.encoderCacheManager).withCalls
          calls).withQueue name rest).awaitRemoteKvs probe)
  | start (probe : WaitingProbe) (chosen : probe.requestId = requestId ∧ probe.queue = name)
      (calls : Nat) (numNewTokens : Int) (scan : EncoderScan E)
      (probed : step.Probed environment calls numNewTokens scan probe) (askedManager : M)
      (askedController : Option SchedulingController)
      (asked : step.Asks probe true askedManager askedController) (newBlocks : KVCacheBlocks)
      (manager : M)
      (allocated : allocateSlots askedManager (step.request requestId)
        (step.admissionArguments probe) = .ok (some newBlocks, manager))
      (controller : Option SchedulingController)
      (committed : (step.withResources manager askedController
        scan.encoderCacheManager).Commits manager requestId false probe.numEncoderTokens none
          step.borrowReserved controller)
      (rest : RequestQueue)
      (taken : (step.withResources manager controller scan.encoderCacheManager).TakesOut name
        requestId rest)
      (loads : probe.admission.loadKvAsync = false)
      (newReqs resumedReqs : List RequestId)
      (recorded : step.recordAdmitted requestId = .ok (newReqs, resumedReqs))
      (encoder : E)
      (referred :
        referToInputs scan.encoderCacheManager
          { step.request requestId with
            status := .running
            numComputedTokens := probe.admission.numComputedTokens }
          (probe.encoderInputsToSchedule ++ probe.externalLoadEncoderInput) = .ok encoder) :
      AdmissionMove environment step requestId name
        (((((step.withResources manager controller encoder).withCalls calls).withQueue name
          rest).started probe newReqs resumedReqs).recordEncoderInputs requestId
            probe.encoderInputsToSchedule probe.newEncoderComputeBudget)

variable {step : Step M E}

section

omit [KVCacheManager M] [EncoderCache E]

theorem takeOut_eq_ok (take : step.takeOut name requestId = .ok next) :
    ∃ rest, step.TakesOut name requestId rest ∧ next = step.withQueue name rest := by
  unfold takeOut at take
  split at take
  · next inactive =>
    obtain ⟨⟨head, rest⟩, pop, take⟩ := bind_eq_ok.mp take
    cases take
    refine ⟨rest, ?_, rfl⟩
    simp only [TakesOut, inactive]
    exact ⟨head, pop⟩
  · next controller active =>
    obtain ⟨rest, removal, take⟩ := bind_eq_ok.mp take
    cases take
    refine ⟨rest, ?_, rfl⟩
    simp only [TakesOut, active]
    exact removal

theorem setAside_eq_ok (aside : step.setAside name requestId = .ok next) :
    ∃ rest, step.TakesOut name requestId rest ∧
      next = ((step.withQueue name rest).prependSkipped requestId).goto .waiting := by
  obtain ⟨taken, take, aside⟩ := bind_eq_ok.mp aside
  cases aside
  obtain ⟨rest, takes, rfl⟩ := takeOut_eq_ok take
  exact ⟨rest, takes, rfl⟩

end

section

omit [EncoderCache E]

theorem lookupExternal_eq
    (lookup : step.lookupExternal env requestId computed blocks = (answer, asked)) :
    (answer = none ∧ ∃ controller calls, step.Defers requestId controller ∧
        asked = (step.withResources step.scheduler.kvCacheManager controller
          step.scheduler.encoderCacheManager).withCalls calls) ∨
      (answer ≠ none ∧ ∃ calls, asked = step.withCalls calls) := by
  unfold lookupExternal at lookup
  split at lookup
  · cases lookup
    exact .inr ⟨by simp, _, rfl⟩
  · split at lookup
    · next defers =>
      cases lookup
      unfold defersCacheLookup at defers
      split at defers
      · cases defers
      · next controller active =>
        refine .inl ⟨rfl, _, step.connectorCalls, .inr ⟨controller, active, rfl⟩, ?_⟩
        unfold deferRequest
        rw [active]
        rfl
    · dsimp only at lookup
      cases found : (env.matchedTokens step.connectorCalls requestId computed).1 with
      | none =>
        rw [found] at lookup
        cases lookup
        exact .inl ⟨rfl, _, _, .inl rfl, rfl⟩
      | some tokens =>
        rw [found] at lookup
        cases lookup
        exact .inr ⟨by simp, _, rfl⟩

theorem lookup_eq_ok {step asked : Step M E} {id : RequestId} {answer : Option Admission}
    (look : step.lookup env id = .ok (answer, asked)) :
    (answer = none ∧ ∃ controller calls, step.Defers id controller ∧
        asked = (step.withResources step.scheduler.kvCacheManager controller
          step.scheduler.encoderCacheManager).withCalls calls) ∨
      (answer ≠ none ∧ ∃ calls, asked = step.withCalls calls) := by
  unfold lookup at look
  dsimp only at look
  split at look
  · split at look
    · next external =>
      cases look
      rcases lookupExternal_eq external with ⟨_, found⟩ | ⟨some_, _⟩
      · exact .inl ⟨rfl, found⟩
      · exact absurd rfl some_
    · next external =>
      obtain ⟨_, _, look⟩ := bind_eq_ok.mp look
      obtain ⟨_, _, look⟩ := bind_eq_ok.mp look
      cases look
      rcases lookupExternal_eq external with ⟨none_, _⟩ | ⟨_, found⟩
      · cases none_
      · exact .inr ⟨by simp, found⟩
  · cases look
    exact .inr ⟨by simp, step.connectorCalls, rfl⟩

end

omit [KVCacheManager M] in
theorem probeWaiting_eq_ok (probing : step.probeWaiting env name requestId admission numNewTokens
      limitedPrefill = .ok (answer, scanned)) :
    ∃ scan, tryScheduleEncoderInputs step.scheduler.config env.hasCacheItem
        step.scheduler.encoderCacheManager (step.request requestId)
        admission.numComputedTokens numNewTokens step.encoderComputeBudget = .ok scan ∧
      scanned = step.setEncoder scan.encoderCacheManager ∧ ∀ probe, answer = some probe →
        probe.requestId = requestId ∧ probe.queue = name ∧ probe.admission = admission ∧
        probe.limitedPrefill = limitedPrefill ∧
        probe.encoderInputsToSchedule = scan.encoderInputsToSchedule ∧
        probe.externalLoadEncoderInput = scan.externalLoadEncoderInput := by
  obtain ⟨scan, scanning, probing⟩ := bind_eq_ok.mp probing
  refine ⟨scan, scanning, ?_⟩
  split at probing
  · cases probing
    exact ⟨rfl, nofun⟩
  · obtain ⟨tokens, _, probing⟩ := bind_eq_ok.mp probing
    split at probing
    · cases probing
      exact ⟨rfl, nofun⟩
    · obtain ⟨encoderTokens, _, probing⟩ := bind_eq_ok.mp probing
      cases probing
      refine ⟨rfl, ?_⟩
      rintro probe ⟨⟩
      exact ⟨rfl, rfl, rfl, rfl, rfl, rfl⟩

section

omit [EncoderCache E]

theorem mayAllocate_eq (answer : step.mayAllocate probe = (allowed, asked)) :
    ∃ manager controller, step.Asks probe allowed manager controller ∧
      asked = step.withResources manager controller step.scheduler.encoderCacheManager := by
  unfold mayAllocate at answer
  split at answer
  · next inactive =>
    cases answer
    exact ⟨_, _, .inl ⟨inactive, rfl, rfl, rfl⟩, rfl⟩
  · next controller active =>
    cases answer
    exact ⟨_, _, .inr ⟨controller, _, active, rfl, rfl⟩, rfl⟩

theorem commitWaiting_eq_ok (commit : step.commitWaiting probe = .ok next) :
    ∃ controller,
      step.Commits step.scheduler.kvCacheManager probe.requestId false probe.numEncoderTokens
        none step.borrowReserved controller ∧
      next = step.withResources step.scheduler.kvCacheManager controller
        step.scheduler.encoderCacheManager := by
  unfold commitWaiting at commit
  split at commit
  · next inactive =>
    cases commit
    exact ⟨_, .inl ⟨inactive, rfl⟩, rfl⟩
  · next controller active =>
    obtain ⟨new, committed, commit⟩ := bind_eq_ok.mp commit
    cases commit
    exact ⟨_, .inr ⟨controller, new, active, rfl, committed⟩, rfl⟩

theorem request_started
    (step : Step M E) (probe : WaitingProbe) (newReqs resumedReqs : List RequestId) :
    (step.started probe newReqs resumedReqs).request probe.requestId =
      { step.request probe.requestId with
        status := .running
        numComputedTokens := probe.admission.numComputedTokens } := by
  simp [request, started, Scheduler.requestOf, Scheduler.modifyRequest, RequestHeap.modify]

end

section Probing

variable {env : StepEnvironment} {probe : WaitingProbe} {calls : Nat}
  {numNewTokens : Int} {scan : EncoderScan E}

section

variable (probed : step.Probed env calls numNewTokens scan probe)

include probed

theorem admissionMove_of_admit (asked : step.Asks probe true askedManager askedController)
    (allocated : allocateSlots askedManager (step.request probe.requestId)
      (step.admissionArguments probe) = .ok (some newBlocks, manager))
    (moved : ((step.withResources manager askedController
      scan.encoderCacheManager).withCalls calls).admitRequest probe = .ok next) :
    AdmissionMove env step probe.requestId probe.queue next := by
  obtain ⟨committedStep, commit, moved⟩ := bind_eq_ok.mp moved
  obtain ⟨controller, committed, rfl⟩ := commitWaiting_eq_ok commit
  obtain ⟨takenStep, take, moved⟩ := bind_eq_ok.mp moved
  obtain ⟨rest, taken, rfl⟩ := takeOut_eq_ok take
  split at moved
  · next loads =>
    cases moved
    exact .await probe ⟨rfl, rfl⟩ calls numNewTokens scan probed askedManager askedController
      asked newBlocks manager allocated controller committed rest taken loads
  · next loads =>
    obtain ⟨⟨newReqs, resumedReqs⟩, recorded, moved⟩ := bind_eq_ok.mp moved
    rw [liftResource_eq_ok] at moved
    obtain ⟨encoder, referred, rfl⟩ := allocateEncoderInputs_eq_ok moved
    rw [request_started] at referred
    exact .start probe ⟨rfl, rfl⟩ calls numNewTokens scan probed askedManager
      askedController asked newBlocks manager allocated controller committed rest taken
      (by simpa using loads) newReqs resumedReqs recorded encoder referred

theorem admissionMove_of_allocateWaiting (asked : step.Asks probe true askedManager askedController)
    (moved : ((step.withResources askedManager askedController
      scan.encoderCacheManager).withCalls calls).allocateWaiting probe = .ok next) :
    AdmissionMove env step probe.requestId probe.queue next := by
  obtain ⟨⟨newBlocks, manager⟩, allocated, moved⟩ := bind_eq_ok.mp moved
  rw [liftResource_eq_ok] at allocated
  cases newBlocks with
  | some newBlocks => exact admissionMove_of_admit probed asked allocated moved
  | none =>
    cases moved
    have move : AdmissionMove env step probe.requestId probe.queue _ :=
      .refuse probe ⟨rfl, rfl⟩ calls numNewTokens scan probed askedManager askedController
        asked manager allocated
    split
    · next inputs =>
      rw [if_pos (by exact inputs)] at move
      exact move
    · next inputs =>
      rw [if_neg (by exact inputs)] at move
      exact move

theorem admissionMove_of_denyAdmission (active : step.tokencake = some old)
    (asked : old.canAllocate step.scheduler.kvCacheManager (step.request probe.requestId)
      (step.admissionArguments probe) step.borrowReserved = (false, new, manager))
    (moved : ((step.withResources manager (some new)
      scan.encoderCacheManager).withCalls calls).denyAdmission probe = .ok next) :
    AdmissionMove env step probe.requestId probe.queue next := by
  have isActive : step.tokencakeActive = true := by
    unfold tokencake at active
    split at active
    · next isActive => exact isActive
    · cases active
  have asking : ((step.withResources manager (some new)
      scan.encoderCacheManager).withCalls calls).tokencake = some new := by
    simp [tokencake, withResources, withCalls, isActive]
  unfold denyAdmission deferRequest at moved
  rw [asking] at moved
  dsimp only at moved
  split at moved
  · next lacks =>
    obtain ⟨rest, taken, rfl⟩ := setAside_eq_ok moved
    refine .deny probe ⟨rfl, rfl⟩ calls numNewTokens scan probed old new manager active asked
      (step.reservationDeferred ++ [probe.requestId]) (.inr ⟨rfl, ?_⟩) rest taken
    unfold lacksReservation at lacks
    split at lacks
    · cases lacks
    · simp only [Bool.and_eq_true, Bool.not_eq_true'] at lacks
      exact lacks.1
  · obtain ⟨rest, taken, rfl⟩ := setAside_eq_ok moved
    exact .deny probe ⟨rfl, rfl⟩ calls numNewTokens scan probed old new manager active asked
      step.reservationDeferred (.inl rfl) rest taken

theorem admissionMove_of_admitWithCapacity
    (moved : ((step.withCalls calls).setEncoder scan.encoderCacheManager).admitWithCapacity
      probe = .ok next) : AdmissionMove env step probe.requestId probe.queue next := by
  unfold admitWithCapacity at moved
  split at moved
  · next answer =>
    obtain ⟨manager, controller, asked, rfl⟩ := mayAllocate_eq answer
    exact admissionMove_of_allocateWaiting probed asked moved
  · next answer =>
    obtain ⟨manager, controller, asked, rfl⟩ := mayAllocate_eq answer
    rcases asked with ⟨_, contradiction_, _⟩ | ⟨old, new, active, rfl, asked⟩
    · cases contradiction_
    · exact admissionMove_of_denyAdmission probed active asked moved

end

end Probing

theorem admissionMove_of_admitWithTokens
    (looked : step.lookup env requestId = .ok (some admission, step.withCalls calls))
    (moved : (step.withCalls calls).admitWithTokens env name requestId admission = .ok next) :
    AdmissionMove env step requestId name next := by
  obtain ⟨choice, tokens, moved⟩ := bind_eq_ok.mp moved
  cases choice with
  | exit =>
    cases moved
    exact .leave _ (.inl rfl) calls
  | setAside =>
    obtain ⟨rest, taken, rfl⟩ := setAside_eq_ok moved
    exact .setAside _ (.inl rfl) calls rest taken
  | tokens numNewTokens limitedPrefill =>
    obtain ⟨⟨answer, scanned⟩, probing, continued⟩ := bind_eq_ok.mp moved
    rw [liftResource_eq_ok] at probing
    obtain ⟨scan, scanning, rfl, fields⟩ := probeWaiting_eq_ok probing
    cases answer with
    | none =>
      cases continued
      have examined : step.Examines env requestId scan.encoderCacheManager :=
        .inr ⟨_, _, scan, scanning, rfl⟩
      exact .leave _ examined calls
    | some probe =>
      obtain ⟨rfl, rfl, rfl, rfl, _, _⟩ := fields probe rfl
      exact admissionMove_of_admitWithCapacity ⟨looked, tokens, scanning, probing⟩ continued

theorem admissionMove_of_admittingTransition
    (moved : step.admittingTransition env name requestId = .ok next) :
    AdmissionMove env step requestId name next := by
  obtain ⟨⟨answer, asked⟩, looked, moved⟩ := bind_eq_ok.mp moved
  rcases lookup_eq_ok looked with ⟨rfl, controller, calls, deferred, rfl⟩ | ⟨found, calls, rfl⟩
  · obtain ⟨rest, taken, rfl⟩ := setAside_eq_ok moved
    exact .setAside controller deferred calls rest taken
  · cases answer with
    | none => exact absurd rfl found
    | some admission => exact admissionMove_of_admitWithTokens looked moved

/-- Every transition of a call is a move. -/
inductive Move (environment : StepEnvironment) (step : Step M E) (next : Step M E) : Prop where
  | running (move : RunningMove environment step next)
  | waiting (move : WaitingMove environment step next)
  | admission (requestId : RequestId) (name : QueueName)
      (phase : step.phase = .admitting requestId name)
      (move : AdmissionMove environment step requestId name next)

theorem move_of_transition
    (continues : step.isDone = false) (moved : step.transition env = .ok next) :
    Move env step next := by
  unfold transition at moved
  split at moved
  · next phase => exact .running (runningMove_of_runningTransition phase moved)
  · next phase => exact .running (runningMove_of_growingTransition phase moved)
  · next phase => exact .running (runningMove_of_allocatingTransition phase moved)
  · next phase => exact .running (runningMove_of_afterRunningTransition phase moved)
  · next phase => exact .waiting (waitingMove_of_waitingTransition phase moved)
  · next phase => exact .waiting (waitingMove_of_choosingTransition phase moved)
  · next id name phase =>
    exact .admission id name phase (admissionMove_of_admittingTransition moved)
  · next phase => simp [isDone, phase] at continues

end Step

end TokenCake
