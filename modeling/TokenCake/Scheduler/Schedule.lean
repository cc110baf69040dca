import TokenCake.Scheduler.Running

/-!
# Calls of `schedule`

A call begins a step, runs two loops transition by transition and turns the step into an output;
the number of transitions is bounded by the numbers of requests in the queues.  The second loop
admits waiting requests.  Requests that cannot be admitted are set aside for this step.  Annotated
requests compete by their scores, and those that only lack reserved capacity get a second turn in
which idle reserves may be borrowed.
-/

namespace TokenCake

open KVCacheManager

variable {M E : Type} [KVCacheManager M] [EncoderCache E]

namespace Scheduler

/-- The queue whose head is examined next. -/
def selectWaitingQueueForScheduling (scheduler : Scheduler M E) : Option QueueName :=
  match scheduler.config.policy, scheduler.waiting, scheduler.skippedWaiting with
  | .fcfs, _, _ :: _ => some .skippedWaiting
  | .priority, first :: _, skipped :: _ =>
    if scheduler.lt first skipped then some .waiting else some .skippedWaiting
  | _, _ :: _, [] => some .waiting
  | .priority, [], _ :: _ => some .skippedWaiting
  | _, [], [] => none

/-- Update a request after its asynchronous load ended. -/
def updateWaitingForRemoteKv (scheduler : Scheduler M E)
    (requestId : RequestId) : Except EngineError (Scheduler M E) := do
  ensure scheduler.config.hasConnector .assertionFailed
  let request := scheduler.requestOf requestId
  let ended :=
    { scheduler with
      failedRecvingKvReqIds := scheduler.failedRecvingKvReqIds.erase requestId
      finishedRecvingKvReqIds := scheduler.finishedRecvingKvReqIds.erase requestId }
  if requestId ∈ scheduler.failedRecvingKvReqIds ∧ request.numComputedTokens = 0 then
    -- No valid token is left; a retry may find a local prefix.
    let manager := free scheduler.kvCacheManager requestId
    return { ended with
      kvCacheManager := manager
      tokencakeScheduling := scheduler.tokencakeScheduling.map fun controller =>
        controller.release manager }
  else
    let manager ←
      liftResource (cacheBlocks scheduler.kvCacheManager request request.numComputedTokens)
    let cached := { ended with kvCacheManager := manager }
    if requestId ∉ scheduler.failedRecvingKvReqIds ∧
        request.numComputedTokens = request.numTokens then
      -- The last token is computed again to sample the next one.
      return cached.modifyRequest requestId fun request =>
        { request with numComputedTokens := request.numTokens - 1 }
    else return cached

/-- Move on a request that waits for something, if that has come. -/
def tryPromoteBlockedWaitingRequest (environment : StepEnvironment) (scheduler : Scheduler M E)
    (requestId : RequestId) : Except EngineError (Bool × Scheduler M E) :=
  let request := scheduler.requestOf requestId
  match request.status with
  | .waitingForRemoteKvs =>
    if requestId ∉ scheduler.finishedRecvingKvReqIds then .ok (false, scheduler)
    else do
      let updated ← scheduler.updateWaitingForRemoteKv requestId
      return (true, updated.modifyRequest requestId fun request =>
        { request with
          status := if request.numPreemptions ≠ 0 then .preempted else .waiting })
  | .waitingForStructuredOutputGrammar =>
    if environment.grammarReady requestId then
      .ok (true, scheduler.modifyRequest requestId fun request =>
        { request with status := .waiting })
    else .ok (false, scheduler)
  | .waitingForStreamingReq => do
      ensure (request.streamingQueue.getD []).isEmpty .assertionFailed
      return (false, scheduler)
  | _ => .error .assertionFailed

/-- Whether a request can be scheduled, after an attempt to promote it. -/
def settle (environment : StepEnvironment) (scheduler : Scheduler M E)
    (requestId : RequestId) : Except EngineError (Bool × Scheduler M E) :=
  if isBlockedWaitingStatus (scheduler.requestOf requestId).status then
    scheduler.tryPromoteBlockedWaitingRequest environment requestId
  else .ok (true, scheduler)

end Scheduler

/-- Local variables of an admission: the cached part of a request. -/
structure Admission where
  newComputedBlocks : KVCacheBlocks
  numNewLocalComputedTokens : Int
  numExternalComputedTokens : Int
  numComputedTokens : Int
  loadKvAsync : Bool
deriving DecidableEq, Repr

/-- Local variables of an admission that has been given tokens. -/
structure WaitingProbe where
  requestId : RequestId
  queue : QueueName
  admission : Admission
  numNewTokens : Int
  limitedPrefill : Bool
  encoderInputsToSchedule : List Nat
  newEncoderComputeBudget : Int
  externalLoadEncoderInput : List Nat
  numEncoderTokens : Nat
deriving DecidableEq, Repr

/-- What is decided from the token budgets alone. -/
inductive TokenChoice where
  /-- The loop ends. -/
  | exit
  /-- The request is set aside. -/
  | setAside
  | tokens (numNewTokens : Int) (limitedPrefill : Bool)
deriving DecidableEq, Repr

namespace Step

section Queues

/-- Put a request in front of those set aside. -/
def prependSkipped (step : Step M E) (requestId : RequestId) : Step M E :=
  { step with
    stepSkippedWaiting :=
      RequestQueue.prependRequest step.scheduler.config.policy step.scheduler.lt
        step.stepSkippedWaiting requestId }

/-- Pop the head of a queue. -/
def popFrom (step : Step M E) (name : QueueName) : Except EngineError (Step M E) := do
  let (_, rest) ←
    RequestQueue.popRequest step.scheduler.config.policy step.scheduler.lt
      (step.scheduler.queue name)
  return { step with scheduler := step.scheduler.setQueue name rest }

variable (step : Step M E) (name : QueueName)

/-- Take a request out of a queue. -/
def removeFrom (requestId : RequestId) : Except EngineError (Step M E) := do
  let rest ←
    RequestQueue.removeRequest step.scheduler.config.policy step.scheduler.lt
      (step.scheduler.queue name) requestId
  return { step with scheduler := step.scheduler.setQueue name rest }

/-- Take a chosen request out of its queue.  Without the capacity policy the
chosen request is the head. -/
def takeOut (requestId : RequestId) : Except EngineError (Step M E) :=
  match step.tokencake with
  | none => step.popFrom name
  | some _ => step.removeFrom name requestId

/-- Take a request out of its queue and set it aside for this step. -/
def setAside (requestId : RequestId) : Except EngineError (Step M E) := do
  let taken ← step.takeOut name requestId
  return (taken.prependSkipped requestId).goto .waiting

/-- Move the requests that lack reserved capacity back to the waiting queue. -/
def returnDeferred : List RequestId → Step M E → Except EngineError (Step M E)
  | [], step => .ok step
  | candidate :: rest, step => do
      let policy := step.scheduler.config.policy
      let skipped ←
        RequestQueue.removeRequest policy step.scheduler.lt step.stepSkippedWaiting candidate
      returnDeferred rest
        { step with
          stepSkippedWaiting := skipped
          scheduler :=
            { step.scheduler with
              waiting :=
                RequestQueue.addRequest policy step.scheduler.lt step.scheduler.waiting
                  candidate } }

/-- Give deferred requests their second turn, in which reserves are borrowed. -/
def borrowReserves (step : Step M E) : Except EngineError (Step M E) := do
  let returned ← returnDeferred step.reservationDeferred step
  return { returned with
    reservationDeferred := []
    borrowReserved := true
    agentOrder := none }

end Queues

section Candidates

/-- Whether the adapters of the batch exclude a request. -/
def exceedsMaxLoras (step : Step M E) (requestId : RequestId) : Bool :=
  match step.scheduler.config.maxLoras, (step.request requestId).loraRequest with
  | some maxLoras, some lora =>
    decide (step.scheduledLoras.length = maxLoras) && !decide (lora.loraIntId ∈ step.scheduledLoras)
  | _, _ => false

variable (environment : StepEnvironment) (step : Step M E)

/-- Choose the next candidate of an order. -/
def popCandidate (order : List (RequestId × QueueName)) : Except EngineError (Step M E) :=
  match order with
  | [] => .error .emptyAgentOrder
  | candidate :: rest =>
    .ok ({ step with agentOrder := some rest }.goto (.admitting candidate.1 candidate.2))

/-- Compare an annotated head with the other annotated candidates, or take the
next one of the order found before. -/
def compareCandidates (controller : SchedulingController) (name : QueueName)
    (requestId : RequestId) : Except EngineError (Step M E) :=
  match step.agentOrder with
  | some order => step.popCandidate order
  | none =>
    let scheduler := step.scheduler
    let candidates :=
      controller.annotatedPrefix scheduler.config.policy scheduler.lt scheduler.waiting
        scheduler.skippedWaiting
    .ok (step.goto (.choosing candidates [] (requestId, name)))

/-- Examine the head of a queue. -/
def visitWaiting (name : QueueName) : Except EngineError (Step M E) := do
  let requestId ← RequestQueue.peekRequest (step.scheduler.queue name)
  let (ready, scheduler) ← step.scheduler.settle environment requestId
  let settled := { step with scheduler := scheduler }
  if !ready then
    let popped ← settled.popFrom name
    return { popped.prependSkipped requestId with agentOrder := none, phase := .waiting }
  else if settled.exceedsMaxLoras requestId then
    let popped ← settled.popFrom name
    return (popped.prependSkipped requestId).goto .waiting
  else
    match settled.tokencake with
    | some controller =>
      if requestId ∈ controller.metadata then
        settled.compareCandidates controller name requestId
      else return settled.goto (.admitting requestId name)
    | none => return settled.goto (.admitting requestId name)

/-- Whether the loop over the waiting requests ends. -/
def waitingLoopEnds (step : Step M E) : Bool :=
  (step.scheduler.waiting.isEmpty && step.scheduler.skippedWaiting.isEmpty
      && step.reservationDeferred.isEmpty)
    || decide (step.tokenBudget ≤ 0)
    || decide (step.scheduler.running.length = step.scheduler.config.maxNumRunningReqs)

/-- The head of the loop over waiting requests. -/
def waitingTransition (step : Step M E) : Except EngineError (Step M E) :=
  if step.waitingLoopEnds then .ok (step.goto .done)
  else if step.scheduler.waiting.isEmpty && step.scheduler.skippedWaiting.isEmpty then
    step.borrowReserves
  else
    match step.scheduler.selectWaitingQueueForScheduling with
    | none => .error .assertionFailed
    | some name => step.visitWaiting environment name

/-- The place of a candidate in the order of annotated requests. -/
def orderKey (step : Step M E) (requestId : RequestId) : List ℚ :=
  match step.tokencake with
  | none => []
  | some controller => controller.orderKey (step.request requestId)

/-- The eligible candidates in the order of this step. -/
def orderCandidates (step : Step M E)
    (eligible : List (RequestId × QueueName)) : List (RequestId × QueueName) :=
  match step.tokencake with
  | none => eligible
  | some controller =>
    controller.orderCandidates step.scheduler.kvCacheManager step.scheduler.requestOf eligible

/-- Where an eligible candidate leads: it is remembered for the order of the step,
or only the better one of it and the best so far is kept. -/
def keepCandidate (candidate : RequestId × QueueName)
    (pending eligible : List (RequestId × QueueName)) (best : RequestId × QueueName) : Phase :=
  if step.cacheAgentOrder then .choosing pending (eligible ++ [candidate]) best
  else if lexLt (step.orderKey candidate.1) (step.orderKey best.1) then
    .choosing pending eligible candidate
  else .choosing pending eligible best

/-- Examine the next annotated candidate, or choose when all are examined. -/
def choosingTransition (pending eligible : List (RequestId × QueueName))
    (best : RequestId × QueueName) : Except EngineError (Step M E) :=
  match pending with
  | [] =>
    if step.cacheAgentOrder then step.popCandidate (step.orderCandidates eligible)
    else .ok (step.goto (.admitting best.1 best.2))
  | candidate :: rest =>
    if candidate.1 = best.1 then
      .ok (step.goto (step.keepCandidate candidate rest eligible best))
    else do
      let (ready, scheduler) ← step.scheduler.settle environment candidate.1
      let settled := { step with scheduler := scheduler }
      if !ready || settled.exceedsMaxLoras candidate.1 then
        let removed ← settled.removeFrom candidate.2 candidate.1
        return (removed.prependSkipped candidate.1).goto (.choosing rest eligible best)
      else return settled.goto (settled.keepCandidate candidate rest eligible best)

end Candidates

section Admissions

/-- Note that the capacity policy passes a request over. -/
def deferRequest (step : Step M E) (requestId : RequestId) : Step M E :=
  match step.tokencake with
  | none => step
  | some controller => step.setController (controller.defer (step.request requestId))

variable (step : Step M E) (environment : StepEnvironment)

/-- Whether the capacity policy rules a request out before the connector is
asked. -/
def defersCacheLookup (requestId : RequestId) (computed : Nat) (blocks : KVCacheBlocks) : Bool :=
  match step.tokencake with
  | none => false
  | some controller =>
    step.scheduler.config.hasTokencakeConnector
      && controller.deferCacheLookup step.scheduler.kvCacheManager (step.request requestId)
        computed blocks

/-- Ask the connector for the tokens it holds behind a local prefix.  The answer
`none` sets the request aside. -/
def lookupExternal (step : Step M E) (requestId : RequestId) (computed : Nat)
    (blocks : KVCacheBlocks) : Option (Nat × Bool) × Step M E :=
  if !step.scheduler.config.hasConnector then (some (0, false), step)
  else if step.defersCacheLookup requestId computed blocks then
    (none, step.deferRequest requestId)
  else
    let (extTokens, loadKvAsync) :=
      environment.matchedTokens step.connectorCalls requestId computed
    (extTokens.map fun extTokens => (extTokens, loadKvAsync),
      { step with connectorCalls := step.connectorCalls + 1 })

/-- Find the tokens of a request that are already computed. -/
def lookup (step : Step M E)
    (requestId : RequestId) : Except EngineError (Option Admission × Step M E) :=
  let request := step.request requestId
  let manager := step.scheduler.kvCacheManager
  if request.numComputedTokens = 0 then
    let (blocks, computed) := getComputedBlocks manager request
    match step.lookupExternal environment requestId computed blocks with
    | (none, asked) => .ok (none, asked)
    | (some (extTokens, loadKvAsync), asked) => do
        ensure (decide (computed + extTokens ≤ request.numTokens)) .assertionFailed
        ensure (!request.prefillStats || decide (computed + extTokens ≤ request.numPromptTokens))
          .assertionFailed
        return (some
          { newComputedBlocks := blocks
            numNewLocalComputedTokens := computed
            numExternalComputedTokens := extTokens
            numComputedTokens := computed + extTokens
            loadKvAsync := loadKvAsync }, asked)
  else
    -- An asynchronous load has filled the blocks of the request.
    .ok (some
      { newComputedBlocks := emptyKvCacheBlocks manager
        numNewLocalComputedTokens := 0
        numExternalComputedTokens := 0
        numComputedTokens := request.numComputedTokens
        loadKvAsync := false }, step)

/-- Tokens a waiting request may compute before encoder inputs are considered. -/
def waitingTokens (requestId : RequestId)
    (admission : Admission) : Except EngineError TokenChoice :=
  if admission.loadKvAsync then do
    ensure (decide (admission.numExternalComputedTokens > 0)) .assertionFailed
    return .tokens 0 false
  else
    let config := step.scheduler.config
    let wanted :=
      capLongPrefill config ((step.request requestId).numTokens - admission.numComputedTokens)
    if !config.enableChunkedPrefill && decide (wanted > step.tokenBudget) then .ok .exit
    else do
      let numNewTokens := min wanted step.tokenBudget
      ensure (decide (numNewTokens > 0)) .assertionFailed
      if step.isLimitedPrefill requestId numNewTokens then
        let capped := SchedulingController.capPrefill numNewTokens step.prefillBudget
        return if capped = 0 then .setAside else .tokens capped true
      else return .tokens numNewTokens false

/-- The arguments of the allocation for a waiting request. -/
def admissionArguments (step : Step M E) (probe : WaitingProbe) : AllocateArguments where
  numNewTokens := probe.numNewTokens
  numNewComputedTokens := probe.admission.numNewLocalComputedTokens
  newComputedBlocks := some probe.admission.newComputedBlocks
  numLookaheadTokens :=
    if (step.request probe.requestId).numComputedTokens = 0 then 0
    else step.scheduler.config.numLookaheadTokens
  numExternalComputedTokens := probe.admission.numExternalComputedTokens
  delayCacheBlocks := probe.admission.loadKvAsync
  numEncoderTokens := probe.numEncoderTokens
  fullSequenceMustFit := step.scheduler.config.schedulerReserveFullIsl

/-- Charge the blocks of an admission. -/
def commitWaiting (probe : WaitingProbe) : Except EngineError (Step M E) :=
  match step.tokencake with
  | none => .ok step
  | some controller => do
      let controller ←
        controller.commit step.scheduler.kvCacheManager (step.request probe.requestId) false
          probe.numEncoderTokens none step.borrowReserved
      return step.setController controller

/-- Let a request wait for its asynchronous load. -/
def awaitRemoteKvs (step : Step M E) (probe : WaitingProbe) : Step M E :=
  { step with
    scheduler := step.scheduler.modifyRequest probe.requestId fun request =>
      { request with
        status := .waitingForRemoteKvs
        numComputedTokens := probe.admission.numComputedTokens }
    phase := .waiting }.prependSkipped probe.requestId

/-- The lists of new and resumed requests after an admission. -/
def recordAdmitted (requestId : RequestId) : Except EngineError (List RequestId × List RequestId) :=
  match (step.request requestId).status with
  | .waiting => .ok (step.scheduledNewReqs ++ [requestId], step.scheduledResumedReqs)
  | .preempted => .ok (step.scheduledNewReqs, step.scheduledResumedReqs ++ [requestId])
  | _ => .error .invalidRequestStatus

/-- The adapters of the batch after an admission. -/
def addLora (step : Step M E) (requestId : RequestId) : List Int :=
  match step.scheduler.config.maxLoras, (step.request requestId).loraRequest with
  | some _, some lora => step.scheduledLoras.insert lora.loraIntId
  | _, _ => step.scheduledLoras

/-- The step with an admitted request at the end of the running list. -/
def started (probe : WaitingProbe) (newReqs resumedReqs : List RequestId) : Step M E :=
  let requestId := probe.requestId
  let scheduler := step.scheduler.modifyRequest requestId fun request =>
    { request with
      status := .running
      numComputedTokens := probe.admission.numComputedTokens }
  { step with
    scheduler := { scheduler with running := scheduler.running ++ [requestId] }
    scheduledNewReqs := newReqs
    scheduledResumedReqs := resumedReqs
    scheduledLoras := step.addLora requestId
    reqToNewBlocks :=
      step.reqToNewBlocks.set requestId (getBlocks step.scheduler.kvCacheManager requestId)
    numScheduledTokens := step.numScheduledTokens.set requestId probe.numNewTokens
    tokenBudget := step.tokenBudget - probe.numNewTokens
    prefillBudget :=
      if probe.limitedPrefill then step.prefillBudget - probe.numNewTokens
      else step.prefillBudget
    phase := .waiting }

/-- Move an admitted request to the running ones. -/
def startRunning (probe : WaitingProbe) : Except EngineError (Step M E) := do
  let (newReqs, resumedReqs) ← step.recordAdmitted probe.requestId
  liftResource ((step.started probe newReqs resumedReqs).allocateEncoderInputs probe.requestId
      probe.encoderInputsToSchedule probe.externalLoadEncoderInput
      probe.newEncoderComputeBudget)

/-- Admit a request that got its slots. -/
def admitRequest (probe : WaitingProbe) : Except EngineError (Step M E) := do
  let committed ← step.commitWaiting probe
  let taken ← committed.takeOut probe.queue probe.requestId
  if probe.admission.loadKvAsync then return taken.awaitRemoteKvs probe
  else taken.startRunning probe

/-- Allocate slots for an admission; a failure ends the loop. -/
def allocateWaiting (probe : WaitingProbe) : Except EngineError (Step M E) := do
  let request := step.request probe.requestId
  let (newBlocks, manager) ←
    liftResource
      (allocateSlots step.scheduler.kvCacheManager request (step.admissionArguments probe))
  let allocated := step.setManager manager
  match newBlocks with
  | some _ => allocated.admitRequest probe
  | none =>
    let released :=
      if request.hasEncoderInputs then
        allocated.setEncoder (EncoderCache.free allocated.scheduler.encoderCacheManager request)
      else allocated
    return released.goto .done

/-- Ask the capacity policy for an admission. -/
def mayAllocate (step : Step M E) (probe : WaitingProbe) : Bool × Step M E :=
  match step.tokencake with
  | none => (true, step)
  | some controller =>
    let (allowed, controller, manager) :=
      controller.canAllocate step.scheduler.kvCacheManager (step.request probe.requestId)
        (step.admissionArguments probe) step.borrowReserved
    (allowed, (step.setManager manager).setController controller)

/-- Whether a denied request gets a second turn. -/
def lacksReservation (step : Step M E) (requestId : RequestId) : Bool :=
  match step.tokencake with
  | none => false
  | some controller =>
    !step.borrowReserved && decide (requestId ∈ controller.reservationDeferred)

/-- Set a request aside that the capacity policy denied. -/
def denyAdmission (probe : WaitingProbe) : Except EngineError (Step M E) :=
  let deferred := step.deferRequest probe.requestId
  let recorded :=
    if deferred.lacksReservation probe.requestId then
      { deferred with
        reservationDeferred := deferred.reservationDeferred ++ [probe.requestId] }
    else deferred
  recorded.setAside probe.queue probe.requestId

/-- Ask the capacity policy whether a waiting request may be admitted. -/
def admitWithCapacity (probe : WaitingProbe) : Except EngineError (Step M E) :=
  match step.mayAllocate probe with
  | (true, asked) => asked.allocateWaiting probe
  | (false, asked) => asked.denyAdmission probe

/-- Find the encoder inputs of an admission.  The answer `none` ends the loop. -/
def probeWaiting (step : Step M E) (name : QueueName) (requestId : RequestId)
    (admission : Admission) (numNewTokens : Int)
    (limitedPrefill : Bool) : Except ResourceError (Option WaitingProbe × Step M E) := do
  let config := step.scheduler.config
  let request := step.request requestId
  -- Without encoder inputs or with an asynchronous load the scan is empty.
  let scan ←
    tryScheduleEncoderInputs config environment.hasCacheItem
      step.scheduler.encoderCacheManager request admission.numComputedTokens numNewTokens
      step.encoderComputeBudget
  let scanned := step.setEncoder scan.encoderCacheManager
  if !admission.loadKvAsync && request.hasEncoderInputs && decide (scan.numNewTokens = 0) then
    return (none, scanned)
  else
    let numNewTokens ←
      alignedTokens config request scan.numNewTokens admission.numNewLocalComputedTokens
        admission.numExternalComputedTokens
    if config.needMambaBlockAlignedSplit && decide (numNewTokens = 0) then
      return (none, scanned)
    else
      let numEncoderTokens ←
        crossAttentionTokens config request scan.encoderInputsToSchedule
      return (some
        { requestId := requestId
          queue := name
          admission := admission
          numNewTokens := numNewTokens
          limitedPrefill := limitedPrefill
          encoderInputsToSchedule := scan.encoderInputsToSchedule
          newEncoderComputeBudget := scan.encoderComputeBudget
          externalLoadEncoderInput := scan.externalLoadEncoderInput
          numEncoderTokens := numEncoderTokens }, scanned)

/-- Give a chosen request tokens, encoder inputs and slots. -/
def admitWithTokens (step : Step M E) (name : QueueName) (requestId : RequestId)
    (admission : Admission) : Except EngineError (Step M E) := do
  match ← step.waitingTokens requestId admission with
  | .exit => return step.goto .done
  | .setAside => step.setAside name requestId
  | .tokens numNewTokens limitedPrefill =>
    let (probe, scanned) ←
      liftResource
        (step.probeWaiting environment name requestId admission numNewTokens limitedPrefill)
    match probe with
    | none => return scanned.goto .done
    | some probe => scanned.admitWithCapacity probe

/-- The admission of a chosen waiting request. -/
def admittingTransition (step : Step M E) (name : QueueName)
    (requestId : RequestId) : Except EngineError (Step M E) := do
  let (admission, asked) ← step.lookup environment requestId
  match admission with
  | none => asked.setAside name requestId
  | some admission => asked.admitWithTokens environment name requestId admission

end Admissions

end Step

variable (environment : StepEnvironment)

namespace Step

/-- The place between the two loops. -/
def afterRunningTransition (step : Step M E) : Except EngineError (Step M E) := do
  let scheduler := step.scheduler
  let scheduledLoras :=
    match scheduler.config.maxLoras with
    | none => []
    | some _ =>
      (((scheduler.requestsOf step.scheduledRunningReqs).filterMap Request.loraRequest).map
        LoRARequest.loraIntId).filter (0 < ·) |>.dedup
  ensure (match scheduler.config.maxLoras with
      | none => true
      | some maxLoras => decide (scheduledLoras.length ≤ maxLoras)) .assertionFailed
  let recorded := { step with scheduledLoras := scheduledLoras }
  if step.preemptedReqs.isEmpty ∧ environment.pauseState = .unpaused then
    return { recorded with
      cacheAgentOrder :=
        step.tokencake.isSome && scheduler.config.maxLoras.isNone
          && (scheduler.waiting ++ scheduler.skippedWaiting).all step.isAnnotated
      phase := .waiting }
  else return recorded.goto .done

/-- One transition of the two loops. -/
def transition (step : Step M E) : Except EngineError (Step M E) :=
  match step.phase with
  | .running => step.runningTransition environment
  | .growing probe => step.growingTransition probe
  | .allocating probe => step.allocatingTransition environment probe
  | .afterRunning => step.afterRunningTransition environment
  | .waiting => step.waitingTransition environment
  | .choosing pending eligible best =>
    step.choosingTransition environment pending eligible best
  | .admitting requestId name => step.admittingTransition environment name requestId
  | .done => .ok step

/-- Whether both loops are behind the call. -/
def isDone (step : Step M E) : Bool := decide (step.phase = .done)

/-- A bound on the number of transitions of a call. -/
def transitionBound (scheduler : Scheduler M E) : Nat :=
  let total :=
    scheduler.waiting.length + scheduler.skippedWaiting.length + scheduler.running.length
  (2 * total + 9) * (total + 4)

end Step

namespace Scheduler

/-- Begin a call: refresh the capacity policy and set the budgets. -/
def beginStep (environment : StepEnvironment) (scheduler : Scheduler M E) : Step M E :=
  let config := scheduler.config
  let manager := newStepStarts scheduler.kvCacheManager
  let queued :=
    RequestQueue.iterate config.policy scheduler.lt scheduler.skippedWaiting ++
      RequestQueue.iterate config.policy scheduler.lt scheduler.waiting
  let begun := scheduler.tokencakeScheduling.map fun controller =>
    controller.beginStep manager environment (scheduler.requestsOf queued)
      (scheduler.requestsOf scheduler.running)
  let active := match begun with
    | some (true, _) => true
    | _ => false
  let nativeBudget : Int :=
    if environment.pauseState = .pausedAll then 0 else config.maxNumScheduledTokens
  { scheduler :=
      { scheduler with
        kvCacheManager := manager
        tokencakeScheduling := begun.map Prod.snd }
    tokencakeActive := active
    scheduledNewReqs := []
    scheduledResumedReqs := []
    scheduledRunningReqs := []
    preemptedReqs := []
    reqToNewBlocks := .empty
    numScheduledTokens := .empty
    -- Stores that are not published are submitted before further work.
    tokenBudget :=
      if config.hasTokencakeConnector && environment.hasUnpublished (begun.map Prod.snd) then 0
      else nativeBudget
    prefillBudget :=
      match begun with
      | some (true, controller) =>
        controller.prefillBudget (scheduler.requestsOf scheduler.running) nativeBudget
      | _ => nativeBudget
    scheduledPrefillTokens := .empty
    scheduledEncoderInputs := .empty
    encoderComputeBudget := config.maxNumEncoderInputTokens
    scheduledSpecDecodeTokens := .empty
    reqIndex := 0
    scheduledLoras := []
    stepSkippedWaiting := []
    reservationDeferred := []
    borrowReserved := false
    agentOrder := none
    cacheAgentOrder := false
    connectorCalls := 0
    phase := .running }

/-- Advance a scheduled request over its tokens.  The asynchronous scheduler
also counts the output that is still to come. -/
def advanceRequest (config : SchedulerConfig) (numScheduledTokens : Int) (numSpecTokens : Nat)
    (request : Request) : Request :=
  let numComputedTokens := request.numComputedTokens + numScheduledTokens
  let isPrefillChunk :=
    decide (numComputedTokens < request.numTokens + request.numOutputPlaceholders)
  let advanced :=
    { request with numComputedTokens := numComputedTokens, isPrefillChunk := isPrefillChunk }
  if config.asyncScheduling && !isPrefillChunk then
    { advanced with
      numOutputPlaceholders := advanced.numOutputPlaceholders + 1 + numSpecTokens
      specTokenIds := List.replicate config.numSpecTokens (-1) }
  else advanced

theorem requestId_advanceRequest (config : SchedulerConfig) (numScheduledTokens : Int)
    (numSpecTokens : Nat) (request : Request) :
    (advanceRequest config numScheduledTokens numSpecTokens request).requestId =
      request.requestId := by
  unfold advanceRequest
  dsimp only
  split <;> rfl

/-- Advance the scheduled requests by their tokens. -/
def advanceRequests (spec : Dict RequestId (List TokenId)) :
    List (RequestId × Int) → Scheduler M E → Except EngineError (Scheduler M E)
  | [], scheduler => .ok scheduler
  | (requestId, numTokens) :: rest, scheduler =>
    if requestId ∈ scheduler.requests then
      advanceRequests spec rest (scheduler.modifyRequest requestId
          (advanceRequest scheduler.config numTokens (spec.getD requestId []).length)
          (requestId_advanceRequest _ _ _))
    else .error .keyError

/-- Advance the scheduled requests and forget the finished ones. -/
def updateAfterSchedule (scheduler : Scheduler M E)
    (output : SchedulerOutput) : Except EngineError (Scheduler M E) := do
  let advanced ←
    advanceRequests output.scheduledSpecDecodeTokens output.numScheduledTokens.entries scheduler
  return { advanced with finishedReqIds := [] }

end Scheduler

namespace Step

section

variable (step : Step M E)

/-- The entry of a scheduled request in the output. -/
def requestData (resumed : Bool)
    (requestId : RequestId) : Except EngineError ScheduledRequestData :=
  match step.reqToNewBlocks.get? requestId with
  | none => .error .keyError
  | some blocks =>
    .ok
      { reqId := requestId
        blockIds := blocks
        numComputedTokens := (step.request requestId).numComputedTokens
        resumed := resumed }

/-- Put the requests that were set aside in front of the skipped ones. -/
def requeueSkipped : Scheduler M E :=
  { step.scheduler with
    skippedWaiting :=
      RequestQueue.prependRequests step.scheduler.config.policy step.scheduler.lt
        step.scheduler.skippedWaiting step.stepSkippedWaiting }

/-- The constraints every step satisfies. -/
def withinLimits : Bool :=
  let config := step.scheduler.config
  decide (step.numScheduledTokens.sum ≤ (config.maxNumScheduledTokens : Int))
    && decide (step.tokenBudget ≥ 0)
    && decide (step.scheduler.running.length ≤ config.maxNumRunningReqs)
    && decide (step.scheduledNewReqs.length + step.scheduledResumedReqs.length +
      step.scheduledRunningReqs.length ≤ step.scheduler.running.length)

/-- The output of a step.  The second model runner treats resumed requests as
new ones. -/
def buildOutput : Except EngineError SchedulerOutput := do
  let config := step.scheduler.config
  let newReqs :=
    if config.useV2ModelRunner then step.scheduledNewReqs ++ step.scheduledResumedReqs
    else step.scheduledNewReqs
  let resumedReqs := if config.useV2ModelRunner then [] else step.scheduledResumedReqs
  let newData ← newReqs.mapM (step.requestData false)
  let runningData ← step.scheduledRunningReqs.mapM (step.requestData false)
  ensure (resumedReqs.all fun id => !decide (id ∈ step.scheduler.prevStepScheduledReqIds))
    .assertionFailed
  let resumedData ← resumedReqs.mapM (step.requestData true)
  return {
    scheduledNewReqs := newData
    scheduledCachedReqs := runningData ++ resumedData
    numScheduledTokens := step.numScheduledTokens
    scheduledSpecDecodeTokens := step.scheduledSpecDecodeTokens
    scheduledEncoderInputs := step.scheduledEncoderInputs
    preemptedReqIds := step.preemptedReqs
    finishedReqIds := step.scheduler.finishedReqIds
    freeEncoderMmHashes :=
      (EncoderCache.getFreedMmHashes step.scheduler.encoderCacheManager).1 }

/-- Turn a finished step into an output and update the requests. -/
def conclude : Except EngineError (SchedulerOutput × Scheduler M E) := do
  ensure step.withinLimits .assertionFailed
  let output ← step.buildOutput
  let scheduler ←
    { step.requeueSkipped with
      prevStepScheduledReqIds := step.numScheduledTokens.keys
      encoderCacheManager :=
        (EncoderCache.getFreedMmHashes step.scheduler.encoderCacheManager).2
      }.updateAfterSchedule output
  return (output, scheduler)

end

end Step

namespace Scheduler

/-- One call of the scheduler. -/
def schedule
    (scheduler : Scheduler M E) : Except EngineError (SchedulerOutput × Scheduler M E) := do
  let step ←
    Machine.loop Step.isDone (Step.transition environment) .outOfFuel
      (Step.transitionBound scheduler) (scheduler.beginStep environment)
  step.conclude

end Scheduler

end TokenCake
