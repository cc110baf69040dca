import TokenCake.Scheduler.State

/-!
# Scheduling of running requests

The first loop of `schedule` gives tokens to the running requests in order.  The range of tokens is
cut in front of a multimodal input that cannot be scheduled: the inputs that overlap the range are
referred to if they are cached, and need space if they are not.  If no slots are left for a request,
others are preempted until there are slots or the request itself was preempted.
-/

namespace TokenCake

/-- The local variables of `_try_schedule_encoder_inputs`. -/
structure EncoderScan (E : Type) where
  encoderInputsToSchedule : List Nat
  externalLoadEncoderInput : List Nat
  mmHashesToSchedule : List Text
  numEmbedsToSchedule : Nat
  encoderComputeBudget : Int
  numNewTokens : Int
  encoderCacheManager : E

section EncoderInputs

variable (config : SchedulerConfig) (request : Request)

namespace EncoderScan

variable {E : Type} [EncoderCache E]

/-- Cut the range of tokens. -/
def cutBefore (scan : EncoderScan E) (numNewTokens : Int)
    (encoderCacheManager : E) : EncoderScan E :=
  { scan with numNewTokens := numNewTokens, encoderCacheManager := encoderCacheManager }

/-- Whether the range covers embeddings of the input. -/
def coversEmbeds (feature : MultiModalFeature) (numComputedTokens numNewTokens : Int) : Bool :=
  let startPos : Int := feature.mmPosition.offset
  let startIdxRel := (max 0 (numComputedTokens - startPos)).toNat
  let endIdxRel :=
    (min (feature.mmPosition.length : Int) (numComputedTokens + numNewTokens - startPos)).toNat
  let (currStart, currEnd) :=
    feature.mmPosition.getEmbedsIndicesInRange startIdxRel endIdxRel
  !decide (currEnd = currStart)

/-- Record an input that needs space: it is loaded externally or computed. -/
def record (scan : EncoderScan E) (inputId : Nat) (feature : MultiModalFeature) (external : Bool)
    (encoderCacheManager : E) : EncoderScan E :=
  let numEncoderEmbeds := feature.mmPosition.getNumEmbeds
  if external then
    { scan with
      mmHashesToSchedule := feature.identifier :: scan.mmHashesToSchedule
      externalLoadEncoderInput := scan.externalLoadEncoderInput ++ [inputId]
      numEmbedsToSchedule := scan.numEmbedsToSchedule + numEncoderEmbeds
      encoderCacheManager := encoderCacheManager }
  else
    { scan with
      mmHashesToSchedule := feature.identifier :: scan.mmHashesToSchedule
      encoderInputsToSchedule := scan.encoderInputsToSchedule ++ [inputId]
      numEmbedsToSchedule := scan.numEmbedsToSchedule + numEncoderEmbeds
      encoderComputeBudget := scan.encoderComputeBudget - numEncoderEmbeds
      encoderCacheManager := encoderCacheManager }

/-- Schedule an input that is not cached, or cut the range in front of it. The
flag tells whether later inputs are examined as well. -/
def place (hasCacheItem : Text → Bool) (request : Request) (numComputedTokens : Int) (shift : Nat)
    (inputId : Nat) (feature : MultiModalFeature)
    (scan : EncoderScan E) : Except ResourceError (Bool × EncoderScan E) := do
  let startPos : Int := feature.mmPosition.offset
  let numEncoderTokens : Int := feature.mmPosition.length
  if config.disableChunkedMmInput ∧ numComputedTokens < startPos ∧
      numComputedTokens + scan.numNewTokens < startPos + numEncoderTokens then
    return (false, scan.cutBefore (max 0 (startPos - (numComputedTokens + shift)))
        scan.encoderCacheManager)
  else
    let (fits, encoderCacheManager) ←
      EncoderCache.canAllocate scan.encoderCacheManager request inputId
        scan.encoderComputeBudget scan.numEmbedsToSchedule
    if !fits then
      let numNewTokens :=
        if numComputedTokens + shift < startPos then startPos - (numComputedTokens + shift)
        else 0
      return (false, scan.cutBefore numNewTokens encoderCacheManager)
    else if !coversEmbeds feature numComputedTokens scan.numNewTokens then
      return (true, { scan with encoderCacheManager := encoderCacheManager })
    else
      let external := config.hasEcConnector && hasCacheItem feature.identifier
      return (true, scan.record inputId feature external encoderCacheManager)

/-- Examine the inputs in order. -/
def scanFrom (config : SchedulerConfig) (hasCacheItem : Text → Bool) (request : Request)
    (numComputedTokens : Int) (shift : Nat) :
    List MultiModalFeature → Nat → EncoderScan E → Except ResourceError (EncoderScan E)
  | [], _, scan => .ok scan
  | feature :: rest, inputId, scan =>
    let startPos : Int := feature.mmPosition.offset
    let numEncoderTokens : Int := feature.mmPosition.length
    let continueWith := scanFrom config hasCacheItem request numComputedTokens shift rest
      (inputId + 1)
    if startPos ≥ numComputedTokens + scan.numNewTokens + shift then .ok scan
    else if config.isEncoderDecoder ∧ numComputedTokens > 0 then
      if startPos = 0 then continueWith scan else .error .assertionFailed
    else if startPos + numEncoderTokens ≤ numComputedTokens then continueWith scan
    else if !config.isEncoderDecoder
        && decide (feature.identifier ∈ scan.mmHashesToSchedule) then continueWith scan
    else do
      let (cached, encoderCacheManager) ←
        if config.isEncoderDecoder then .ok (false, scan.encoderCacheManager)
        else EncoderCache.checkAndUpdateCache scan.encoderCacheManager request inputId
      let checked := { scan with encoderCacheManager := encoderCacheManager }
      if cached then continueWith checked
      else
        let (further, placed) ←
          place config hasCacheItem request numComputedTokens shift inputId feature checked
        if further then continueWith placed else return placed

end EncoderScan

/-- Find the multimodal inputs to schedule with a range of tokens. -/
def tryScheduleEncoderInputs [EncoderCache E] (hasCacheItem : Text → Bool) (encoderCacheManager : E)
    (request : Request) (numComputedTokens numNewTokens encoderComputeBudget : Int) :
    Except ResourceError (EncoderScan E) :=
  let scan : EncoderScan E :=
    { encoderInputsToSchedule := []
      externalLoadEncoderInput := []
      mmHashesToSchedule := []
      numEmbedsToSchedule := 0
      encoderComputeBudget := encoderComputeBudget
      numNewTokens := numNewTokens
      encoderCacheManager := encoderCacheManager }
  if numNewTokens = 0 ∨ request.hasEncoderInputs = false then .ok scan
  else
    EncoderScan.scanFrom config hasCacheItem request numComputedTokens
      (if config.useEagle then 1 else 0) request.mmFeatures 0 scan

/-- Cut a prefill chunk so that the state of a linear-attention layer is cached
at block borders. -/
def mambaBlockAlignedSplit
    (numNewTokens numNewLocalComputedTokens numExternalComputedTokens : Int) :
    Except ResourceError Int :=
  if numExternalComputedTokens ≠ 0 then .error .assertionFailed
  else
    let numComputedTokens :=
      request.numComputedTokens + numNewLocalComputedTokens + numExternalComputedTokens
    let numTokens : Int := request.numTokens
    let blockSize : Int := config.blockSize
    if numComputedTokens < max (request.numPromptTokens : Int) (numTokens - 1) then
      let aligned := numTokens - numTokens % blockSize
      let lastCachePosition :=
        if config.useEagle then max (aligned - blockSize) 0 else aligned
      let afterSched := numComputedTokens + numNewTokens
      if afterSched < lastCachePosition then .ok (numNewTokens / blockSize * blockSize)
      else if numComputedTokens < lastCachePosition ∧ lastCachePosition < afterSched then
        .ok (lastCachePosition - numComputedTokens)
      else .ok numNewTokens
    else .ok numNewTokens

/-- The tokens of a chunk after the cut at block borders, if the model needs it. -/
def alignedTokens (numNewTokens numNewLocalComputedTokens numExternalComputedTokens : Int) :
    Except ResourceError Int :=
  if config.needMambaBlockAlignedSplit then
    mambaBlockAlignedSplit config request numNewTokens numNewLocalComputedTokens
      numExternalComputedTokens
  else .ok numNewTokens

/-- Number of embeddings of some inputs. -/
def sumEncoderEmbeds (request : Request) (inputs : List Nat) : Except ResourceError Nat :=
  inputs.foldlM (fun total inputId => do
      let embeds ← request.getNumEncoderEmbeds inputId
      return total + embeds) 0

/-- Number of tokens that cross attention needs slots for. -/
def crossAttentionTokens (inputs : List Nat) : Except ResourceError Nat :=
  if config.isEncoderDecoder then sumEncoderEmbeds request inputs else .ok 0

end EncoderInputs

open KVCacheManager

variable {M E : Type} [KVCacheManager M] [EncoderCache E]

namespace Scheduler

/-- Replace the capacity policy. -/
def setController (scheduler : Scheduler M E) (controller : SchedulingController) : Scheduler M E :=
  { scheduler with tokencakeScheduling := some controller }

/-- Preempt a running request that was taken out of the running list: its blocks
and encoder inputs are released and it returns to the front of the waiting
queue. -/
def preempted (scheduler : Scheduler M E) (requestId : RequestId)
    (physical : Bool) : Scheduler M E :=
  let request := scheduler.requestOf requestId
  let kvCacheManager := free scheduler.kvCacheManager requestId
  { scheduler.modifyRequest requestId fun request =>
      { request with
        status := .preempted
        numComputedTokens := 0
        specTokenIds := []
        numPreemptions := request.numPreemptions + 1 } with
    kvCacheManager := kvCacheManager
    tokencakeScheduling := scheduler.tokencakeScheduling.map fun controller =>
      controller.preempt kvCacheManager request physical
    encoderCacheManager := EncoderCache.free scheduler.encoderCacheManager request
    waiting :=
      RequestQueue.prependRequest scheduler.config.policy scheduler.lt scheduler.waiting requestId }

end Scheduler

namespace Step

section

variable (step : Step M E)

/-- The capacity policy, if it takes part in this step. -/
def tokencake : Option SchedulingController :=
  if step.tokencakeActive then step.scheduler.tokencakeScheduling else none

/-- Whether the capacity policy knows a request as annotated. -/
def isAnnotated (requestId : RequestId) : Bool :=
  match step.tokencake with
  | none => false
  | some controller => decide (requestId ∈ controller.metadata)

/-- The object of a request. -/
def request (requestId : RequestId) : Request :=
  step.scheduler.requestOf requestId

/-- The step with another state of the KV cache. -/
def setManager (manager : M) : Step M E :=
  { step with scheduler := { step.scheduler with kvCacheManager := manager } }

/-- The step with another state of the encoder cache. -/
def setEncoder (encoder : E) : Step M E :=
  { step with scheduler := { step.scheduler with encoderCacheManager := encoder } }

/-- Replace the capacity policy. -/
def setController (controller : SchedulingController) : Step M E :=
  { step with scheduler := step.scheduler.setController controller }

/-- Move on to another place of the call. -/
def goto (phase : Phase) : Step M E :=
  { step with phase := phase }

/-- Go on to the next running request. -/
def nextRunning : Step M E :=
  { step with reqIndex := step.reqIndex + 1, phase := .running }

end

/-- Whether the previous step certainly reaches the token limit. -/
def certainlyFinished (request : Request) : Bool :=
  decide (request.numOutputPlaceholders > 0) &&
    decide (request.numComputedTokens + 2 - request.numOutputPlaceholders ≥
      request.numPromptTokens + request.maxTokens)

/-- Cut a long prefill. -/
def capLongPrefill (config : SchedulerConfig) (numNewTokens : Int) : Int :=
  if 0 < config.longPrefillTokenThreshold ∧
      (config.longPrefillTokenThreshold : Int) < numNewTokens then
    config.longPrefillTokenThreshold
  else numNewTokens

variable (step : Step M E) (environment : StepEnvironment) (probe : RunningProbe)
  (requestId : RequestId) (victim : RequestId)

/-- Whether a chunk counts against the prefill budget. -/
def isLimitedPrefill (numNewTokens : Int) : Bool :=
  step.isAnnotated requestId && decide (numNewTokens > 1)
    && step.scheduler.config.enableChunkedPrefill
    && !(step.request requestId).hasEncoderInputs
    && !step.scheduler.config.needMambaBlockAlignedSplit

/-- Tokens a running request may compute before encoder inputs are considered,
and whether they count against the prefill budget. -/
def runningTokens (step : Step M E) (requestId : RequestId) : Int × Bool :=
  let config := step.scheduler.config
  let request := step.request requestId
  let wanted : Int :=
    request.numTokensWithSpec + request.numOutputPlaceholders - request.numComputedTokens
  let numNewTokens := min (capLongPrefill config wanted) step.tokenBudget
  let limitedPrefill :=
    step.isLimitedPrefill requestId numNewTokens
      && decide (request.numComputedTokens < request.numPromptTokens)
  let capped :=
    if limitedPrefill then SchedulingController.capPrefill numNewTokens step.prefillBudget
    else numNewTokens
  (min capped ((config.maxModelLen : Int) - 1 - request.numComputedTokens), limitedPrefill)

/-- Determine what a running request would be given, taking references to cached
encoder inputs. -/
def probeRunning (step : Step M E)
    (requestId : RequestId) : Except ResourceError (RunningProbe × E) := do
  let config := step.scheduler.config
  let request := step.request requestId
  let (numNewTokens, limitedPrefill) := step.runningTokens requestId
  -- Without encoder inputs the scan is empty and changes nothing.
  let scan ←
    tryScheduleEncoderInputs config environment.hasCacheItem
      step.scheduler.encoderCacheManager request request.numComputedTokens numNewTokens
      step.encoderComputeBudget
  let numNewTokens ← alignedTokens config request scan.numNewTokens 0 0
  return (
    { requestId := requestId
      numNewTokens := numNewTokens
      limitedPrefill := limitedPrefill
      encoderInputsToSchedule := scan.encoderInputsToSchedule
      newEncoderComputeBudget := scan.encoderComputeBudget
      externalLoadEncoderInput := scan.externalLoadEncoderInput },
    scan.encoderCacheManager)

/-- Release the blocks a running request skips, if the capacity policy asks. -/
def prepareRunning (step : Step M E) (requestId : RequestId) : Step M E :=
  match step.tokencake with
  | none => step
  | some controller =>
    let (controller, manager) :=
      controller.prepareRunning step.scheduler.kvCacheManager (step.request requestId)
    (step.setManager manager).setController controller

/-- The head of the loop over running requests. -/
def runningTransition (step : Step M E) : Except EngineError (Step M E) :=
  match step.scheduler.running[step.reqIndex]? with
  | none => .ok (step.goto .afterRunning)
  | some requestId =>
    if step.tokenBudget ≤ 0 then .ok (step.goto .afterRunning)
    else
      if certainlyFinished (step.request requestId) then .ok step.nextRunning
      else do
        let (probe, encoder) ← liftResource (step.probeRunning environment requestId)
        let step := step.setEncoder encoder
        if probe.numNewTokens = 0 then return step.nextRunning
        else return (step.prepareRunning requestId).goto (.growing probe)

/-- Ask the capacity policy whether a running request may grow. -/
def growingTransition (probe : RunningProbe) : Except EngineError (Step M E) :=
  match step.tokencake with
  | none => .ok (step.goto (.allocating probe))
  | some controller => do
      let allowed ←
        controller.canGrow step.scheduler.kvCacheManager (step.request probe.requestId)
          probe.numNewTokens
      if allowed then return step.goto (.allocating probe)
      else return step.nextRunning

/-- Record the inputs that are scheduled for a request. -/
def recordEncoderInputs (encoderInputsToSchedule : List Nat)
    (newEncoderComputeBudget : Int) : Step M E :=
  { step with
    scheduledEncoderInputs :=
      if encoderInputsToSchedule.isEmpty then step.scheduledEncoderInputs
      else step.scheduledEncoderInputs.set requestId encoderInputsToSchedule
    encoderComputeBudget :=
      if encoderInputsToSchedule.isEmpty then step.encoderComputeBudget
      else newEncoderComputeBudget }

/-- Take references to inputs in the encoder cache. -/
def referToInputs (encoder : E) (request : Request) (inputs : List Nat) : Except ResourceError E :=
  inputs.foldlM (fun encoder inputId => EncoderCache.allocate encoder request inputId) encoder

/-- Refer to the encoder inputs of a scheduled range: those to compute and those
to load. -/
def allocateEncoderInputs (encoderInputsToSchedule externalLoadEncoderInput : List Nat)
    (newEncoderComputeBudget : Int) : Except ResourceError (Step M E) := do
  let encoder ←
    referToInputs step.scheduler.encoderCacheManager (step.request requestId)
      (encoderInputsToSchedule ++ externalLoadEncoderInput)
  return (step.setEncoder encoder).recordEncoderInputs requestId encoderInputsToSchedule
    newEncoderComputeBudget

/-- Put the draft tokens of a scheduled range into the output. -/
def scheduleSpecTokens (numNewTokens : Int) : Step M E :=
  let request := step.request requestId
  let numScheduledSpecTokens :=
    numNewTokens + request.numComputedTokens - request.numTokens - request.numOutputPlaceholders
  { step with
    scheduledSpecDecodeTokens :=
      if !request.specTokenIds.isEmpty && decide (numScheduledSpecTokens > 0) then
        step.scheduledSpecDecodeTokens.set requestId
          (request.specTokenIds.take numScheduledSpecTokens.toNat)
      else step.scheduledSpecDecodeTokens
    scheduler := step.scheduler.modifyRequest requestId fun request =>
      { request with specTokenIds := [] } }

/-- Report the new blocks of a running request to the capacity policy. -/
def commitRunning (newBlocks : KVCacheBlocks) : Except EngineError (Step M E) :=
  match step.tokencake with
  | none => .ok step
  | some controller => do
      let controller ←
        controller.commit step.scheduler.kvCacheManager (step.request requestId) true 0
          (some newBlocks) false
      return step.setController controller

/-- Record that a running request is scheduled. -/
def recordRunning (newBlocks : KVCacheBlocks) : Step M E :=
  let requestId := probe.requestId
  { step with
    scheduledRunningReqs := step.scheduledRunningReqs ++ [requestId]
    reqToNewBlocks := step.reqToNewBlocks.set requestId newBlocks
    numScheduledTokens := step.numScheduledTokens.set requestId probe.numNewTokens
    tokenBudget := step.tokenBudget - probe.numNewTokens
    scheduledPrefillTokens :=
      if probe.limitedPrefill then
        step.scheduledPrefillTokens.set requestId probe.numNewTokens
      else step.scheduledPrefillTokens
    prefillBudget :=
      if probe.limitedPrefill then step.prefillBudget - probe.numNewTokens
      else step.prefillBudget }

/-- Schedule a running request that got its slots. -/
def scheduleRunning (newBlocks : KVCacheBlocks) : Except EngineError (Step M E) := do
  let committed ← step.commitRunning probe.requestId newBlocks
  let recorded := committed.recordRunning probe newBlocks
  let drafted := recorded.scheduleSpecTokens probe.requestId probe.numNewTokens
  let allocated ←
    liftResource (drafted.allocateEncoderInputs probe.requestId probe.encoderInputsToSchedule
        probe.externalLoadEncoderInput probe.newEncoderComputeBudget)
  return allocated.nextRunning

/-- The victim the capacity policy names, if it names one. -/
def agentVictim (step : Step M E)
    (probe : RunningProbe) : Except EngineError (Option RequestId × Step M E) :=
  match step.tokencake with
  | none => .ok (none, step)
  | some controller => do
      let computedTokens := fun request : Request =>
        if step.scheduler.config.hasTokencakeConnector then
          environment.recomputeCost step.preemptedReqs.length request.requestId
        else request.numComputedTokens
      let (victim, controller) ←
        controller.victim step.scheduler.kvCacheManager computedTokens
          (step.request probe.requestId) (step.scheduler.requestsOf step.scheduler.running)
          probe.numNewTokens step.scheduler.config.numLookaheadTokens
      return (victim, step.setController controller)

/-- The running request with the lowest priority, and among these the one that arrived last. -/
def lowestPriority (scheduler : Scheduler M E) : Option RequestId :=
  firstMax (fun id =>
      [((scheduler.requestOf id).priority : ℚ), (scheduler.requestOf id).arrivalTime])
    scheduler.running

/-- The request that is preempted without the capacity policy. -/
def nativeVictim (scheduler : Scheduler M E) : Option RequestId :=
  match scheduler.config.policy with
  | .priority => lowestPriority scheduler
  | .fcfs => scheduler.running.getLast?

/-- The request that is preempted next if no slots are left. -/
def nextVictim (step : Step M E) (probe : RunningProbe) : Option RequestId :=
  match step.agentVictim environment probe with
  | .error _ => none
  | .ok (some victim, _) => some victim
  | .ok (none, named) => nativeVictim named.scheduler

/-- The step without what it scheduled for a victim. -/
def withdrawn (numTokens : Int) (embeds : Nat) : Step M E :=
  { step with
    scheduledRunningReqs := step.scheduledRunningReqs.erase victim
    numScheduledTokens := step.numScheduledTokens.erase victim
    tokenBudget := step.tokenBudget + numTokens
    prefillBudget := step.prefillBudget + step.scheduledPrefillTokens.getD victim 0
    scheduledPrefillTokens := step.scheduledPrefillTokens.erase victim
    reqToNewBlocks := step.reqToNewBlocks.erase victim
    scheduledSpecDecodeTokens := step.scheduledSpecDecodeTokens.erase victim
    scheduledEncoderInputs := step.scheduledEncoderInputs.erase victim
    encoderComputeBudget := step.encoderComputeBudget + embeds
    reqIndex := step.reqIndex - 1 }

/-- Withdraw what this step scheduled for a victim.  Restored encoder budget also
reaches the request in hand if the capacity policy chose the victim. -/
def withdrawScheduled (byAgent : Bool) : Except EngineError (RunningProbe × Step M E) :=
  match step.numScheduledTokens.get? victim, step.reqToNewBlocks.get? victim with
  | some numTokens, some _ => do
      let embeds ←
        liftResource
          (sumEncoderEmbeds (step.request victim) (step.scheduledEncoderInputs.getD victim []))
      return (
        { probe with
          newEncoderComputeBudget :=
            if byAgent then probe.newEncoderComputeBudget + embeds
            else probe.newEncoderComputeBudget },
        step.withdrawn victim numTokens embeds)
  | _, _ => .error .keyError

/-- The step with another list of running requests and another position in it. -/
def setRunning (step : Step M E) (running : List RequestId) (reqIndex : Nat) : Step M E :=
  { step with
    scheduler := { step.scheduler with running := running }
    reqIndex := reqIndex }

/-- Take a victim out of the running list and out of the output.  The position
moves with the request in hand, but not when the priority policy chose a victim
that was passed over. -/
def removeVictim (byAgent : Bool) : Except EngineError (RunningProbe × Step M E) :=
  let running := step.scheduler.running
  if victim ∉ running then .error .requestNotInQueue
  else if victim ∈ step.scheduledRunningReqs then
    (step.setRunning (running.erase victim) step.reqIndex).withdrawScheduled probe victim byAgent
  else if byAgent ∧ running.idxOf victim < step.reqIndex then
    .ok (probe, step.setRunning (running.erase victim) (step.reqIndex - 1))
  else .ok (probe, step.setRunning (running.erase victim) step.reqIndex)

/-- Take the victim out of the running list: the one the capacity policy named,
the request with the lowest priority or the last request. -/
def takeVictim (agentVictim : Option RequestId) :
    Except EngineError (RequestId × RunningProbe × Step M E) :=
  match agentVictim, step.scheduler.config.policy with
  | some victim, _ => do
      let removed ← step.removeVictim probe victim true
      return (victim, removed)
  | none, .priority =>
    match lowestPriority step.scheduler with
    | none => .error .valueError
    | some victim => do
        let removed ← step.removeVictim probe victim false
        return (victim, removed)
  | none, .fcfs =>
    match step.scheduler.running.getLast? with
    | none => .error .indexError
    | some victim =>
      .ok (victim, probe, step.setRunning step.scheduler.running.dropLast step.reqIndex)

/-- Preempt a victim; the call goes on behind the loop if it is the request in
hand. -/
def afterPreemption (victim : RequestId) : Step M E :=
  { step with
    scheduler := step.scheduler.preempted victim true
    preemptedReqs := step.preemptedReqs ++ [victim]
    phase := if victim = probe.requestId then .afterRunning else .allocating probe }

/-- Preempt one request to make room for the request in hand. -/
def preemptFor (step : Step M E) (probe : RunningProbe) : Except EngineError (Step M E) := do
  let (agentVictim, named) ← step.agentVictim environment probe
  let (victim, probe, removed) ← named.takeVictim probe agentVictim
  ensure (decide ((removed.request victim).status = .running)) .assertionFailed
  return removed.afterPreemption probe victim

/-- Ask for slots for a running request and preempt another one if there are none. -/
def allocatingTransition (step : Step M E)
    (probe : RunningProbe) : Except EngineError (Step M E) := do
  let (newBlocks, manager) ←
    liftResource (allocateSlots step.scheduler.kvCacheManager (step.request probe.requestId)
        { numNewTokens := probe.numNewTokens
          numLookaheadTokens := step.scheduler.config.numLookaheadTokens })
  match newBlocks with
  | some newBlocks => (step.setManager manager).scheduleRunning probe newBlocks
  | none => (step.setManager manager).preemptFor environment probe

end Step

end TokenCake
