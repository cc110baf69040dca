import TokenCake.Scheduler.State

/-!
# The life of a request

A request enters a waiting queue and leaves the scheduler when it is finished and its blocks are
free; a connector, whose answers are arguments, may keep the blocks of a finished request until a
transfer ends.  In between, the answers to scheduled steps bring generated tokens, pooling results
and reports of the connector.  A generation request stops at its end-of-sequence token, at a stop
token, at its length limits, or when its output repeats a pattern.  Stopped requests leave their
queues, sessions are continued, and failed loads are computed again or end their requests.  Client
outputs, statistics and events are left out.
-/

namespace TokenCake

/-- The token at a position counted from the end, starting with one. -/
def tokenFromEnd (tokenIds : List TokenId) (position : Nat) : Option TokenId :=
  tokenIds.reverse[position - 1]?

/-- Whether the last `patternLen` tokens repeat at least `minCount` times. -/
def hasRepeatingPattern (tokenIds : List TokenId) (patternLen minCount : Nat) : Bool :=
  (List.range patternLen).all fun position =>
    (List.range (minCount - 1)).all fun repetition =>
      decide (tokenFromEnd tokenIds (patternLen * (repetition + 1) + (position + 1)) =
        tokenFromEnd tokenIds (position + 1))

/-- Try the pattern lengths in order while enough tokens exist. -/
def checkPatternLengths (tokenIds : List TokenId) (minCount : Nat) : List Nat → Bool
  | [] => false
  | patternLen :: rest =>
    if patternLen * minCount > tokenIds.length then false
    else if hasRepeatingPattern tokenIds patternLen minCount then true
    else checkPatternLengths tokenIds minCount rest

/-- Whether the tokens end in a repeated pattern. -/
def checkSequenceRepetition (tokenIds : List TokenId) (params : RepetitionDetectionParams) : Bool :=
  let minPatternSize := if params.minPatternSize ≤ 0 then 1 else params.minPatternSize
  if params.maxPatternSize ≤ 0 ∨ params.minCount < 2 ∨
      minPatternSize > params.maxPatternSize then false
  else
    checkPatternLengths tokenIds params.minCount.toNat
      ((List.range (params.maxPatternSize - minPatternSize + 1).toNat).map fun offset =>
        minPatternSize.toNat + offset)

example : checkSequenceRepetition [7, 1, 2, 1, 2, 1, 2] ⟨3, 1, 3⟩ = true := by
  decide

/-- The value recorded as the reason of a repetition stop. -/
def repetitionDetected : TokenId := -1

/-- How the request stops now, if it does: the final status and, for some of them,
the reason. -/
def stopStatus (maxModelLen : Nat)
    (request : Request) : Except EngineError (Option (RequestStatus × Option TokenId)) :=
  match request.poolingParams, request.samplingParams with
  | none, some samplingParams =>
    if request.numOutputTokens < samplingParams.minTokens then .ok none
    else
      match request.outputTokenIds.getLast? with
      | none => .error .indexError
      | some lastTokenId =>
        if samplingParams.eosTokenId = some lastTokenId then
          .ok (some (.finishedStopped, none))
        else if lastTokenId ∈ samplingParams.stopTokenIds then
          .ok (some (.finishedStopped, some lastTokenId))
        else if request.numTokens ≥ maxModelLen ∨ request.numOutputTokens ≥ request.maxTokens then
          .ok (some (.finishedLengthCapped, none))
        else
          match samplingParams.repetitionDetection with
          | none => .ok none
          | some params =>
            if checkSequenceRepetition request.outputTokenIds params then
              .ok (some (.finishedRepetition, some repetitionDetected))
            else .ok none
  | _, _ => .error .assertionFailed

/-- Decide whether the request stops now, and record how. -/
def checkStop (maxModelLen : Nat) (request : Request) : Except EngineError (Bool × Request) := do
  match ← stopStatus maxModelLen request with
  | none => return (false, request)
  | some (status, reason) =>
    return (true, { request with
      status := status
      stopReason := reason.or request.stopReason })

variable {maxModelLen : Nat} {request : Request}

theorem isFinished_of_stopStatus
    (stops : stopStatus maxModelLen request = .ok (some (status, reason))) :
    status.isFinished = true := by
  unfold stopStatus at stops
  split at stops
  · split at stops
    · cases stops
    · split at stops
      · cases stops
      · split at stops
        · cases stops
          rfl
        · split at stops
          · cases stops
            rfl
          · split at stops
            · cases stops
              rfl
            · split at stops
              · cases stops
              · split at stops
                · cases stops
                  rfl
                · cases stops
  · cases stops

/-- A stop check changes at most the status and the stop reason, and the status
is finished exactly if the check says so. -/
theorem checkStop_eq_ok (check : checkStop maxModelLen request = .ok (stopped, checked)) :
    (stopped = false ∧ checked = request) ∨ (stopped = true ∧ ∃ status reason,
        status.isFinished = true ∧
          checked = { request with status := status, stopReason := reason }) := by
  obtain ⟨verdict, stops, check⟩ := bind_eq_ok.mp check
  cases verdict with
  | none =>
    cases check
    exact Or.inl ⟨rfl, rfl⟩
  | some verdict =>
    cases check
    exact Or.inr ⟨rfl, _, _, isFinished_of_stopStatus stops, rfl⟩

open KVCacheManager

variable {M E : Type} [KVCacheManager M] [EncoderCache E]

namespace Request

/-- A new request; a resumable one gets a queue for the inputs of its session. -/
def withSession (request : Request) : Request :=
  if request.resumable then { request with streamingQueue := some [] } else request

@[simp] theorem requestId_withSession (request : Request) :
    request.withSession.requestId = request.requestId := by
  unfold withSession
  split <;> rfl

@[simp] theorem status_withSession (request : Request) :
    request.withSession.status = request.status := by
  unfold withSession
  split <;> rfl

end Request

namespace Scheduler

variable (connectorDelays : RequestId → Bool) (scheduler : Scheduler M E)

/-- Free the blocks of a finished request and forget the request. -/
def freeBlocks (requestId : RequestId) : Except EngineError (Scheduler M E) := do
  ensure (scheduler.requestOf requestId).isFinished .assertionFailed
  let manager := free scheduler.kvCacheManager requestId
  if requestId ∈ scheduler.requests then
    return { scheduler with
      kvCacheManager := manager
      tokencakeScheduling := scheduler.tokencakeScheduling.map fun controller =>
        controller.release manager
      requests := scheduler.requests.erase requestId }
  else .error .keyError

/-- The cache manager after the connector was told of a finished request. -/
def connectorFinished (scheduler : Scheduler M E) (requestId : RequestId) : M :=
  if scheduler.config.hasConnector then
    removeSkippedBlocks scheduler.kvCacheManager requestId
      (scheduler.requestOf requestId).numComputedTokens
  else scheduler.kvCacheManager

/-- Release what a finished request holds.  The blocks stay if a load into them or
the connector delays their release. -/
def freeRequest (requestId : RequestId)
    (delayFreeBlocks : Bool) : Except EngineError (Scheduler M E) := do
  let request := scheduler.requestOf requestId
  ensure request.isFinished .assertionFailed
  let released :=
    { scheduler with
      tokencakeScheduling := scheduler.tokencakeScheduling.map fun controller =>
        controller.finish request
      kvCacheManager := scheduler.connectorFinished requestId
      encoderCacheManager := EncoderCache.free scheduler.encoderCacheManager request
      finishedReqIds := scheduler.finishedReqIds.insert requestId }
  if delayFreeBlocks || (scheduler.config.hasConnector && connectorDelays requestId) then
    return released
  else released.freeBlocks requestId

/-- Remove listed items; the fast path for one item removes one occurrence. -/
def removeAll (items : List RequestId) (itemsToRemove : List RequestId) : List RequestId :=
  match itemsToRemove with
  | [] => items
  | [item] => items.erase item
  | _ => items.filter fun item => !decide (item ∈ itemsToRemove)

/-- Set the final status of a request and release what it holds. -/
def finishRequest (finishedStatus : RequestStatus) (scheduler : Scheduler M E)
    (requestId : RequestId) : Except EngineError (Scheduler M E) :=
  let loading := decide ((scheduler.requestOf requestId).status = .waitingForRemoteKvs)
  let discarded :=
    if loading then
      { scheduler with
        finishedRecvingKvReqIds := scheduler.finishedRecvingKvReqIds.erase requestId
        failedRecvingKvReqIds := scheduler.failedRecvingKvReqIds.erase requestId }
    else scheduler
  (discarded.modifyRequest requestId fun request =>
      { request with status := finishedStatus }).freeRequest connectorDelays requestId
    (loading && !decide (requestId ∈ scheduler.finishedRecvingKvReqIds))

/-- Whether a request is known and not finished. -/
def isUnfinished (scheduler : Scheduler M E) (requestId : RequestId) : Bool :=
  decide (requestId ∈ scheduler.requests) && !(scheduler.requestOf requestId).isFinished

/-- Whether a request has the status of a running one. -/
def hasRunningStatus (scheduler : Scheduler M E) (requestId : RequestId) : Bool :=
  decide ((scheduler.requestOf requestId).status = .running)

/-- Take requests out of the queues their statuses stand for. -/
def removeFromQueues (valid : List RequestId) : Scheduler M E :=
  let runningToRemove := valid.filter scheduler.hasRunningStatus
  let waitingToRemove := valid.filter fun id => !scheduler.hasRunningStatus id
  let policy := scheduler.config.policy
  { scheduler with
    running := removeAll scheduler.running runningToRemove
    waiting :=
      if waitingToRemove.isEmpty then scheduler.waiting
      else RequestQueue.removeRequests policy scheduler.lt scheduler.waiting waitingToRemove
    skippedWaiting :=
      if waitingToRemove.isEmpty then scheduler.skippedWaiting
      else
        RequestQueue.removeRequests policy scheduler.lt scheduler.skippedWaiting waitingToRemove }

/-- Finish unfinished requests from outside. -/
def finishRequests (requestIds : List RequestId)
    (finishedStatus : RequestStatus) : Except EngineError (Scheduler M E) := do
  ensure finishedStatus.isFinished .assertionFailed
  let valid := requestIds.dedup.filter scheduler.isUnfinished
  valid.foldlM (finishRequest connectorDelays finishedStatus) (scheduler.removeFromQueues valid)

/-- Put a request into the queue its status stands for. -/
def enqueueWaitingRequest (requestId : RequestId) : Scheduler M E :=
  let name : QueueName :=
    if isBlockedWaitingStatus (scheduler.requestOf requestId).status then .skippedWaiting
    else .waiting
  scheduler.setQueue name
    (RequestQueue.addRequest scheduler.config.policy scheduler.lt (scheduler.queue name) requestId)

/-- Continue a streaming session with its next input. -/
def updateRequestAsSession (requestId : RequestId)
    (update : StreamingUpdate) : Except EngineError (Scheduler M E) := do
  let session ←
    (scheduler.requestOf requestId).updateAsSession scheduler.config.blockHasher update
  return scheduler.storeRequest session

/-- Register the annotation of a request with the capacity policy. -/
def associate (scheduler : Scheduler M E) (request : Request) : Scheduler M E :=
  { scheduler with
    tokencakeScheduling := scheduler.tokencakeScheduling.map fun controller =>
      match request.metadata with
      | none => controller
      | some metadata => controller.associate request.requestId metadata }

/-- Continue or end the session of a known request. -/
def addToSession (request : Request) : Except EngineError (Scheduler M E) :=
  let existing := scheduler.requestOf request.requestId
  let update := StreamingUpdate.fromRequest request
  if existing.status ≠ .waitingForStreamingReq then
    match existing.streamingQueue with
    | none => .error .duplicateRequestId
    | some queue =>
      .ok (scheduler.modifyRequest request.requestId fun existing =>
        { existing with streamingQueue := some (queue ++ [update]) })
  else
    match update with
    | some update => scheduler.updateRequestAsSession request.requestId update
    | none => scheduler.finishRequests connectorDelays [request.requestId] .finishedAborted

/-- Take in a new request. -/
def enter (scheduler : Scheduler M E) (request : Request) : Scheduler M E :=
  let stored := scheduler.storeRequest request.withSession
  { stored.enqueueWaitingRequest request.requestId with
    requests := scheduler.requests ++ [request.requestId] }

/-- Add a request, or the next input of its session. -/
def addRequest (request : Request) : Except EngineError (Scheduler M E) :=
  let associated := scheduler.associate request
  if request.requestId ∈ scheduler.requests then
    associated.addToSession connectorDelays request
  else .ok (associated.enter request)

end Scheduler

/-- What the workers report about KV transfers. -/
structure KVConnectorOutput where
  finishedRecving : List RequestId := []
  finishedSending : List RequestId := []
  invalidBlockIds : List BlockId := []

/-- The answer to a scheduled step, with the verdicts of the grammar backend and
of the connector on it. -/
structure ModelRunnerOutput where
  sampledTokenIds : RequestId → List TokenId
  /-- Whether a request has a pooling result. -/
  poolerOutput : RequestId → Bool := fun _ => false
  /-- Whether the grammar of a request rejects its new tokens. -/
  grammarRejects : RequestId → Bool := fun _ => false
  kvConnectorOutput : Option KVConnectorOutput := none
  /-- Whether the connector keeps the blocks of a request that finishes now. -/
  connectorDelays : RequestId → Bool := fun _ => false

namespace Request

/-- Append generated tokens until the request stops; later tokens are dropped. -/
def appendUntilStop (hasher : Option BlockHasher) (maxModelLen : Nat) :
    List TokenId → Request → Except EngineError (List TokenId × Bool × Request)
  | [], request => .ok ([], false, request)
  | tokenId :: rest, request => do
      let (stopped, checked) ←
        checkStop maxModelLen (request.appendOutputTokenIds hasher [tokenId])
      if stopped then return ([tokenId], true, checked)
      else
        let (tokenIds, stopped, request) ← checked.appendUntilStop hasher maxModelLen rest
        return (tokenId :: tokenIds, stopped, request)

/-- Take back the progress on draft tokens that were rejected. -/
def rejectDrafts (scheduledSpecTokenIds generatedTokenIds : List TokenId)
    (request : Request) : Request :=
  if scheduledSpecTokenIds.isEmpty || generatedTokenIds.isEmpty then request
  else
    let numRejected : Int :=
      scheduledSpecTokenIds.length - ((generatedTokenIds.length : Int) - 1)
    { request with
      numComputedTokens :=
        if request.numComputedTokens > 0 then request.numComputedTokens - numRejected
        else request.numComputedTokens
      numOutputPlaceholders :=
        if request.numOutputPlaceholders > 0 then request.numOutputPlaceholders - numRejected
        else request.numOutputPlaceholders }

theorem requestId_rejectDrafts
    (scheduledSpecTokenIds generatedTokenIds : List TokenId) (request : Request) :
    (request.rejectDrafts scheduledSpecTokenIds generatedTokenIds).requestId =
      request.requestId := by
  unfold rejectDrafts
  split <;> rfl

end Request

/-- A scan of the blocks of one request for invalid ones. -/
structure InvalidBlockScan where
  isAffected : Bool := false
  markedInvalidBlock : Bool := false
  /-- Blocks some request computes again already. -/
  markedInvalidBlockIds : List BlockId
  numComputedTokens : Int
  blocksToEvict : List BlockId

namespace InvalidBlockScan

/-- Visit one block.  The first invalid block that nobody computes again cuts the
computed tokens. -/
def visit (blockSize : Nat) (invalidBlockIds blockIds : List BlockId) (evictBlocks : Bool)
    (scan : InvalidBlockScan) (entry : BlockId × Nat) : InvalidBlockScan :=
  if entry.1 ∉ invalidBlockIds then scan
  else if entry.1 ∈ scan.markedInvalidBlockIds then { scan with isAffected := true }
  else
    let marked :=
      { scan with
        isAffected := true
        markedInvalidBlockIds := scan.markedInvalidBlockIds ++ [entry.1] }
    if scan.markedInvalidBlock then marked
    else
      { marked with
        markedInvalidBlock := true
        numComputedTokens := entry.2 * blockSize
        blocksToEvict :=
          if evictBlocks then scan.blocksToEvict ++ blockIds.drop entry.2
          else scan.blocksToEvict }

end InvalidBlockScan

/-- The state of the search for requests with blocks whose load failed. -/
structure InvalidBlockReport (M E : Type) where
  scheduler : Scheduler M E
  affectedReqIds : List RequestId := []
  markedInvalidBlockIds : List BlockId := []
  blocksToEvict : List BlockId := []

/-- State of the loop over the scheduled requests of an answered step. -/
structure OutputUpdate (M E : Type) where
  scheduler : Scheduler M E
  stoppedRunningReqs : List RequestId := []
  stoppedPreemptedReqs : List RequestId := []

namespace Scheduler

section InvalidBlocks

/-- Cut a request back to its valid prefix. -/
def updateRequestWithInvalidBlocks (invalidBlockIds : List BlockId)
    (numScheduledTokens : Dict RequestId Int) (evictBlocks : Bool) (report : InvalidBlockReport M E)
    (requestId : RequestId) : Except EngineError (InvalidBlockReport M E) :=
  let scheduler := report.scheduler
  let request := scheduler.requestOf requestId
  match getBlocks scheduler.kvCacheManager requestId with
  | [blockIds] =>
    let blockSize := scheduler.config.blockSize
    let reqNumComputedTokens :=
      request.numComputedTokens - numScheduledTokens.getD requestId 0
    let numBlocks := ((reqNumComputedTokens + blockSize - 1) / blockSize).toNat
    let scan :=
      (blockIds.take numBlocks).zipIdx.foldl
        (InvalidBlockScan.visit blockSize invalidBlockIds blockIds evictBlocks)
        { markedInvalidBlockIds := report.markedInvalidBlockIds
          numComputedTokens := request.numComputedTokens
          blocksToEvict := report.blocksToEvict }
    let numComputedTokens :=
      if scan.isAffected && !scan.markedInvalidBlock then reqNumComputedTokens
      else scan.numComputedTokens
    .ok
      { scheduler := scheduler.modifyRequest requestId fun request =>
          { request with numComputedTokens := numComputedTokens }
        affectedReqIds :=
          if scan.isAffected then report.affectedReqIds.insert requestId
          else report.affectedReqIds
        markedInvalidBlockIds := scan.markedInvalidBlockIds
        blocksToEvict := scan.blocksToEvict }
  | _ => .error .valueError

/-- Cut the affected ones of some requests back to their valid prefixes. -/
def updateRequestsWithInvalidBlocks (scheduler : Scheduler M E) (requests : List RequestId)
    (invalidBlockIds : List BlockId) (numScheduledTokens : Dict RequestId Int)
    (evictBlocks : Bool) : Except EngineError (InvalidBlockReport M E) :=
  requests.foldlM (updateRequestWithInvalidBlocks invalidBlockIds numScheduledTokens evictBlocks)
    { scheduler := scheduler }

/-- Handle requests with invalid blocks; the answer lists the requests whose output
is skipped. -/
def handleInvalidBlocks (scheduler : Scheduler M E) (invalidBlockIds : List BlockId)
    (numScheduledTokens : Dict RequestId Int) :
    Except EngineError (List RequestId × Scheduler M E) := do
  let queued :=
    RequestQueue.iterate scheduler.config.policy scheduler.lt scheduler.skippedWaiting
  let asyncLoadReqs := queued.filter fun id =>
    decide ((scheduler.requestOf id).status = .waitingForRemoteKvs)
  let asyncReport ←
    scheduler.updateRequestsWithInvalidBlocks asyncLoadReqs invalidBlockIds numScheduledTokens false
  let syncReport ←
    asyncReport.scheduler.updateRequestsWithInvalidBlocks asyncReport.scheduler.running
      invalidBlockIds numScheduledTokens true
  let updated := syncReport.scheduler
  if asyncReport.affectedReqIds.isEmpty && syncReport.affectedReqIds.isEmpty then
    return ([], updated)
  else if scheduler.config.recomputeKvLoadFailures then
    return (syncReport.affectedReqIds,
      { updated with
        failedRecvingKvReqIds :=
          updated.failedRecvingKvReqIds.union asyncReport.affectedReqIds })
  else
    let evicted :=
      if syncReport.blocksToEvict.isEmpty then updated
      else
        { updated with
          kvCacheManager := evictBlocks updated.kvCacheManager syncReport.blocksToEvict }
    return (asyncReport.affectedReqIds.union syncReport.affectedReqIds, evicted)

end InvalidBlocks

section Requests

/-- Drop the references to encoder inputs that are fully processed. -/
def freeEncoderInputs (scheduler : Scheduler M E) (requestId : RequestId) : Scheduler M E :=
  let request := scheduler.requestOf requestId
  let processed := fun inputId : Nat =>
    match request.mmFeatures[inputId]? with
    | none => false
    | some feature =>
      (scheduler.config.isEncoderDecoder && decide (request.numComputedTokens > 0))
        || decide (((feature.mmPosition.offset + feature.mmPosition.length : Nat) : Int) ≤
          request.numComputedTokens)
  { scheduler with
    encoderCacheManager :=
      ((EncoderCache.getCachedInputIds scheduler.encoderCacheManager request).filter
        processed).foldl
        (fun cache inputId => EncoderCache.freeEncoderInput cache request inputId)
        scheduler.encoderCacheManager }

/-- The scheduler after rejected drafts were taken back and processed encoder inputs
were released. -/
def processed (answer : ModelRunnerOutput) (output : SchedulerOutput) (scheduler : Scheduler M E)
    (requestId : RequestId) : Scheduler M E :=
  let rejected :=
    scheduler.modifyRequest requestId
      (Request.rejectDrafts (output.scheduledSpecDecodeTokens.getD requestId [])
        (answer.sampledTokenIds requestId))
      (Request.requestId_rejectDrafts _ _)
  if (rejected.requestOf requestId).hasEncoderInputs then rejected.freeEncoderInputs requestId
  else rejected

variable (answer : ModelRunnerOutput) (scheduler : Scheduler M E) (requestId : RequestId)

/-- Account for output that was expected.  The blocks of a running request are
cached up to its last known token. -/
def settlePlaceholders (wasRunning : Bool)
    (numNewTokens : Nat) : Except EngineError (Scheduler M E) := do
  let settled := scheduler.modifyRequest requestId fun request =>
    { request with numOutputPlaceholders := request.numOutputPlaceholders - numNewTokens }
  let request := settled.requestOf requestId
  ensure (decide (request.numOutputPlaceholders ≥ 0)) .assertionFailed
  if wasRunning then
    let manager ←
      liftResource (cacheBlocks settled.kvCacheManager request
          (request.numComputedTokens - request.numOutputPlaceholders))
    return { settled with kvCacheManager := manager }
  else return settled

/-- Append the tokens of a request and check for a stop.  The asynchronous
scheduler drops frames that were in flight when the request was preempted by
force. -/
def updateRequestWithOutput (newTokenIds : List TokenId) :
    Except EngineError (List TokenId × Bool × Scheduler M E) := do
  let config := scheduler.config
  let request := scheduler.requestOf requestId
  if config.asyncScheduling && decide (request.asyncTokensToDiscard > 0) then
    return ([], false, scheduler.modifyRequest requestId fun request =>
      { request with asyncTokensToDiscard := request.asyncTokensToDiscard - 1 })
  else
    let (newTokenIds, stopped, updated) ←
      request.appendUntilStop config.blockHasher config.maxModelLen newTokenIds
    let stored := scheduler.storeRequest updated
    if config.asyncScheduling then
      let settled ←
        stored.settlePlaceholders requestId (decide (request.status = .running)) newTokenIds.length
      return (newTokenIds, stopped, settled)
    else return (newTokenIds, stopped, stored)

/-- Take the output of a request; a pooling request stops with its result. -/
def takeOutput (requestId : RequestId) : Except EngineError (List TokenId × Bool × Scheduler M E) :=
  let generated := answer.sampledTokenIds requestId
  if !generated.isEmpty then scheduler.updateRequestWithOutput requestId generated
  else if (scheduler.requestOf requestId).poolingParams.isSome && answer.poolerOutput requestId
  then
    .ok ([], true, scheduler.modifyRequest requestId fun request =>
      { request with status := .finishedStopped })
  else .ok ([], false, scheduler)

/-- The scheduler after the grammar of a request rejected its new tokens. -/
def grammarRejected (scheduler : Scheduler M E) (requestId : RequestId) : Scheduler M E :=
  scheduler.modifyRequest requestId fun request =>
    { request with status := .finishedError, resumable := false }

/-- Let the grammar of a request judge its new tokens. -/
def judgeGrammar (newTokenIds : List TokenId) (stopped : Bool) : Bool × Scheduler M E :=
  if !newTokenIds.isEmpty && answer.grammarRejects requestId then
    (true, scheduler.grammarRejected requestId)
  else (stopped, scheduler)

/-- Decide whether a stopped request is finished; a session waits for its next
input or continues with it. -/
def handleStoppedRequest (requestId : RequestId) : Except EngineError (Bool × Scheduler M E) :=
  let request := scheduler.requestOf requestId
  if !request.resumable then .ok (true, scheduler)
  else
    match request.streamingQueue.getD [] with
    | [] =>
      let waiting := scheduler.modifyRequest requestId fun request =>
        { request with status := .waitingForStreamingReq }
      .ok (false, waiting.enqueueWaitingRequest requestId)
    | update :: rest =>
      let popped := scheduler.modifyRequest requestId fun request =>
        { request with streamingQueue := some rest }
      match update with
      | none => .ok (true, popped)
      | some update => do
          let session ← popped.updateRequestAsSession requestId update
          return (false, session.enqueueWaitingRequest requestId)

/-- Handle a stopped request and free it unless its session goes on. -/
def releaseStopped (requestId : RequestId) : Except EngineError (Scheduler M E) := do
  let (finished, handled) ← scheduler.handleStoppedRequest requestId
  if finished then handled.freeRequest answer.connectorDelays requestId false
  else return handled

/-- Take the prefill statistics of a request that has an output. -/
def takePrefillStats (scheduler : Scheduler M E) (requestId : RequestId) : Scheduler M E :=
  scheduler.modifyRequest requestId fun request => { request with prefillStats := false }

end Requests

end Scheduler

namespace OutputUpdate

open Scheduler

/-- Record a stopped request by the status it had before. -/
def recordStopped (update : OutputUpdate M E) (scheduler : Scheduler M E) (requestId : RequestId)
    (wasRunning : Bool) : OutputUpdate M E :=
  if wasRunning then
    { update with
      scheduler := scheduler
      stoppedRunningReqs := update.stoppedRunningReqs ++ [requestId] }
  else
    { update with
      scheduler := scheduler
      stoppedPreemptedReqs := update.stoppedPreemptedReqs ++ [requestId] }

/-- Take the output of an unfinished request. -/
def apply (answer : ModelRunnerOutput) (output : SchedulerOutput) (update : OutputUpdate M E)
    (requestId : RequestId) : Except EngineError (OutputUpdate M E) := do
  let before := update.scheduler
  let (newTokenIds, stopped, taken) ←
    (before.processed answer output requestId).takeOutput answer requestId
  let (stopped, judged) := taken.judgeGrammar answer requestId newTokenIds stopped
  if stopped then
    let released ← judged.releaseStopped answer requestId
    return update.recordStopped (released.takePrefillStats requestId) requestId
      (before.hasRunningStatus requestId)
  else if !newTokenIds.isEmpty || answer.poolerOutput requestId then
    return { update with scheduler := judged.takePrefillStats requestId }
  else return { update with scheduler := judged }

/-- Handle one scheduled request.  Requests that are finished or whose load failed
are skipped. -/
def visit (answer : ModelRunnerOutput) (output : SchedulerOutput)
    (failedKvLoadReqIds : List RequestId) (update : OutputUpdate M E)
    (entry : RequestId × Int) : Except EngineError (OutputUpdate M E) := do
  ensure (decide (entry.2 > 0)) .assertionFailed
  if decide (entry.1 ∈ failedKvLoadReqIds) || !update.scheduler.isUnfinished entry.1 then
    return update
  else update.apply answer output entry.1

/-- Take the stopped requests out of the queues. -/
def removeStopped (update : OutputUpdate M E) : Scheduler M E :=
  let scheduler := update.scheduler
  { scheduler with
    running := removeAll scheduler.running update.stoppedRunningReqs
    waiting :=
      if update.stoppedPreemptedReqs.isEmpty then scheduler.waiting
      else
        RequestQueue.removeRequests scheduler.config.policy scheduler.lt scheduler.waiting
          update.stoppedPreemptedReqs }

end OutputUpdate

namespace Scheduler

variable (scheduler : Scheduler M E) (answer : ModelRunnerOutput)

/-- Note that the load of a request ended, or free the blocks of a request that was
finished during its load. -/
def recordRecved (requestId : RequestId) : Except EngineError (Scheduler M E) := do
  ensure (decide (requestId ∈ scheduler.requests)) .assertionFailed
  if (scheduler.requestOf requestId).status = .waitingForRemoteKvs then
    return { scheduler with
      finishedRecvingKvReqIds := scheduler.finishedRecvingKvReqIds.insert requestId }
  else scheduler.freeBlocks requestId

/-- Free the blocks of a request whose transfer to another engine ended. -/
def recordSent (requestId : RequestId) : Except EngineError (Scheduler M E) := do
  ensure (decide (requestId ∈ scheduler.requests)) .assertionFailed
  scheduler.freeBlocks requestId

/-- Record the transfers that ended. -/
def updateFromKvXferFinished (report : KVConnectorOutput) : Except EngineError (Scheduler M E) := do
  let received ← report.finishedRecving.foldlM recordRecved scheduler
  report.finishedSending.foldlM recordSent received

/-- Handle the loads that failed, if the answer reports any. -/
def handleFailedLoads
    (output : SchedulerOutput) : Except EngineError (List RequestId × Scheduler M E) :=
  match answer.kvConnectorOutput with
  | none => .ok ([], scheduler)
  | some report =>
    if report.invalidBlockIds.isEmpty then .ok ([], scheduler)
    else scheduler.handleInvalidBlocks report.invalidBlockIds output.numScheduledTokens

/-- End the requests whose loads failed, unless they are computed again. -/
def endFailedLoads (failedKvLoadReqIds : List RequestId) : Except EngineError (Scheduler M E) :=
  if failedKvLoadReqIds.isEmpty || scheduler.config.recomputeKvLoadFailures then .ok scheduler
  else if failedKvLoadReqIds.all fun id => decide (id ∈ scheduler.requests) then
    scheduler.finishRequests answer.connectorDelays failedKvLoadReqIds .finishedError
  else .error .keyError

/-- Update the requests from the answer to a scheduled step. -/
def updateFromOutput (scheduler : Scheduler M E)
    (output : SchedulerOutput) : Except EngineError (Scheduler M E) := do
  let (failedKvLoadReqIds, handled) ← scheduler.handleFailedLoads answer output
  let update ←
    output.numScheduledTokens.entries.foldlM
      (OutputUpdate.visit answer output failedKvLoadReqIds) { scheduler := handled }
  let ended ← update.removeStopped.endFailedLoads answer failedKvLoadReqIds
  match answer.kvConnectorOutput with
  | none => return ended
  | some report => ended.updateFromKvXferFinished report

/-- Give a request the draft tokens of the next step.  Prefill chunks have none. -/
def updateDraftTokenIds (entry : RequestId × List TokenId) : Scheduler M E :=
  if scheduler.isUnfinished entry.1 then
    scheduler.modifyRequest entry.1 fun request =>
      { request with
        specTokenIds := if request.isPrefillChunk then [] else entry.2 }
  else scheduler

end Scheduler

end TokenCake
