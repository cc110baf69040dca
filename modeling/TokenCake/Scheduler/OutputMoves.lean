import TokenCake.Scheduler.Output

/-!
# What an answer can do to a request

The effects of the functions behind `update_from_output`, each described once by the
state it leads to, and what all of them leave alone.
-/

namespace TokenCake

open List KVCacheManager

variable {M E : Type} [KVCacheManager M] [EncoderCache E] {updated : Request}

namespace Request

/-- The request with other counters of its progress. -/
def withProgress (numComputedTokens numOutputPlaceholders : Int) (request : Request) : Request :=
  { request with
    numComputedTokens := numComputedTokens
    numOutputPlaceholders := numOutputPlaceholders }

theorem rejectDrafts_eq
    (scheduledSpecTokenIds generatedTokenIds : List TokenId) (request : Request) :
    ∃ numComputed numPlaceholders, request.rejectDrafts scheduledSpecTokenIds generatedTokenIds =
        request.withProgress numComputed numPlaceholders := by
  unfold rejectDrafts
  split
  · exact ⟨request.numComputedTokens, request.numOutputPlaceholders, rfl⟩
  · exact ⟨_, _, rfl⟩

variable (hasher : Option BlockHasher) (maxModelLen : Nat) (numComputed : Int)
  (numPlaceholders : Int) (tokenIds : List TokenId) (request : Request)

theorem checkStop_withProgress :
    checkStop maxModelLen (request.withProgress numComputed numPlaceholders) =
      (checkStop maxModelLen request).map fun answer =>
        (answer.1, answer.2.withProgress numComputed numPlaceholders) := by
  have same : stopStatus maxModelLen
      (request.withProgress numComputed numPlaceholders) = stopStatus maxModelLen request := rfl
  unfold checkStop
  rw [same]
  cases stopStatus maxModelLen request with
  | error failure => rfl
  | ok verdict => cases verdict <;> rfl

theorem hashBlocksFrom_withProgress (hasher : BlockHasher) (numComputed numPlaceholders : Int)
    (request : Request) (fuel start : Nat) (currMmIdx : Int) (prevBlockHashValue : Option Bytes) :
    hashBlocksFrom hasher (request.withProgress numComputed numPlaceholders) fuel
        start currMmIdx prevBlockHashValue =
      hashBlocksFrom hasher request fuel start currMmIdx prevBlockHashValue := by
  induction fuel generalizing start currMmIdx prevBlockHashValue with
  | zero => rfl
  | succ fuel ih =>
    unfold hashBlocksFrom
    simp only [ih]
    rfl

theorem appendOutputTokenIds_withProgress (numComputed numPlaceholders : Int) (request : Request) :
    (request.withProgress numComputed numPlaceholders).appendOutputTokenIds hasher tokenIds =
      (request.appendOutputTokenIds hasher tokenIds).withProgress numComputed numPlaceholders := by
  cases hasher with
  | none => rfl
  | some hasher =>
    have same : ∀ request : Request, requestBlockHasher hasher
            (request.withProgress numComputed numPlaceholders) =
          requestBlockHasher hasher request := by
      intro request
      unfold requestBlockHasher
      simp only [hashBlocksFrom_withProgress]
      rfl
    have extended := same
      { request with
        outputTokenIds := request.outputTokenIds ++ tokenIds
        allTokenIds := request.allTokenIds ++ tokenIds }
    unfold appendOutputTokenIds updateBlockHashes
    dsimp only [withProgress] at extended ⊢
    rw [extended]

/-- Appending tokens until a stop does not depend on the progress. -/
theorem appendUntilStop_withProgress :
    (request.withProgress numComputed numPlaceholders).appendUntilStop hasher maxModelLen tokenIds =
      (request.appendUntilStop hasher maxModelLen tokenIds).map fun answer =>
        (answer.1, answer.2.1, answer.2.2.withProgress numComputed numPlaceholders) := by
  induction tokenIds generalizing request with
  | nil => rfl
  | cons tokenId rest ih =>
    unfold appendUntilStop
    rw [appendOutputTokenIds_withProgress, checkStop_withProgress]
    cases check : checkStop maxModelLen (request.appendOutputTokenIds hasher [tokenId]) with
    | error failure => rfl
    | ok answer =>
      obtain ⟨stopped, checked⟩ := answer
      cases stopped with
      | true => rfl
      | false =>
        simp only [Except.map, bind, Except.bind, Bool.false_eq_true, if_false, ih checked]
        cases checked.appendUntilStop hasher maxModelLen rest <;> rfl

/-- Appended tokens are a prefix of the given ones; the status changes exactly if the
request stops. -/
theorem appendUntilStop_eq_ok
    {hasher : Option BlockHasher} {maxModelLen : Nat} {generated tokenIds : List TokenId}
    {stopped : Bool} {request : Request}
    (appended : request.appendUntilStop hasher maxModelLen generated =
      .ok (tokenIds, stopped, updated)) :
    tokenIds <+: generated ∧ (generated ≠ [] → tokenIds ≠ []) ∧
      ∃ blockHashes status stopReason, updated = { request with
            outputTokenIds := request.outputTokenIds ++ tokenIds
            allTokenIds := request.allTokenIds ++ tokenIds
            blockHashes := blockHashes
            status := status
            stopReason := stopReason } ∧
        (stopped = false ∧ status = request.status ∨
          stopped = true ∧ status.isFinished = true) := by
  induction generated generalizing request tokenIds with
  | nil =>
    cases appended
    refine ⟨prefix_rfl, fun given => absurd rfl given, updated.blockHashes,
      updated.status, updated.stopReason, ?_, .inl ⟨rfl, rfl⟩⟩
    rw [append_nil, append_nil]
  | cons tokenId rest ih =>
    obtain ⟨⟨stops, checked⟩, check, appended⟩ := bind_eq_ok.mp appended
    obtain ⟨hashes, extended⟩ :
        ∃ hashes, request.appendOutputTokenIds hasher [tokenId] = { request with
            outputTokenIds := request.outputTokenIds ++ [tokenId]
            allTokenIds := request.allTokenIds ++ [tokenId]
            blockHashes := hashes } := by
      cases hasher with
      | none | some hasher => exact ⟨_, rfl⟩
    rw [extended] at check
    rcases checkStop_eq_ok check with ⟨rfl, rfl⟩ | ⟨rfl, status, reason, finished, rfl⟩
    · obtain ⟨⟨later, laterStopped, final⟩, continued, appended⟩ := bind_eq_ok.mp appended
      cases appended
      obtain ⟨isPrefix, _, blockHashes, status, reason, rfl, outcome⟩ :=
        ih continued
      refine ⟨cons_prefix_cons.mpr ⟨rfl, isPrefix⟩, fun _ => cons_ne_nil _ _,
        blockHashes, status, reason, ?_, outcome⟩
      simp only [append_assoc, singleton_append]
    · cases appended
      exact ⟨cons_prefix_cons.mpr ⟨rfl, nil_prefix⟩, fun _ => cons_ne_nil _ _,
        hashes, status, reason, rfl, .inr ⟨rfl, finished⟩⟩

/-- Whether a request stops by an answer. -/
def stopsBy (config : SchedulerConfig) (answer : ModelRunnerOutput) (request : Request) : Bool :=
  let generated := answer.sampledTokenIds request.requestId
  if generated.isEmpty then
    request.poolingParams.isSome && answer.poolerOutput request.requestId
  else if config.asyncScheduling && decide (request.asyncTokensToDiscard > 0) then false
  else
    match request.appendUntilStop config.blockHasher config.maxModelLen generated with
    | .error _ => false
    | .ok (_, stopped, _) => stopped || answer.grammarRejects request.requestId

theorem stopsBy_withProgress (config : SchedulerConfig) (answer : ModelRunnerOutput)
    (numComputed numPlaceholders : Int) (request : Request) :
    (request.withProgress numComputed numPlaceholders).stopsBy config answer =
      request.stopsBy config answer := by
  unfold stopsBy
  dsimp only
  rw [appendUntilStop_withProgress]
  dsimp only [withProgress]
  cases request.appendUntilStop config.blockHasher config.maxModelLen
    (answer.sampledTokenIds request.requestId) <;> rfl

end Request

namespace Scheduler

/-- What taking the output of a request can do.  The list holds the appended tokens
and the flag tells whether the request stops. -/
inductive TakesOutput (answer : ModelRunnerOutput) (scheduler : Scheduler M E)
    (requestId : RequestId) : List TokenId → Bool → Scheduler M E → Prop where
  | discard (given : answer.sampledTokenIds requestId ≠ []) :
      TakesOutput answer scheduler requestId [] false
        (scheduler.modifyRequest requestId fun request =>
          { request with asyncTokensToDiscard := request.asyncTokensToDiscard - 1 })
  | append (given : answer.sampledTokenIds requestId ≠ []) (tokenIds : List TokenId)
      (stopped : Bool) (updated : Request)
      (appended : (scheduler.requestOf requestId).appendUntilStop scheduler.config.blockHasher
        scheduler.config.maxModelLen (answer.sampledTokenIds requestId) =
          .ok (tokenIds, stopped, updated))
      (kept : scheduler.config.asyncScheduling = true →
        (scheduler.requestOf requestId).asyncTokensToDiscard = 0)
      (synchronous : scheduler.config.asyncScheduling = false) :
      TakesOutput answer scheduler requestId tokenIds stopped (scheduler.storeRequest updated)
  | appendExpected (given : answer.sampledTokenIds requestId ≠ []) (tokenIds : List TokenId)
      (stopped : Bool) (updated : Request)
      (appended : (scheduler.requestOf requestId).appendUntilStop scheduler.config.blockHasher
        scheduler.config.maxModelLen (answer.sampledTokenIds requestId) =
          .ok (tokenIds, stopped, updated))
      (kept : scheduler.config.asyncScheduling = true →
        (scheduler.requestOf requestId).asyncTokensToDiscard = 0)
      (asynchronous : scheduler.config.asyncScheduling = true)
      (numOutputPlaceholders : Int)
      (expected : numOutputPlaceholders = updated.numOutputPlaceholders - tokenIds.length)
      (manager : M)
      (cached :
        manager = scheduler.kvCacheManager ∨ cacheBlocks scheduler.kvCacheManager
            { updated with numOutputPlaceholders := numOutputPlaceholders }
            (updated.numComputedTokens - numOutputPlaceholders) = .ok manager) :
      TakesOutput answer scheduler requestId tokenIds stopped
        { scheduler.storeRequest
            { updated with numOutputPlaceholders := numOutputPlaceholders } with
          kvCacheManager := manager }
  | pool (nothing : answer.sampledTokenIds requestId = [])
      (pooled : ((scheduler.requestOf requestId).poolingParams.isSome &&
        answer.poolerOutput requestId) = true) :
      TakesOutput answer scheduler requestId [] true
        (scheduler.modifyRequest requestId fun request =>
          { request with status := .finishedStopped })
  | nothing : TakesOutput answer scheduler requestId [] false scheduler

variable {answer : ModelRunnerOutput} {scheduler next : Scheduler M E} {id : RequestId}
  {tokenIds : List TokenId} {stopped : Bool}

section

omit [KVCacheManager M] [EncoderCache E]

theorem requestId_of_appendUntilStop
    (appended : (scheduler.requestOf id).appendUntilStop hasher limit generated =
      .ok (tokenIds, stopped, updated)) : updated.requestId = id := by
  obtain ⟨_, _, _, _, _, rfl, _⟩ := Request.appendUntilStop_eq_ok appended
  exact scheduler.requestHeap.requestId_object id

/-- A session keeps its identifier in an update, and waits for its next turn. -/
theorem updateAsSession_eq_ok (scheduler : Scheduler M E) {session : Request}
    (updating : session.updateAsSession hasher update = .ok updated)
    (own : session.requestId = id) : updated.requestId = id ∧ updated.status = .waiting ∧
      (scheduler.storeRequest updated).requestOf id = updated := by
  have shape : updated.requestId = id ∧ updated.status = .waiting := by
    unfold Request.updateAsSession at updating
    split at updating
    · cases updating
    · cases updating
      cases hasher <;> exact ⟨own, rfl⟩
  exact ⟨shape.1, shape.2, if_pos shape.1.symm⟩

end

section

omit [EncoderCache E]

theorem settlePlaceholders_eq_ok {wasRunning : Bool} {numNewTokens : Nat}
    (settling : (scheduler.storeRequest updated).settlePlaceholders updated.requestId wasRunning
      numNewTokens = .ok next) :
    ∃ manager, (manager = scheduler.kvCacheManager ∨ cacheBlocks scheduler.kvCacheManager
          { updated with
            numOutputPlaceholders := updated.numOutputPlaceholders - numNewTokens }
          (updated.numComputedTokens - (updated.numOutputPlaceholders - numNewTokens)) =
            .ok manager) ∧
      next = { scheduler.storeRequest { updated with
              numOutputPlaceholders := updated.numOutputPlaceholders - numNewTokens } with
          kvCacheManager := manager } := by
  unfold settlePlaceholders at settling
  rw [modifyRequest_storeRequest] at settling
  obtain ⟨_, _, settling⟩ := bind_eq_ok.mp settling
  rw [requestOf_storeRequest, if_pos rfl] at settling
  split at settling
  · obtain ⟨manager, cached, settling⟩ := bind_eq_ok.mp settling
    rw [liftResource_eq_ok] at cached
    cases settling
    exact ⟨manager, .inr cached, rfl⟩
  · cases settling
    exact ⟨_, .inl rfl, rfl⟩

theorem takesOutput_of_updateRequestWithOutput (given : answer.sampledTokenIds id ≠ [])
    (updating : scheduler.updateRequestWithOutput id (answer.sampledTokenIds id) =
      .ok (tokenIds, stopped, next)) : TakesOutput answer scheduler id tokenIds stopped next := by
  unfold updateRequestWithOutput at updating
  dsimp only at updating
  split at updating
  · cases updating
    exact .discard given
  · next keep =>
    obtain ⟨⟨appendedIds, stops, updated⟩, appended, updating⟩ := bind_eq_ok.mp updating
    have kept : scheduler.config.asyncScheduling = true →
        (scheduler.requestOf id).asyncTokensToDiscard = 0 := by
      intro asynchronous
      rw [asynchronous] at keep
      simpa using keep
    have sameId := requestId_of_appendUntilStop appended
    split at updating
    · next asynchronous =>
      obtain ⟨settled, settling, updating⟩ := bind_eq_ok.mp updating
      cases updating
      subst sameId
      obtain ⟨manager, cached, rfl⟩ := settlePlaceholders_eq_ok settling
      exact .appendExpected given _ _ updated appended kept asynchronous _ rfl manager cached
    · next synchronous =>
      cases updating
      exact .append given _ _ updated appended kept (by simpa using synchronous)

theorem takesOutput_of_takeOutput
    (taking : scheduler.takeOutput answer id = .ok (tokenIds, stopped, next)) :
    TakesOutput answer scheduler id tokenIds stopped next := by
  unfold takeOutput at taking
  dsimp only at taking
  split at taking
  · next given => exact takesOutput_of_updateRequestWithOutput (by simpa using given) taking
  · next nothing =>
    split at taking
    · next pooled =>
      cases taking
      exact .pool (by simpa using nothing) pooled
    · cases taking
      exact .nothing

end

/-- What becomes of a stopped request.  The flag tells whether it is finished. -/
inductive HandlesStopped (scheduler : Scheduler M E)
    (requestId : RequestId) : Bool → Scheduler M E → Prop where
  | finish (single : (scheduler.requestOf requestId).resumable = false) :
      HandlesStopped scheduler requestId true scheduler
  | endSession (rest : List (Option StreamingUpdate))
      (queue : (scheduler.requestOf requestId).streamingQueue.getD [] = none :: rest) :
      HandlesStopped scheduler requestId true (scheduler.modifyRequest requestId fun request =>
          { request with streamingQueue := some rest })
  | awaitInput (resumable : (scheduler.requestOf requestId).resumable = true) :
      HandlesStopped scheduler requestId false ((scheduler.modifyRequest requestId fun request =>
          { request with status := .waitingForStreamingReq }).enqueueWaitingRequest requestId)
  | continueSession (resumable : (scheduler.requestOf requestId).resumable = true)
      (update : StreamingUpdate) (rest : List (Option StreamingUpdate)) (session : Request)
      (updated : Request.updateAsSession scheduler.config.blockHasher update
        { scheduler.requestOf requestId with streamingQueue := some rest } = .ok session)
      (queue : (scheduler.requestOf requestId).streamingQueue.getD [] = some update :: rest) :
      HandlesStopped scheduler requestId false
        ((scheduler.storeRequest session).enqueueWaitingRequest requestId)

variable {delays : RequestId → Bool} {delayFreeBlocks finished : Bool}
  {second first third : Scheduler M E}

omit [KVCacheManager M] [EncoderCache E] in
theorem handlesStopped_of_handleStoppedRequest
    (handling : scheduler.handleStoppedRequest id = .ok (finished, next)) :
    HandlesStopped scheduler id finished next := by
  unfold handleStoppedRequest at handling
  dsimp only at handling
  split at handling
  · next single =>
    cases handling
    exact .finish (by simpa using single)
  · next resumable =>
    have resumable : (scheduler.requestOf id).resumable = true := by
      simpa using resumable
    split at handling
    · cases handling
      exact .awaitInput resumable
    · next update rest queue =>
      split at handling
      · cases handling
        exact .endSession rest queue
      · next update =>
        obtain ⟨updated, updating, handling⟩ := bind_eq_ok.mp handling
        cases handling
        obtain ⟨session, asSession, updating⟩ := bind_eq_ok.mp updating
        cases updating
        rw [requestOf_modifyRequest_self] at asSession
        obtain ⟨sameId, _⟩ :=
          updateAsSession_eq_ok scheduler asSession (scheduler.requestHeap.requestId_object id)
        subst sameId
        rw [storeRequest_modifyRequest]
        exact .continueSession resumable update rest session asSession queue

/-- The scheduler after the blocks of a finished request were freed. -/
def blocksFreed (scheduler : Scheduler M E) (requestId : RequestId) : Scheduler M E :=
  { scheduler with
    kvCacheManager := free scheduler.kvCacheManager requestId
    tokencakeScheduling := scheduler.tokencakeScheduling.map fun controller =>
      controller.release (free scheduler.kvCacheManager requestId)
    requests := scheduler.requests.erase requestId }

section

omit [EncoderCache E]

theorem freeBlocks_eq_ok (freeing : scheduler.freeBlocks id = .ok next) :
    (scheduler.requestOf id).isFinished = true ∧ id ∈ scheduler.requests ∧
      next = scheduler.blocksFreed id := by
  obtain ⟨_, finished, freeing⟩ := bind_eq_ok.mp freeing
  rw [ensure_eq_ok] at finished
  split at freeing
  · next known =>
    cases freeing
    exact ⟨finished, known, rfl⟩
  · cases freeing

/-- What the freeing of blocks and the noting of received caches keep, the end of transfers
keeps. -/
theorem invariant_of_updateFromKvXferFinished {invariant : Scheduler M E → Prop}
    (freed : ∀ {scheduler next : Scheduler M E} {id : RequestId},
      invariant scheduler → scheduler.freeBlocks id = .ok next → invariant next)
    (noted : ∀ {scheduler : Scheduler M E} (ids : List RequestId),
      invariant scheduler → invariant { scheduler with finishedRecvingKvReqIds := ids })
    {report : KVConnectorOutput}
    (initial : invariant scheduler)
    (updated : scheduler.updateFromKvXferFinished report = .ok next) : invariant next := by
  obtain ⟨received, receiving, sending⟩ := bind_eq_ok.mp updated
  have between : invariant received := by
    refine invariant_of_foldlM (fun _ _ _ kept recorded => ?_) initial receiving
    obtain ⟨_, _, recorded⟩ := bind_eq_ok.mp recorded
    split at recorded
    · cases recorded
      exact noted _ kept
    · exact freed kept recorded
  refine invariant_of_foldlM (fun _ _ _ kept recorded => ?_) between sending
  obtain ⟨_, _, recorded⟩ := bind_eq_ok.mp recorded
  exact freed kept recorded

end

theorem endFailedLoads_eq_ok
    (ended : scheduler.endFailedLoads answer failedKvLoadReqIds = .ok next) :
    next = scheduler ∨
      scheduler.finishRequests answer.connectorDelays failedKvLoadReqIds .finishedError =
        .ok next := by
  unfold endFailedLoads at ended
  split at ended
  · cases ended
    exact .inl rfl
  · split at ended
    · exact .inr ended
    · cases ended

/-- The scheduler after everything but the blocks of a finished request was
released. -/
def released (scheduler : Scheduler M E) (requestId : RequestId) : Scheduler M E :=
  { scheduler with
    tokencakeScheduling := scheduler.tokencakeScheduling.map fun controller =>
      controller.finish (scheduler.requestOf requestId)
    kvCacheManager := scheduler.connectorFinished requestId
    encoderCacheManager :=
      EncoderCache.free scheduler.encoderCacheManager (scheduler.requestOf requestId)
    finishedReqIds := scheduler.finishedReqIds.insert requestId }

theorem freeRequest_eq_ok (freeing : scheduler.freeRequest delays id delayFreeBlocks = .ok next) :
    (scheduler.requestOf id).isFinished = true ∧ (next = scheduler.released id ∨
        id ∈ scheduler.requests ∧ next = (scheduler.released id).blocksFreed id) := by
  obtain ⟨_, finished, freeing⟩ := bind_eq_ok.mp freeing
  rw [ensure_eq_ok] at finished
  refine ⟨finished, ?_⟩
  split at freeing
  · cases freeing
    exact .inl rfl
  · obtain ⟨_, known, rfl⟩ := freeBlocks_eq_ok freeing
    exact .inr ⟨known, rfl⟩

theorem releaseStopped_eq_ok (releasing : scheduler.releaseStopped answer id = .ok next) :
    ∃ finished handled, HandlesStopped scheduler id finished handled ∧
      (finished = false ∧ next = handled ∨ finished = true ∧
          handled.freeRequest answer.connectorDelays id false = .ok next) := by
  obtain ⟨⟨finished, handled⟩, handling, releasing⟩ := bind_eq_ok.mp releasing
  refine ⟨finished, handled, handlesStopped_of_handleStoppedRequest handling, ?_⟩
  dsimp only at releasing
  split at releasing
  · next isFinished => exact .inr ⟨isFinished, releasing⟩
  · next isFinished =>
    cases releasing
    exact .inl ⟨by simpa using isFinished, rfl⟩

/-- What an answer can do to a request.  The flag tells whether the request stops. -/
inductive Answers (answer : ModelRunnerOutput) (output : SchedulerOutput)
    (scheduler : Scheduler M E) (requestId : RequestId) : Bool → Scheduler M E → Prop where
  | continues (tokenIds : List TokenId) (taken : Scheduler M E)
      (takes : TakesOutput answer (scheduler.processed answer output requestId) requestId
        tokenIds false taken)
      (next : Scheduler M E)
      (statistics : next = taken ∨ next = taken.takePrefillStats requestId) :
      Answers answer output scheduler requestId false next
  | stops (tokenIds : List TokenId) (stopped : Bool) (taken : Scheduler M E)
      (takes : TakesOutput answer (scheduler.processed answer output requestId) requestId
        tokenIds stopped taken)
      (judged : Scheduler M E)
      (verdict : stopped = true ∧ judged = taken ∨
        tokenIds ≠ [] ∧ answer.grammarRejects requestId = true ∧
          judged = taken.grammarRejected requestId)
      (finished : Bool)
      (handled : Scheduler M E)
      (handles : HandlesStopped judged requestId finished handled)
      (next : Scheduler M E)
      (frees : finished = false ∧ next = handled ∨ finished = true ∧
          handled.freeRequest answer.connectorDelays requestId false = .ok next) :
      Answers answer output scheduler requestId true (next.takePrefillStats requestId)

variable {output : SchedulerOutput}

/-- An applied answer, and how a stopped request is recorded. -/
theorem answers_of_apply {update updated : OutputUpdate M E}
    (applied : update.apply answer output id = .ok updated) :
    ∃ stops next, Answers answer output update.scheduler id stops next ∧ updated = if stops then
          update.recordStopped next id (update.scheduler.hasRunningStatus id)
        else { update with scheduler := next } := by
  unfold OutputUpdate.apply at applied
  obtain ⟨⟨tokenIds, stopped, taken⟩, taking, applied⟩ := bind_eq_ok.mp applied
  have takes : TakesOutput answer (update.scheduler.processed answer output id) id
      tokenIds stopped taken := takesOutput_of_takeOutput taking
  dsimp only at applied
  unfold judgeGrammar at applied
  split at applied
  · next rejects =>
    simp only [Bool.and_eq_true, Bool.not_eq_true', isEmpty_eq_false_iff] at rejects
    rw [if_pos rfl] at applied
    obtain ⟨released, releasing, applied⟩ := bind_eq_ok.mp applied
    cases applied
    obtain ⟨finished, handled, handles, frees⟩ := releaseStopped_eq_ok releasing
    exact ⟨true, _, .stops tokenIds stopped taken takes _
      (.inr ⟨rejects.1, rejects.2, rfl⟩) finished handled handles released frees, rfl⟩
  · split at applied
    · next stops =>
      obtain ⟨released, releasing, applied⟩ := bind_eq_ok.mp applied
      cases applied
      obtain ⟨finished, handled, handles, frees⟩ := releaseStopped_eq_ok releasing
      exact ⟨true, _, .stops tokenIds stopped taken takes _ (.inl ⟨stops, rfl⟩) finished
        handled handles released frees, rfl⟩
    · next stops =>
      have continues : stopped = false := by simpa using stops
      subst continues
      split at applied
      · cases applied
        exact ⟨false, _, .continues tokenIds taken takes _ (.inr rfl), rfl⟩
      · cases applied
        exact ⟨false, _, .continues tokenIds taken takes _ (.inl rfl), rfl⟩

/-- Nothing but one request changes among the requests, and the running list stays. -/
structure Touches (requestId : RequestId) (before after : Scheduler M E) : Prop where
  config : after.config = before.config
  running : after.running = before.running
  others : ∀ id, id ≠ requestId → after.requestOf id = before.requestOf id
  requests : ∀ id, id ≠ requestId → (id ∈ after.requests ↔ id ∈ before.requests)

section

omit [KVCacheManager M] [EncoderCache E]

theorem Touches.refl (id : RequestId) (scheduler : Scheduler M E) :
    Touches id scheduler scheduler :=
  ⟨rfl, rfl, fun _ _ => rfl, fun _ _ => Iff.rfl⟩

theorem Touches.trans (left : Touches requestId first second)
    (right : Touches requestId second third) : Touches requestId first third where
  config := right.config.trans left.config
  running := right.running.trans left.running
  others := fun id different => (right.others id different).trans (left.others id different)
  requests := fun id different =>
    (right.requests id different).trans (left.requests id different)

theorem touches_modifyRequest {change : Request → Request}
    {keeps : ∀ request, (change request).requestId = request.requestId}
    (scheduler : Scheduler M E) (id : RequestId) :
    Touches id scheduler (scheduler.modifyRequest id change keeps) :=
  ⟨rfl, rfl, fun _ => requestOf_modifyRequest_of_ne scheduler, fun _ _ => Iff.rfl⟩

theorem touches_storeRequest (scheduler : Scheduler M E) (request : Request)
    (sameId : request.requestId = id) : Touches id scheduler (scheduler.storeRequest request) := by
  subst sameId
  exact ⟨rfl, rfl, fun _ different => if_neg different, fun _ _ => Iff.rfl⟩

theorem touches_enqueueWaitingRequest (scheduler : Scheduler M E) (id : RequestId) :
    Touches id scheduler (scheduler.enqueueWaitingRequest id) :=
  ⟨rfl, rfl, fun _ _ => rfl, fun _ _ => Iff.rfl⟩

end

section

variable (answer output scheduler id)

section

omit [KVCacheManager M]

theorem processed_eq :
    ∃ encoder, scheduler.processed answer output id = { scheduler.modifyRequest id
          (Request.rejectDrafts (output.scheduledSpecDecodeTokens.getD id [])
            (answer.sampledTokenIds id))
          (Request.requestId_rejectDrafts _ _) with
        encoderCacheManager := encoder } := by
  unfold processed
  dsimp only
  split
  · exact ⟨_, rfl⟩
  · exact ⟨_, rfl⟩

theorem requestOf_processed :
    ∃ numComputed numPlaceholders, (scheduler.processed answer output id).requestOf id =
        (scheduler.requestOf id).withProgress numComputed numPlaceholders := by
  obtain ⟨encoder, shape⟩ := processed_eq answer scheduler id output
  obtain ⟨numComputed, numPlaceholders, rejected⟩ := Request.rejectDrafts_eq
    (output.scheduledSpecDecodeTokens.getD id []) (answer.sampledTokenIds id)
    (scheduler.requestOf id)
  refine ⟨numComputed, numPlaceholders, ?_⟩
  rw [shape, ← rejected]
  exact if_pos rfl

theorem touches_processed : Touches id scheduler (scheduler.processed answer output id) := by
  obtain ⟨encoder, shape⟩ := processed_eq answer scheduler id output
  rw [shape]
  exact ⟨rfl, rfl, fun _ different => if_neg different, fun _ _ => Iff.rfl⟩

end

end

omit [EncoderCache E] in
theorem TakesOutput.touches (takes : TakesOutput answer scheduler id tokenIds stopped next) :
    Touches id scheduler next := by
  cases takes with
  | discard _ | pool _ _ => exact touches_modifyRequest scheduler id
  | append _ _ _ updated appended _ _ =>
    exact touches_storeRequest scheduler updated (requestId_of_appendUntilStop appended)
  | appendExpected _ _ _ updated appended _ _ numOutputPlaceholders _ manager _ =>
    have stored := touches_storeRequest scheduler
      { updated with numOutputPlaceholders := numOutputPlaceholders }
      (requestId_of_appendUntilStop appended : updated.requestId = id)
    exact { stored with }
  | nothing => exact .refl id _

omit [KVCacheManager M] [EncoderCache E] in
theorem HandlesStopped.touches (handles : HandlesStopped scheduler id finished next) :
    Touches id scheduler next := by
  cases handles with
  | finish _ => exact .refl id _
  | endSession rest => exact touches_modifyRequest scheduler id
  | awaitInput _ =>
    exact (touches_modifyRequest scheduler id).trans (touches_enqueueWaitingRequest _ id)
  | continueSession _ update rest session updated =>
    obtain ⟨sameId, _⟩ :=
      updateAsSession_eq_ok scheduler updated (scheduler.requestHeap.requestId_object id)
    exact (touches_storeRequest scheduler session sameId).trans (touches_enqueueWaitingRequest _ id)

theorem touches_freeRequest (freeing : scheduler.freeRequest delays id delayFreeBlocks = .ok next) :
    Touches id scheduler next := by
  obtain ⟨_, rfl | ⟨_, rfl⟩⟩ := freeRequest_eq_ok freeing
  · exact ⟨rfl, rfl, fun _ _ => rfl, fun _ _ => Iff.rfl⟩
  · exact ⟨rfl, rfl, fun _ _ => rfl, fun _ different => mem_erase_of_ne different⟩

/-- An answer to a request concerns this request only. -/
theorem Answers.touches {stops : Bool} (answers : Answers answer output scheduler id stops next) :
    Touches id scheduler next := by
  have processed := touches_processed answer scheduler id output
  cases answers with
  | continues tokenIds taken takes next statistics =>
    refine (processed.trans takes.touches).trans ?_
    rcases statistics with rfl | rfl
    · exact .refl id _
    · exact touches_modifyRequest taken id
  | stops tokenIds stopped taken takes judged verdict finished handled handles next frees =>
    have judges : Touches id taken judged := by
      rcases verdict with ⟨_, rfl⟩ | ⟨_, _, rfl⟩
      · exact .refl id _
      · exact touches_modifyRequest taken id
    have freed : Touches id handled next := by
      rcases frees with ⟨_, rfl⟩ | ⟨_, freeing⟩
      · exact .refl id _
      · exact touches_freeRequest freeing
    exact ((((processed.trans takes.touches).trans judges).trans handles.touches).trans
      freed).trans (touches_modifyRequest next id)

/-- The requests of two schedulers differ at most in their computed tokens. -/
def Recomputes (before after : Scheduler M E) : Prop :=
  ∀ id, ∃ numComputedTokens, after.requestOf id =
    { before.requestOf id with numComputedTokens := numComputedTokens }

section

omit [KVCacheManager M] [EncoderCache E]

theorem Recomputes.refl (scheduler : Scheduler M E) : scheduler.Recomputes scheduler :=
  fun _ => ⟨_, rfl⟩

theorem Recomputes.trans (left : first.Recomputes second)
    (right : second.Recomputes third) : first.Recomputes third := by
  intro id
  obtain ⟨_, leftSame⟩ := left id
  obtain ⟨numComputed, rightSame⟩ := right id
  refine ⟨numComputed, ?_⟩
  rw [rightSame, leftSame]

theorem recomputes_modifyRequest
    (scheduler : Scheduler M E) (requestId : RequestId) (numComputedTokens : Int) :
    scheduler.Recomputes (scheduler.modifyRequest requestId fun request =>
      { request with numComputedTokens := numComputedTokens }) := by
  intro id
  by_cases same : id = requestId
  · subst same
    exact ⟨numComputedTokens, requestOf_modifyRequest_self scheduler id⟩
  · exact ⟨_, requestOf_modifyRequest_of_ne scheduler same⟩

end

section

omit [EncoderCache E]

theorem updateRequestsWithInvalidBlocks_eq_ok
    {invalidBlockIds : List BlockId} {numScheduledTokens : Dict RequestId Int} {evictBlocks : Bool}
    {requests : List RequestId} {report updated : InvalidBlockReport M E}
    (updating : requests.foldlM
      (updateRequestWithInvalidBlocks invalidBlockIds numScheduledTokens evictBlocks) report =
        .ok updated) :
    report.scheduler.Recomputes updated.scheduler ∧
      ∃ heap, updated.scheduler = { report.scheduler with requestHeap := heap } := by
  induction requests generalizing report with
  | nil =>
    cases updating
    exact ⟨.refl _, _, rfl⟩
  | cons id rest ih =>
    rw [foldlM_cons] at updating
    obtain ⟨first, scanned, updating⟩ := bind_eq_ok.mp updating
    obtain ⟨later, heap, shape⟩ := ih updating
    unfold updateRequestWithInvalidBlocks at scanned
    dsimp only at scanned
    split at scanned
    · cases scanned
      exact ⟨(recomputes_modifyRequest _ _ _).trans later, heap, shape⟩
    · cases scanned

/-- Failed loads change computed tokens, the record of failures and cached blocks. -/
theorem handleFailedLoads_eq_ok {failedKvLoadReqIds : List RequestId}
    (handling : scheduler.handleFailedLoads answer output = .ok (failedKvLoadReqIds, next)) :
    scheduler.Recomputes next ∧ ∃ heap manager failed, (manager = scheduler.kvCacheManager ∨
          ∃ blocks, manager = evictBlocks scheduler.kvCacheManager blocks) ∧
        next = { scheduler with
            requestHeap := heap
            kvCacheManager := manager
            failedRecvingKvReqIds := failed } := by
  unfold handleFailedLoads at handling
  split at handling
  · cases handling
    exact ⟨.refl _, _, _, _, .inl rfl, rfl⟩
  · split at handling
    · cases handling
      exact ⟨.refl _, _, _, _, .inl rfl, rfl⟩
    · obtain ⟨asyncReport, asyncScan, handling⟩ := bind_eq_ok.mp handling
      obtain ⟨syncReport, syncScan, handling⟩ := bind_eq_ok.mp handling
      obtain ⟨asyncCuts, asyncHeap, asyncShape⟩ :=
        updateRequestsWithInvalidBlocks_eq_ok asyncScan
      obtain ⟨syncCuts, syncHeap, syncShape⟩ := updateRequestsWithInvalidBlocks_eq_ok syncScan
      rw [asyncShape] at syncShape
      have cuts : scheduler.Recomputes syncReport.scheduler := asyncCuts.trans syncCuts
      split at handling
      · cases handling
        exact ⟨cuts, syncHeap, _, _, .inl rfl, syncShape⟩
      · split at handling
        · cases handling
          refine ⟨cuts, syncHeap, scheduler.kvCacheManager,
            scheduler.failedRecvingKvReqIds.union asyncReport.affectedReqIds, .inl rfl, ?_⟩
          rw [syncShape]
        · cases handling
          split
          · exact ⟨cuts, syncHeap, _, _, .inl rfl, syncShape⟩
          · refine ⟨cuts, syncHeap, evictBlocks scheduler.kvCacheManager syncReport.blocksToEvict,
              scheduler.failedRecvingKvReqIds, .inr ⟨_, rfl⟩, ?_⟩
            rw [syncShape]

end

end Scheduler

end TokenCake
