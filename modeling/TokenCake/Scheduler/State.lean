import TokenCake.Encoder.Cache
import TokenCake.Request.BlockHash
import TokenCake.Scheduling.Step

/-!
# The state of the scheduler

The scheduler owns the requests, their queues, the KV cache manager, the encoder
cache and the capacity policy.  A call of `schedule` works on a step: the
scheduler together with the local variables of the call and the place in the
call that is executed next.  The lifecycle registry, statistics, events and
client-side outputs are left out.
-/

namespace TokenCake

/-- The fixed parameters of a scheduler. -/
structure SchedulerConfig where
  policy : SchedulingPolicy := .fcfs
  maxNumRunningReqs : Nat
  maxNumScheduledTokens : Nat
  maxModelLen : Nat
  blockSize : Nat
  longPrefillTokenThreshold : Nat := 0
  enableChunkedPrefill : Bool := true
  disableChunkedMmInput : Bool := false
  asyncScheduling : Bool := false
  isEncoderDecoder : Bool := false
  maxNumEncoderInputTokens : Nat := 0
  /-- Number of adapters in a batch, if adapters are enabled. -/
  maxLoras : Option Nat := none
  useEagle : Bool := false
  numSpecTokens : Nat := 0
  numLookaheadTokens : Nat := 0
  needMambaBlockAlignedSplit : Bool := false
  schedulerReserveFullIsl : Bool := true
  useV2ModelRunner : Bool := false
  hasConnector : Bool := false
  recomputeKvLoadFailures : Bool := true
  hasTokencakeConnector : Bool := false
  hasEcConnector : Bool := false
  /-- Hasher of full blocks, if block hashes are used. -/
  blockHasher : Option BlockHasher := none

/-- The request objects.  Every object is found under its own identifier. -/
structure RequestHeap where
  object : RequestId → Request
  requestId_object : ∀ id, (object id).requestId = id

namespace RequestHeap

/-- Change one object, keeping its identifier. -/
def modify (heap : RequestHeap) (requestId : RequestId) (change : Request → Request)
    (keeps : ∀ request, (change request).requestId = request.requestId) : RequestHeap where
  object := fun other =>
    if other = requestId then change (heap.object requestId) else heap.object other
  requestId_object := by
    intro other
    split
    · next same => rw [keeps, heap.requestId_object, same]
    · exact heap.requestId_object other

/-- Store an object under its identifier. -/
def store (heap : RequestHeap) (request : Request) : RequestHeap where
  object := fun other => if other = request.requestId then request else heap.object other
  requestId_object := by
    intro other
    split
    · next same => exact same.symm
    · exact heap.requestId_object other

end RequestHeap

/-- The state of the scheduler. -/
structure Scheduler (M E : Type) where
  config : SchedulerConfig
  kvCacheManager : M
  encoderCacheManager : E
  tokencakeScheduling : Option SchedulingController
  requestHeap : RequestHeap
  /-- Keys of the dictionary of requests, in insertion order. -/
  requests : List RequestId
  waiting : RequestQueue
  skippedWaiting : RequestQueue
  running : List RequestId
  finishedReqIds : List RequestId
  finishedRecvingKvReqIds : List RequestId
  failedRecvingKvReqIds : List RequestId
  prevStepScheduledReqIds : List RequestId

/-- A request in an output, with its blocks and its position. -/
structure ScheduledRequestData where
  reqId : RequestId
  /-- All blocks of a new or resumed request, the new blocks otherwise. -/
  blockIds : KVCacheBlocks
  numComputedTokens : Int
  resumed : Bool := false
deriving DecidableEq, Repr

/-- What a call of `schedule` returns. -/
structure SchedulerOutput where
  scheduledNewReqs : List ScheduledRequestData
  scheduledCachedReqs : List ScheduledRequestData
  numScheduledTokens : Dict RequestId Int
  scheduledSpecDecodeTokens : Dict RequestId (List TokenId)
  scheduledEncoderInputs : Dict RequestId (List Nat)
  preemptedReqIds : List RequestId
  finishedReqIds : List RequestId
  freeEncoderMmHashes : List Text

/-- A running request that is about to receive slots. -/
structure RunningProbe where
  requestId : RequestId
  numNewTokens : Int
  limitedPrefill : Bool
  encoderInputsToSchedule : List Nat
  newEncoderComputeBudget : Int
  externalLoadEncoderInput : List Nat
deriving DecidableEq, Repr

/-- The place in `schedule` that is executed next. -/
inductive Phase where
  /-- The head of the loop over running requests. -/
  | running
  /-- The decision whether a running request may grow. -/
  | growing (probe : RunningProbe)
  /-- The allocation of slots for a running request. -/
  | allocating (probe : RunningProbe)
  /-- Between the two loops. -/
  | afterRunning
  /-- The head of the loop over waiting requests. -/
  | waiting
  /-- The comparison of annotated candidates: those not examined yet, the
  eligible ones so far and the best one so far. -/
  | choosing (pending eligible : List (RequestId × QueueName)) (best : RequestId × QueueName)
  /-- The admission of a chosen waiting request. -/
  | admitting (requestId : RequestId) (queue : QueueName)
  /-- Behind both loops. -/
  | done
deriving DecidableEq, Repr

/-- A call of `schedule` in progress. -/
structure Step (M E : Type) where
  scheduler : Scheduler M E
  /-- Whether the capacity policy takes part in this step. -/
  tokencakeActive : Bool
  scheduledNewReqs : List RequestId
  scheduledResumedReqs : List RequestId
  scheduledRunningReqs : List RequestId
  preemptedReqs : List RequestId
  reqToNewBlocks : Dict RequestId KVCacheBlocks
  numScheduledTokens : Dict RequestId Int
  tokenBudget : Int
  prefillBudget : Int
  scheduledPrefillTokens : Dict RequestId Int
  scheduledEncoderInputs : Dict RequestId (List Nat)
  encoderComputeBudget : Int
  scheduledSpecDecodeTokens : Dict RequestId (List TokenId)
  /-- Position in the running list. -/
  reqIndex : Nat
  scheduledLoras : List Int
  stepSkippedWaiting : RequestQueue
  reservationDeferred : List RequestId
  borrowReserved : Bool
  /-- Ordered candidates that are still queued. -/
  agentOrder : Option (List (RequestId × QueueName))
  cacheAgentOrder : Bool
  /-- Number of lookups in the KV connector so far. -/
  connectorCalls : Nat
  phase : Phase

namespace Scheduler

variable {M E : Type}

/-- The object of a request. -/
abbrev requestOf (scheduler : Scheduler M E) (requestId : RequestId) : Request :=
  scheduler.requestHeap.object requestId

/-- The order of requests under the priority policy. -/
def lt (scheduler : Scheduler M E) (left right : RequestId) : Bool :=
  (scheduler.requestOf left).lt (scheduler.requestOf right)

variable (scheduler : Scheduler M E) (requestId : RequestId) (request : Request)

/-- Change the object of a request. -/
def modifyRequest (change : Request → Request)
    (keeps : ∀ request, (change request).requestId = request.requestId := by
      intro request; rfl) : Scheduler M E :=
  { scheduler with requestHeap := scheduler.requestHeap.modify requestId change keeps }

variable {change : Request → Request}
  {keeps : ∀ request, (change request).requestId = request.requestId}

@[simp] theorem requestOf_modifyRequest_self :
    (scheduler.modifyRequest requestId change keeps).requestOf requestId =
      change (scheduler.requestOf requestId) :=
  if_pos rfl

theorem requestOf_modifyRequest_of_ne {id other : RequestId} (different : other ≠ id) :
    (scheduler.modifyRequest id change keeps).requestOf other = scheduler.requestOf other :=
  if_neg different

theorem status_modifyRequest {id : RequestId}
    (status : ∀ request, (change request).status = request.status) (other : RequestId) :
    ((scheduler.modifyRequest id change keeps).requestOf other).status =
      (scheduler.requestOf other).status := by
  by_cases same : other = id
  · rw [same, requestOf_modifyRequest_self, status]
  · rw [requestOf_modifyRequest_of_ne scheduler same]

theorem modifyRequest_modifyRequest
    {keepsSecond : ∀ request, (second request).requestId = request.requestId} :
    (scheduler.modifyRequest requestId change keeps).modifyRequest requestId second keepsSecond =
      scheduler.modifyRequest requestId (fun request => second (change request))
        (fun request => (keepsSecond _).trans (keeps request)) := by
  unfold modifyRequest RequestHeap.modify
  congr 2
  funext other
  by_cases same : other = requestId
  · simp [same]
  · simp [same]

/-- Store the object of a request. -/
def storeRequest (scheduler : Scheduler M E) (request : Request) : Scheduler M E :=
  { scheduler with requestHeap := scheduler.requestHeap.store request }

theorem requestOf_storeRequest (other : RequestId) :
    (scheduler.storeRequest request).requestOf other =
      if other = request.requestId then request else scheduler.requestOf other :=
  rfl

theorem modifyRequest_storeRequest :
    (scheduler.storeRequest request).modifyRequest request.requestId change keeps =
      scheduler.storeRequest (change request) := by
  unfold modifyRequest storeRequest RequestHeap.modify RequestHeap.store
  congr 2
  funext other
  by_cases same : other = request.requestId
  · simp [same, keeps]
  · simp [same, keeps]

theorem storeRequest_modifyRequest :
    (scheduler.modifyRequest request.requestId change keeps).storeRequest request =
      scheduler.storeRequest request := by
  unfold modifyRequest storeRequest RequestHeap.modify RequestHeap.store
  congr 2
  funext other
  by_cases same : other = request.requestId
  · simp [same]
  · simp [same]

/-- The queue of a name. -/
def queue (scheduler : Scheduler M E) : QueueName → RequestQueue
  | .waiting => scheduler.waiting
  | .skippedWaiting => scheduler.skippedWaiting

/-- Replace the queue of a name. -/
def setQueue (name : QueueName) (queue : RequestQueue) : Scheduler M E :=
  { scheduler with
    waiting :=
      match name with
      | .waiting => queue
      | .skippedWaiting => scheduler.waiting
    skippedWaiting :=
      match name with
      | .waiting => scheduler.skippedWaiting
      | .skippedWaiting => queue }

/-- The objects of some requests. -/
def requestsOf (scheduler : Scheduler M E) (ids : List RequestId) : List Request :=
  ids.map scheduler.requestOf

/-- Statuses that wait for an event outside the scheduler. -/
def isBlockedWaitingStatus : RequestStatus → Bool
  | .waitingForStructuredOutputGrammar | .waitingForRemoteKvs | .waitingForStreamingReq => true
  | _ => false

end Scheduler

end TokenCake
