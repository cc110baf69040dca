import Mathlib.Data.Rat.Defs
import TokenCake.Library.Dict

/-!
# Requests

The data a request carries through the engine core: its tokens, its progress,
its multimodal features and the parameters the scheduler reads.  Names, texts
and byte strings are only ever compared, so they are represented by numbers;
`0` stands for the empty text or byte string wherever its truth value matters.
-/

namespace TokenCake

/-- The id of a request. -/
abbrev RequestId := Nat

/-- Texts such as agent types, adapter names and content identifiers. -/
abbrev Text := Nat

/-- Byte strings such as block hashes. -/
abbrev Bytes := Nat

/-- Token identifiers; speculative placeholders are negative. -/
abbrev TokenId := Int

/-- The failures of the engine core that end a call with an exception. -/
inductive EngineError where
  /-- `popleft` on the empty deque of ordered agent candidates. -/
  | emptyAgentOrder
  /-- `pop_request` or `peek_request` on an empty request queue. -/
  | emptyQueue
  /-- `remove` of a request that is not in the container. -/
  | requestNotInQueue
  /-- "Native allocation exceeded admitted capacity". -/
  | nativeAllocationExceededAdmittedCapacity
  /-- "Invalid request status". -/
  | invalidRequestStatus
  /-- "duplicate request id". -/
  | duplicateRequestId
  /-- A key missing from a dictionary. -/
  | keyError
  /-- An index outside a list. -/
  | indexError
  /-- An argument outside a function's domain. -/
  | valueError
  /-- Any other assertion of the source. -/
  | assertionFailed
  /-- A bounded loop of the model that did not end within its bound. -/
  | outOfFuel
deriving DecidableEq, Repr

/-- The failures of the cache managers, which know nothing of queues. -/
inductive ResourceError where
  | assertionFailed
  | keyError
  | indexError
  | valueError
deriving DecidableEq, Repr

/-- A cache manager's failure as a failure of the engine core. -/
def ResourceError.toEngineError : ResourceError → EngineError
  | .assertionFailed => .assertionFailed
  | .keyError => .keyError
  | .indexError => .indexError
  | .valueError => .valueError

/-- Run a cache manager's operation inside the engine core. -/
def liftResource (action : Except ResourceError α) : Except EngineError α :=
  action.mapError ResourceError.toEngineError

@[simp] theorem liftResource_eq_ok {action : Except ResourceError α} {result : α} :
    liftResource action = .ok result ↔ action = .ok result := by
  cases action <;> simp [liftResource, Except.mapError]

/-- Turn a source assertion into an effect. -/
def ensure (condition : Bool) (error : ε) : Except ε Unit :=
  if condition then .ok () else .error error

@[simp] theorem ensure_eq_ok {condition : Bool} {error : ε} {result : Unit} :
    ensure condition error = .ok result ↔ condition = true := by
  cases condition <;> simp [ensure]

/-- The statuses of a request; the finished ones come last. -/
inductive RequestStatus where
  | waiting
  | waitingForStructuredOutputGrammar
  | waitingForRemoteKvs
  | waitingForStreamingReq
  | running
  | preempted
  | finishedStopped
  | finishedLengthCapped
  | finishedAborted
  | finishedIgnored
  | finishedError
  | finishedRepetition
deriving DecidableEq, Repr

namespace RequestStatus

/-- Everything listed after `preempted` counts as finished. -/
def isFinished : RequestStatus → Bool
  | waiting | waitingForStructuredOutputGrammar | waitingForRemoteKvs
  | waitingForStreamingReq | running | preempted => false
  | finishedStopped | finishedLengthCapped | finishedAborted | finishedIgnored
  | finishedError | finishedRepetition => true

end RequestStatus

/-- Location of a multimodal placeholder in the prompt. -/
structure PlaceholderRange where
  offset : Nat
  length : Nat
  /-- Which positions of the range receive embeddings; all of them by default. -/
  isEmbed : Option (List Bool) := none
deriving DecidableEq, Repr

namespace PlaceholderRange

/-- Number of embedded positions among the first `index` of the range. -/
def embedsBefore (mask : List Bool) (index : Nat) : Nat :=
  (mask.take index).count true

/-- Number of encoder embeddings of the whole range. -/
def getNumEmbeds (range : PlaceholderRange) : Nat :=
  match range.isEmbed with
  | none => range.length
  | some mask => embedsBefore mask mask.length

/-- Indices of the embeddings that fall into `[startIdx, endIdx)` of the range. -/
def getEmbedsIndicesInRange (range : PlaceholderRange) (startIdx endIdx : Nat) : Nat × Nat :=
  match range.isEmbed with
  | none => (startIdx, endIdx)
  | some mask => (embedsBefore mask startIdx, embedsBefore mask endIdx)

end PlaceholderRange

/-- One multimodal input of a request. -/
structure MultiModalFeature where
  /-- Content identifier, shared by equal inputs of different requests. -/
  identifier : Text
  mmPosition : PlaceholderRange
deriving DecidableEq, Repr

/-- Annotation of agent work, as far as scheduling and offloading read it. -/
structure TokenCakeMetadata where
  lifecycleId : Text := 0
  agentType : Text := 0
  agentName : Text := 0
  importance : ℚ := 0
  applicationStartedAtS : ℚ := 0
  applicationMaxDepth : Nat := 0
  remainingDepth : Nat := 0
  nearCompletion : Bool := false
  joinGroup : Text := 0
  offloadEligible : Bool := false
  reusablePrefix : Bool := false
deriving DecidableEq

/-- When a repeated pattern ends a request. -/
structure RepetitionDetectionParams where
  maxPatternSize : Int
  minPatternSize : Int
  minCount : Int
deriving DecidableEq, Repr

/-- Sampling parameters of a generation request. -/
structure SamplingParams where
  maxTokens : Nat
  minTokens : Nat := 0
  eosTokenId : Option TokenId := none
  stopTokenIds : List TokenId := []
  repetitionDetection : Option RepetitionDetectionParams := none
  skipReadingPrefixCache : Option Bool := none
  /-- Whether a structured-output constraint is present. -/
  structuredOutputs : Bool := false
  /-- The validated `tokencake` entry of `extra_args`. -/
  tokencake : Option TokenCakeMetadata := none
deriving DecidableEq

/-- Parameters of a pooling request. -/
structure PoolingParams where
  skipReadingPrefixCache : Option Bool := none
deriving DecidableEq, Repr

/-- The adapter a request asks for. -/
structure LoRARequest where
  loraName : Text
  loraIntId : Int
deriving DecidableEq, Repr

/-- The next input chunk of a streaming session. -/
structure StreamingUpdate where
  mmFeatures : List MultiModalFeature
  promptTokenIds : Option (List TokenId)
  maxTokens : Nat
  arrivalTime : ℚ
  samplingParams : Option SamplingParams
deriving DecidableEq

/-- A request together with its progress. -/
structure Request where
  requestId : RequestId
  priority : Int := 0
  arrivalTime : ℚ := 0
  samplingParams : Option SamplingParams
  poolingParams : Option PoolingParams := none
  loraRequest : Option LoRARequest := none
  cacheSalt : Option Text := none
  useStructuredOutput : Bool := false
  status : RequestStatus := .waiting
  stopReason : Option TokenId := none
  maxTokens : Nat
  promptTokenIds : Option (List TokenId)
  /-- Rows of the prompt embedding tensor. -/
  promptEmbeds : Option (List Bytes) := none
  numPromptTokens : Nat
  outputTokenIds : List TokenId := []
  allTokenIds : List TokenId
  numOutputPlaceholders : Int := 0
  asyncTokensToDiscard : Nat := 0
  specTokenIds : List TokenId := []
  numComputedTokens : Int := 0
  mmFeatures : List MultiModalFeature := []
  isPrefillChunk : Bool := false
  numPreemptions : Nat := 0
  /-- Whether the prefill statistics have not been taken yet. -/
  prefillStats : Bool := true
  blockHashes : List Bytes := []
  skipReadingPrefixCache : Bool := false
  resumable : Bool := false
  /-- Queued session inputs; `none` entries mark the end of the session. -/
  streamingQueue : Option (List (Option StreamingUpdate)) := none
deriving DecidableEq

namespace Request

section

variable (request : Request)

/-- Number of prompt and output tokens. -/
def numTokens : Nat := request.allTokenIds.length

/-- Number of tokens including speculative ones. -/
def numTokensWithSpec : Nat :=
  request.allTokenIds.length + request.specTokenIds.length

/-- Number of output tokens. -/
def numOutputTokens : Nat := request.outputTokenIds.length

/-- Whether a request has multimodal inputs. -/
def hasEncoderInputs : Bool := !request.mmFeatures.isEmpty

/-- Number of encoder embeddings of one multimodal input. -/
def getNumEncoderEmbeds (inputId : Nat) : Except ResourceError Nat :=
  match request.mmFeatures[inputId]? with
  | none => .error .assertionFailed
  | some feature => .ok feature.mmPosition.getNumEmbeds

/-- Whether a request is finished. -/
def isFinished : Bool := request.status.isFinished

/-- Annotation of the request, if it is agent work. -/
def metadata : Option TokenCakeMetadata :=
  request.samplingParams.bind SamplingParams.tokencake

end

/-- The order of the priority policy: priority, then arrival, then identifier. -/
def lt (left right : Request) : Bool :=
  if left.priority ≠ right.priority then decide (left.priority < right.priority)
  else if left.arrivalTime ≠ right.arrivalTime then
    decide (left.arrivalTime < right.arrivalTime)
  else decide (left.requestId < right.requestId)

end Request

namespace StreamingUpdate

/-- The session input a resumable request stands for; `none` ends a session. -/
def fromRequest (request : Request) : Option StreamingUpdate :=
  if request.resumable then
    some
      { mmFeatures := request.mmFeatures
        promptTokenIds := request.promptTokenIds
        maxTokens := request.maxTokens
        arrivalTime := request.arrivalTime
        samplingParams := request.samplingParams }
  else none

end StreamingUpdate

end TokenCake
