import TokenCake.Request.Defs

/-!
# Block hashes of a request

Full blocks of tokens are named by a chain of hashes.  A block's hash covers
its parent's hash, its tokens and extra keys: the adapter, the multimodal
inputs that reach into the block, the cache salt and the prompt embeddings.
The hasher only looks at blocks beyond those already hashed.
-/

namespace TokenCake

/-- An entry of the extra keys of a block hash. -/
inductive ExtraKey where
  /-- An adapter name or a cache salt. -/
  | text (value : Text)
  /-- A multimodal input and its offset relative to the start of the block. -/
  | multiModal (identifier : Text) (offset : Int)
  /-- The hash of the block's prompt embeddings. -/
  | bytes (value : Bytes)
deriving DecidableEq, Repr

/-- The fixed parameters of the hasher of one engine. -/
structure BlockHasher where
  blockSize : Nat
  blockSizePositive : 0 < blockSize
  /-- The caching hash function of parent hash, tokens and extra keys. -/
  hashFunction : Bytes → List TokenId → Option (List ExtraKey) → Bytes
  /-- The parent of a first block. -/
  noneHash : Bytes
  /-- The hash of the embeddings of one block. -/
  embedsHash : List Bytes → Bytes

/-- The part of a list between two positions. -/
def slice (items : List α) (start stop : Nat) : List α :=
  (items.take stop).drop start

/-- Key of a multimodal input in the block that starts at `startTokenIdx`. -/
def MultiModalFeature.key (feature : MultiModalFeature) (startTokenIdx : Nat) : ExtraKey :=
  .multiModal feature.identifier ((feature.mmPosition.offset : Int) - (startTokenIdx : Int))

/-- The cursor loop of `_gen_mm_extra_hash_keys` over the features from the
cursor on. -/
def mmExtraHashKeysFrom (startTokenIdx endTokenIdx : Nat) :
    List MultiModalFeature → Int → List ExtraKey × Int
  | [], currMmIdx => ([], currMmIdx)
  | feature :: rest, currMmIdx =>
    let offset := feature.mmPosition.offset
    let length := feature.mmPosition.length
    if endTokenIdx > offset then
      if startTokenIdx ≥ offset + length then
        -- This block has passed the current input.
        mmExtraHashKeysFrom startTokenIdx endTokenIdx rest (currMmIdx + 1)
      else if endTokenIdx ≥ offset + length then
        -- The block contains the end of the input and may reach the next one.
        let (keys, nextMmIdx) :=
          mmExtraHashKeysFrom startTokenIdx endTokenIdx rest (currMmIdx + 1)
        (feature.key startTokenIdx :: keys, nextMmIdx)
      else ([feature.key startTokenIdx], currMmIdx)
    else ([], currMmIdx)

/-- Multimodal keys of a block and the cursor for the next block.  A negative
cursor counts from the end of the features; the hasher passes none below `-1`,
for which the range assertion of the source holds. -/
def genMmExtraHashKeys (request : Request) (startTokenIdx endTokenIdx : Nat)
    (startMmIdx : Int) : List ExtraKey × Int :=
  match request.mmFeatures.getLast? with
  | none => ([], startMmIdx)
  | some last =>
    if last.mmPosition.offset + last.mmPosition.length ≤ startTokenIdx then
      ([], startMmIdx)
    else
      let startMmIdx :=
        if startMmIdx < 0 then (request.mmFeatures.length : Int) + startMmIdx
        else startMmIdx
      mmExtraHashKeysFrom startTokenIdx endTokenIdx
        (request.mmFeatures.drop startMmIdx.toNat) startMmIdx

/-- The adapter name of a request that uses one. -/
def genLoraExtraHashKeys (request : Request) : List ExtraKey :=
  match request.loraRequest with
  | none => []
  | some loraRequest => [.text loraRequest.loraName]

/-- The cache salt, in the first block only. -/
def genCacheSaltKeys (request : Request) (startTokenIdx : Nat) : List ExtraKey :=
  match request.cacheSalt with
  | none => []
  | some cacheSalt =>
    if startTokenIdx = 0 ∧ cacheSalt ≠ 0 then [.text cacheSalt] else []

/-- The extra key for the prompt embeddings of a block. -/
def genPromptEmbedsExtraHashKeys (hasher : BlockHasher) (request : Request)
    (startTokenIdx endTokenIdx : Nat) : List ExtraKey :=
  match request.promptEmbeds with
  | none => []
  | some promptEmbeds =>
    [.bytes (hasher.embedsHash (slice promptEmbeds startTokenIdx endTokenIdx))]

/-- Join the keys of a block, where no keys at all are recorded as `none`. -/
def joinExtraKeys (hasher : BlockHasher) (request : Request) (startTokenIdx endTokenIdx : Nat)
    (mmExtraKeys : List ExtraKey) : Option (List ExtraKey) :=
  let extraKeys :=
    genLoraExtraHashKeys request ++ mmExtraKeys ++ genCacheSaltKeys request startTokenIdx ++
      genPromptEmbedsExtraHashKeys hasher request startTokenIdx endTokenIdx
  if extraKeys.isEmpty then none else some extraKeys

/-- Extra keys of a block and the cursor for the next block. -/
def generateBlockHashExtraKeys (hasher : BlockHasher) (request : Request)
    (startTokenIdx endTokenIdx : Nat) (startMmIdx : Int) : Option (List ExtraKey) × Int :=
  let (mmExtraKeys, newStartMmIdx) :=
    genMmExtraHashKeys request startTokenIdx endTokenIdx startMmIdx
  (joinExtraKeys hasher request startTokenIdx endTokenIdx mmExtraKeys, newStartMmIdx)

/-- Hash of one block; a missing or empty parent is replaced by the fixed one. -/
def hashBlockTokens (hasher : BlockHasher) (parentBlockHash : Option Bytes)
    (currBlockTokenIds : List TokenId) (extraKeys : Option (List ExtraKey)) : Bytes :=
  let parent :=
    match parentBlockHash with
    | none => hasher.noneHash
    | some parent => if parent = 0 then hasher.noneHash else parent
  hasher.hashFunction parent currBlockTokenIds extraKeys

/-- The hashing loop over the full blocks from a position on. -/
def hashBlocksFrom (hasher : BlockHasher) (request : Request) :
    Nat → Nat → Int → Option Bytes → List Bytes
  | 0, _, _, _ => []
  | fuel + 1, startTokenIdx, currMmIdx, prevBlockHashValue =>
    let endTokenIdx := startTokenIdx + hasher.blockSize
    if endTokenIdx > request.numTokens then []
    else
      let (extraKeys, currMmIdx) :=
        generateBlockHashExtraKeys hasher request startTokenIdx endTokenIdx currMmIdx
      let blockHash :=
        hashBlockTokens hasher prevBlockHashValue
          (slice request.allTokenIds startTokenIdx endTokenIdx) extraKeys
      blockHash ::
        hashBlocksFrom hasher request fuel endTokenIdx currMmIdx (some blockHash)

/-- Hashes of the full blocks that are not hashed yet. -/
def requestBlockHasher (hasher : BlockHasher) (request : Request) : List Bytes :=
  let startTokenIdx := request.blockHashes.length * hasher.blockSize
  if startTokenIdx + hasher.blockSize > request.numTokens then []
  else
    let currMmIdx : Int := if startTokenIdx > 0 then -1 else 0
    hashBlocksFrom hasher request (request.numTokens + 1) startTokenIdx currMmIdx
      request.blockHashes.getLast?

namespace Request

/-- Hash the blocks that are full and not hashed yet. -/
def updateBlockHashes (hasher : Option BlockHasher) (request : Request) : Request :=
  match hasher with
  | none => request
  | some hasher =>
    { request with
      blockHashes := request.blockHashes ++ requestBlockHasher hasher request }

variable (hasher : Option BlockHasher)

/-- Append generated tokens and hash the blocks they fill. -/
def appendOutputTokenIds (tokenIds : List TokenId) (request : Request) : Request :=
  updateBlockHashes hasher
    { request with
      outputTokenIds := request.outputTokenIds ++ tokenIds
      allTokenIds := request.allTokenIds ++ tokenIds }

/-- The arguments of the constructor. -/
structure Arguments where
  requestId : RequestId
  promptTokenIds : Option (List TokenId)
  samplingParams : Option SamplingParams
  poolingParams : Option PoolingParams := none
  arrivalTime : ℚ := 0
  promptEmbeds : Option (List Bytes) := none
  mmFeatures : List MultiModalFeature := []
  loraRequest : Option LoRARequest := none
  cacheSalt : Option Text := none
  priority : Int := 0
  resumable : Bool := false

/-- Prompt length, given by the tokens or by the embeddings. -/
def lengthFromPromptTokenIdsOrEmbeds (promptTokenIds : Option (List TokenId))
    (promptEmbeds : Option (List Bytes)) : Except EngineError Nat :=
  match promptTokenIds, promptEmbeds with
  | none, none => .error .valueError
  | none, some promptEmbeds => .ok promptEmbeds.length
  | some promptTokenIds, none => .ok promptTokenIds.length
  | some promptTokenIds, some promptEmbeds =>
    if promptEmbeds.length ≠ promptTokenIds.length then .error .valueError
    else .ok promptTokenIds.length

/-- Whether the prefix cache is bypassed when the request is scheduled. -/
def getSkipReadingPrefixCache (arguments : Arguments) : Bool :=
  match arguments.samplingParams.bind SamplingParams.skipReadingPrefixCache with
  | some skip => skip
  | none =>
    match arguments.poolingParams.bind PoolingParams.skipReadingPrefixCache with
    | some skip => skip
    | none => false

/-- The token limit and the initial status that the parameters determine. -/
def limits (arguments : Arguments) : Except EngineError (Nat × RequestStatus) :=
  match arguments.poolingParams, arguments.samplingParams with
  | some _, _ => .ok (1, .waiting)
  | none, some samplingParams =>
    .ok (samplingParams.maxTokens,
      if samplingParams.structuredOutputs then .waitingForStructuredOutputGrammar
      else .waiting)
  | none, none => .error .valueError

/-- Construct a request and hash the full blocks of its prompt. -/
def init (arguments : Arguments) : Except EngineError Request := do
  let (maxTokens, status) ← limits arguments
  let numPromptTokens ←
    lengthFromPromptTokenIdsOrEmbeds arguments.promptTokenIds arguments.promptEmbeds
  return updateBlockHashes hasher
    { requestId := arguments.requestId
      priority := arguments.priority
      arrivalTime := arguments.arrivalTime
      samplingParams := arguments.samplingParams
      poolingParams := arguments.poolingParams
      loraRequest := arguments.loraRequest
      cacheSalt := arguments.cacheSalt
      useStructuredOutput :=
        match arguments.samplingParams with
        | none => false
        | some samplingParams => samplingParams.structuredOutputs
      status := status
      maxTokens := maxTokens
      promptTokenIds := arguments.promptTokenIds
      promptEmbeds := arguments.promptEmbeds
      numPromptTokens := numPromptTokens
      allTokenIds := arguments.promptTokenIds.getD (List.replicate numPromptTokens 0)
      mmFeatures := arguments.mmFeatures
      skipReadingPrefixCache := getSkipReadingPrefixCache arguments
      resumable := arguments.resumable }

/-- A feature of a session input, placed behind the tokens kept so far. -/
def shiftFeature (base : Nat) (feature : MultiModalFeature) : MultiModalFeature :=
  { feature with
    mmPosition := { feature.mmPosition with offset := feature.mmPosition.offset + base } }

/-- Position of an index into a list, counted from the end when negative. -/
def sliceIndex (length : Nat) (index : Int) : Nat :=
  if index < 0 then (length + index).toNat else min index.toNat length

theorem sliceIndex_le (length : Nat) (index : Int) : sliceIndex length index ≤ length := by
  unfold sliceIndex
  split <;> omega

/-- Number of tokens a session update keeps: the computed ones. -/
def keptTokens (session : Request) : Nat :=
  sliceIndex session.numTokens session.numComputedTokens

/-- Drop the tokens that are not computed, then append the tokens and features
of the session input.  The kept output becomes part of the prompt. -/
def extendSession (update : StreamingUpdate) (promptTokenIds : List TokenId)
    (session : Request) : Request :=
  let keptOutputTokens := slice session.allTokenIds session.numPromptTokens session.keptTokens
  let newTokenIds := update.promptTokenIds.getD []
  { session with
    allTokenIds := session.allTokenIds.take session.keptTokens ++ newTokenIds
    outputTokenIds := []
    promptTokenIds := some (promptTokenIds ++ keptOutputTokens ++ newTokenIds)
    mmFeatures :=
      session.mmFeatures ++ update.mmFeatures.map (shiftFeature session.keptTokens) }

/-- Continue a streaming session.  Block hashes are extended, never shortened. -/
def updateAsSession (update : StreamingUpdate) (session : Request) : Except EngineError Request :=
  match session.promptTokenIds with
  | none => .error .assertionFailed
  | some promptTokenIds =>
    let extended := updateBlockHashes hasher (extendSession update promptTokenIds session)
    .ok
      { extended with
        numPromptTokens := (extended.promptTokenIds.getD []).length
        arrivalTime := update.arrivalTime
        samplingParams := update.samplingParams
        status := .waiting }

end Request

end TokenCake
