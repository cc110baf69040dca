import TokenCake.Request.Defs

/-!
# Encoder caches

The scheduler's books on the outputs of the multimodal encoder.  An entry of
the cache of a decoder-only model is kept while requests refer to it and is
evicted in the order of release when space is needed.  Encoder-decoder models,
which only count slots, are left out.
-/

namespace TokenCake

/-- The operations of an encoder cache that the scheduler uses. -/
class EncoderCache (E : Type) where
  /-- Take a reference if the input is cached. -/
  checkAndUpdateCache : E → Request → Nat → Except ResourceError (Bool × E)
  /-- Check for space, evicting unreferenced entries; the budgets are the
  compute budget and the embeddings already scheduled. -/
  canAllocate : E → Request → Nat → Int → Nat → Except ResourceError (Bool × E)
  /-- Reserve space for an input. -/
  allocate : E → Request → Nat → Except ResourceError E
  /-- The inputs of a request that are cached. -/
  getCachedInputIds : E → Request → List Nat
  /-- Drop the reference to one input. -/
  freeEncoderInput : E → Request → Nat → E
  /-- Drop all references of a request. -/
  free : E → Request → E
  /-- Take the list of evicted entries. -/
  getFreedMmHashes : E → List Text × E

/-- The cache of a decoder-only multimodal model. -/
structure EncoderCacheManager where
  cacheSize : Nat
  numFreeSlots : Int
  numFreeableSlots : Int
  /-- The requests that refer to each entry. -/
  cached : Dict Text (List RequestId)
  /-- Unreferenced entries with their sizes, oldest first. -/
  freeable : Dict Text Nat
  freed : List Text

namespace EncoderCacheManager

/-- An empty cache. -/
def init (cacheSize : Nat) : EncoderCacheManager where
  cacheSize := cacheSize
  numFreeSlots := cacheSize
  numFreeableSlots := cacheSize
  cached := .empty
  freeable := .empty
  freed := []

/-- Add an identifier to a set kept as a list. -/
def addReference (references : List RequestId) (requestId : RequestId) : List RequestId :=
  if requestId ∈ references then references else references ++ [requestId]

variable (cache : EncoderCacheManager) (request : Request)

/-- Take a reference to an input if it is cached. -/
def checkAndUpdateCache (inputId : Nat) : Except ResourceError (Bool × EncoderCacheManager) :=
  match request.mmFeatures[inputId]? with
  | none => .error .indexError
  | some feature =>
    let mmHash := feature.identifier
    match cache.cached.get? mmHash with
    | none => .ok (false, cache)
    | some [] =>
      match cache.freeable.get? mmHash with
      | none => .error .keyError
      | some numEncoderEmbeds =>
        .ok (true, { cache with
          freeable := cache.freeable.erase mmHash
          numFreeableSlots := cache.numFreeableSlots - numEncoderEmbeds
          cached := cache.cached.set mmHash [request.requestId] })
    | some references =>
      .ok (true, { cache with
        cached :=
          cache.cached.set mmHash (addReference references request.requestId) })

/-- Evict released entries, oldest first, until enough slots are free. -/
def evictUntil (numEmbeds : Int) :
    List (Text × Nat) → EncoderCacheManager → Except ResourceError EncoderCacheManager
  | [], cache =>
    if numEmbeds ≤ cache.numFreeSlots then .ok cache else .error .keyError
  | (mmHash, numFreeEmbeds) :: rest, cache =>
    if numEmbeds ≤ cache.numFreeSlots then .ok cache
    else if mmHash ∈ cache.cached then
      evictUntil numEmbeds rest
        { cache with
          freeable := cache.freeable.erase mmHash
          cached := cache.cached.erase mmHash
          freed := cache.freed ++ [mmHash]
          numFreeSlots := cache.numFreeSlots + numFreeEmbeds }
    else .error .keyError

/-- Check for space for an input, evicting released entries if necessary. -/
def canAllocate (inputId : Nat) (encoderComputeBudget : Int)
    (numEmbedsToSchedule : Nat) : Except ResourceError (Bool × EncoderCacheManager) := do
  let inputEmbeds ← request.getNumEncoderEmbeds inputId
  if (inputEmbeds : Int) > encoderComputeBudget then return (false, cache)
  else
    let numEmbeds : Int := inputEmbeds + numEmbedsToSchedule
    if numEmbeds ≤ cache.numFreeSlots then return (true, cache)
    else if numEmbeds > cache.numFreeableSlots then return (false, cache)
    else
      let evicted ← evictUntil numEmbeds cache.freeable.entries cache
      return (true, evicted)

/-- Reserve space for an input and refer to it. -/
def allocate (inputId : Nat) : Except ResourceError EncoderCacheManager :=
  match request.mmFeatures[inputId]? with
  | none => .error .indexError
  | some feature =>
    let mmHash := feature.identifier
    let numEncoderEmbeds : Int := feature.mmPosition.getNumEmbeds
    if cache.numFreeSlots ≥ numEncoderEmbeds ∧ cache.numFreeableSlots ≥ numEncoderEmbeds then
      .ok { cache with
        cached := cache.cached.set mmHash
          (addReference (cache.cached.getD mmHash []) request.requestId)
        numFreeSlots := cache.numFreeSlots - numEncoderEmbeds
        numFreeableSlots := cache.numFreeableSlots - numEncoderEmbeds }
    else .error .assertionFailed

/-- The inputs of a request whose entry exists, referenced or not. -/
def getCachedInputIds (cache : EncoderCacheManager) (request : Request) : List Nat :=
  (List.range request.mmFeatures.length).filter fun inputId =>
    match request.mmFeatures[inputId]? with
    | none => false
    | some feature => decide (feature.identifier ∈ cache.cached)

/-- Drop the reference to an input; the last reference releases the entry. -/
def freeEncoderInput (inputId : Nat) : EncoderCacheManager :=
  match request.mmFeatures[inputId]? with
  | none => cache
  | some feature =>
    let mmHash := feature.identifier
    match cache.cached.get? mmHash with
    | none => cache
    | some [] => cache
    | some references =>
      let remaining := references.filter fun other => !decide (other = request.requestId)
      let numEncoderEmbeds := feature.mmPosition.getNumEmbeds
      if remaining.isEmpty then
        { cache with
          cached := cache.cached.set mmHash remaining
          freeable := cache.freeable.set mmHash numEncoderEmbeds
          numFreeableSlots := cache.numFreeableSlots + numEncoderEmbeds }
      else { cache with cached := cache.cached.set mmHash remaining }

/-- Drop all references of a request. -/
def free (cache : EncoderCacheManager) (request : Request) : EncoderCacheManager :=
  (getCachedInputIds cache request).foldl
    (fun cache inputId => freeEncoderInput cache request inputId) cache

/-- Take the list of entries evicted since the last call. -/
def getFreedMmHashes (cache : EncoderCacheManager) : List Text × EncoderCacheManager :=
  (cache.freed, { cache with freed := [] })

/-- Forget all entries. -/
def reset (cache : EncoderCacheManager) : EncoderCacheManager := init cache.cacheSize

instance : EncoderCache EncoderCacheManager where
  checkAndUpdateCache := checkAndUpdateCache
  canAllocate := canAllocate
  allocate := allocate
  getCachedInputIds := getCachedInputIds
  freeEncoderInput := freeEncoderInput
  free := free
  getFreedMmHashes := getFreedMmHashes

end EncoderCacheManager

end TokenCake
