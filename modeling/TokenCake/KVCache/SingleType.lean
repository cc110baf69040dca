import TokenCake.KVCache.BlockPool

/-!
# Managers of one attention type

Every KV cache group has a manager that keeps the blocks of its requests.  The
managers share the block pool, so each operation takes and returns the pool.
Full attention keeps every block of a request; a sliding window and chunked
local attention replace blocks outside their window by the null block.
-/

namespace TokenCake

/-- Ceiling division. -/
def cdiv (total : Int) (size : Nat) : Int := -((-total) / size)

theorem cdiv_le_cdiv {left right : Int} (smaller : left ≤ right) (size : Nat) :
    cdiv left size ≤ cdiv right size := by
  have divided : -right / (size : Int) ≤ -left / (size : Int) := by
    rcases Nat.eq_zero_or_pos size with rfl | positive
    · simp
    · exact Int.ediv_le_ediv (by omega) (by omega)
  unfold cdiv
  omega

theorem cdiv_le_iff {total bound : Int} {size : Nat} (positive : 0 < size) :
    cdiv total size ≤ bound ↔ total ≤ bound * size := by
  unfold cdiv
  rw [neg_le, Int.le_ediv_iff_mul_le (Int.natCast_pos.mpr positive), neg_mul, neg_le_neg_iff]

theorem le_cdiv_mul (total : Int) {size : Nat} (positive : 0 < size) :
    total ≤ cdiv total size * size :=
  (cdiv_le_iff positive).mp le_rfl

theorem foldl_lcm_dvd_iff (sizes : List Nat) (start length : Nat) :
    sizes.foldl Nat.lcm start ∣ length ↔ start ∣ length ∧ ∀ size ∈ sizes, size ∣ length := by
  induction sizes generalizing start with
  | nil => simp
  | cons size rest ih =>
    rw [List.foldl_cons, ih, Nat.lcm_dvd_iff]
    simp only [List.mem_cons, forall_eq_or_imp, and_assoc]

/-- Which tokens a token attends to. -/
inductive AttentionKind where
  | fullAttention
  | slidingWindow (slidingWindow : Nat)
  | chunkedLocalAttention (attentionChunkSize : Nat)
deriving DecidableEq, Repr

/-- The layout of a group. -/
structure KVCacheSpec where
  kind : AttentionKind
  blockSize : Nat
  /-- The fields that only matter for the equality of specifications. -/
  layout : Nat := 0
deriving DecidableEq, Repr

namespace KVCacheSpec

/-- Tokens in front of the attention window behind the computed tokens. -/
def getNumSkippedTokens (spec : KVCacheSpec) (numComputedTokens : Int) : Int :=
  match spec.kind with
  | .fullAttention => 0
  | .slidingWindow window => max 0 (numComputedTokens - window + 1)
  | .chunkedLocalAttention chunk => numComputedTokens / chunk * chunk

/-- Bound on the blocks one request holds, for types that recycle blocks. -/
def maxAdmissionBlocksPerRequest (spec : KVCacheSpec)
    (maxNumBatchedTokens maxModelLen : Nat) : Option Int :=
  match spec.kind with
  | .fullAttention => none
  | .slidingWindow window =>
    some (cdiv (min ((window : Int) - 1 + maxNumBatchedTokens) maxModelLen) spec.blockSize + 1)
  | .chunkedLocalAttention chunk =>
    some (cdiv (min ((chunk : Int) + maxNumBatchedTokens) maxModelLen) spec.blockSize)

/-- Which of the new full blocks can serve a hit; all of them by default. -/
def cacheBlockMask (spec : KVCacheSpec)
    (numCachedBlocks numFullBlocks alignmentTokens : Nat) : Option (List Bool) :=
  match spec.kind with
  | .slidingWindow window =>
    let perSegment := alignmentTokens / spec.blockSize
    let tail := (cdiv ((window : Int) - 1) spec.blockSize).toNat
    if tail ≥ perSegment then none
    else
      let skip := perSegment - tail
      some ((List.range' numCachedBlocks (numFullBlocks - numCachedBlocks)).map fun index =>
        decide (index % perSegment ≥ skip))
  | _ => none

end KVCacheSpec

/-- The manager of one group. -/
structure SingleTypeKVCacheManager where
  kvCacheSpec : KVCacheSpec
  kvCacheGroupId : Nat
  enableCaching : Bool
  maxAdmissionBlocksPerRequest : Option Int
  reqToBlocks : Dict RequestId (List BlockId) := .empty
  /-- Number of blocks of a request that are cached. -/
  numCachedBlock : Dict RequestId Nat := .empty

namespace SingleTypeKVCacheManager

/-- Number of tokens of a block. -/
abbrev blockSize (manager : SingleTypeKVCacheManager) : Nat := manager.kvCacheSpec.blockSize

/-- The blocks of a request. -/
def blocksOf (manager : SingleTypeKVCacheManager) (requestId : RequestId) : List BlockId :=
  manager.reqToBlocks.getD requestId []

/-- Blocks that taking references would remove from the free queue. -/
def getNumEvictableBlocks (pool : BlockPool) (blocks : List BlockId) : Nat :=
  blocks.countP fun block => decide (pool.refCnt block = 0) && !decide (block = nullBlock)

variable (manager : SingleTypeKVCacheManager) (pool : BlockPool) (requestId : RequestId)

/-- Number of blocks to allocate for a request. -/
def getNumBlocksToAllocate (numTokens : Int) (newComputedBlocks : List BlockId)
    (totalComputedTokens : Int) (applyAdmissionCap : Bool) : Int :=
  let numRequiredBlocks := cdiv numTokens manager.blockSize
  let numRequiredBlocks :=
    match applyAdmissionCap, manager.maxAdmissionBlocksPerRequest with
    | true, some cap => min numRequiredBlocks cap
    | _, _ => numRequiredBlocks
  let numReqBlocks := (manager.blocksOf requestId).length
  if requestId ∈ manager.numCachedBlock then max (numRequiredBlocks - numReqBlocks) 0
  else
    let numSkippedBlocks :=
      manager.kvCacheSpec.getNumSkippedTokens totalComputedTokens / manager.blockSize
    let numLocalComputedBlocks : Int := newComputedBlocks.length + numReqBlocks
    let numSkippedNewComputedBlocks := max 0 (numSkippedBlocks - numReqBlocks)
    max (numRequiredBlocks - max numSkippedBlocks numLocalComputedBlocks) 0 +
      getNumEvictableBlocks pool (newComputedBlocks.drop numSkippedNewComputedBlocks.toNat)

/-- Append blocks to those of a request. -/
def extendBlocks (blocks : List BlockId) : SingleTypeKVCacheManager :=
  { manager with
    reqToBlocks := manager.reqToBlocks.set requestId (manager.blocksOf requestId ++ blocks) }

/-- Take references to the cached blocks of a hit. -/
def touchComputed (blocks : List BlockId) : Except ResourceError BlockPool :=
  if manager.enableCaching then pool.touch blocks
  else do
    ensure blocks.isEmpty .assertionFailed
    return pool

/-- Give a new request its cached blocks and blocks for external tokens. -/
def allocateNewComputedBlocks
    (newComputedBlocks : List BlockId) (numLocalComputedTokens numExternalComputedTokens : Int) :
    Except ResourceError (SingleTypeKVCacheManager × BlockPool) :=
  if requestId ∈ manager.numCachedBlock then do
    ensure newComputedBlocks.isEmpty .assertionFailed
    return (manager, pool)
  else do
    ensure (manager.blocksOf requestId).isEmpty .assertionFailed
    let total := numLocalComputedTokens + numExternalComputedTokens
    let skippedTokens := manager.kvCacheSpec.getNumSkippedTokens total
    let skipped := (skippedTokens / manager.blockSize).toNat
    let external :=
      if skipped > 0 then min (total - skippedTokens) numExternalComputedTokens
      else numExternalComputedTokens
    let kept := newComputedBlocks.drop skipped
    let touched ← manager.touchComputed pool kept
    let blocks := List.replicate skipped nullBlock ++ kept
    let extended := manager.extendBlocks requestId blocks
    let recorded :=
      { extended with numCachedBlock := extended.numCachedBlock.set requestId blocks.length }
    if external > 0 then
      let (allocated, pool) ←
        touched.getNewBlocks (cdiv total manager.blockSize - blocks.length)
      return (recorded.extendBlocks requestId allocated, pool)
    else return (recorded, touched)

/-- Allocate blocks until a request has slots for its tokens. -/
def allocateNewBlocks (numTokens : Int) :
    Except ResourceError (List BlockId × SingleTypeKVCacheManager × BlockPool) :=
  let numNewBlocks := cdiv numTokens manager.blockSize - (manager.blocksOf requestId).length
  if numNewBlocks ≤ 0 then .ok ([], manager, pool)
  else do
    let (newBlocks, pool) ← pool.getNewBlocks numNewBlocks
    return (newBlocks, manager.extendBlocks requestId newBlocks, pool)

/-- Cache the full blocks of a request.  With an alignment beyond the block size
only blocks that can serve a hit are cached. -/
def cacheBlocks (request : Request) (numTokens : Int) (alignmentTokens : Option Nat) :
    Except ResourceError (SingleTypeKVCacheManager × BlockPool) :=
  let numCachedBlocks := manager.numCachedBlock.getD request.requestId 0
  let numFullBlocks := (numTokens / manager.blockSize).toNat
  if numCachedBlocks ≥ numFullBlocks then .ok (manager, pool)
  else do
    let mask :=
      match alignmentTokens with
      | none => none
      | some alignment =>
        if alignment ≤ manager.blockSize then none
        else manager.kvCacheSpec.cacheBlockMask numCachedBlocks numFullBlocks alignment
    let cached ←
      pool.cacheFullBlocks request.blockHashes (manager.blocksOf request.requestId)
        numCachedBlocks numFullBlocks manager.blockSize manager.kvCacheGroupId mask
    return (
      { manager with
        numCachedBlock := manager.numCachedBlock.set request.requestId numFullBlocks }, cached)

/-- Free the blocks of a request, the last ones first. -/
def free (requestId : RequestId) : SingleTypeKVCacheManager × BlockPool :=
  ({ manager with
      reqToBlocks := manager.reqToBlocks.erase requestId
      numCachedBlock := manager.numCachedBlock.erase requestId },
    pool.freeBlocks (manager.blocksOf requestId).reverse)

/-- The blocks behind the first ones that are outside the window, from the last
skipped one down to the first null block. -/
def skippedRun (blocks : List BlockId) (numSkippedBlocks : Nat) : List BlockId :=
  (blocks.take numSkippedBlocks).reverse.takeWhile fun block => !decide (block = nullBlock)

/-- Free the blocks outside the attention window and put null blocks in their
place. -/
def removeSkippedBlocks (totalComputedTokens : Int) : SingleTypeKVCacheManager × BlockPool :=
  let skippedTokens := manager.kvCacheSpec.getNumSkippedTokens totalComputedTokens
  if skippedTokens ≤ 0 then (manager, pool)
  else
    let blocks := manager.blocksOf requestId
    let skipped := min (skippedTokens / manager.blockSize).toNat blocks.length
    let removed := skippedRun blocks skipped
    let kept := blocks.take (skipped - removed.length) ++
      List.replicate removed.length nullBlock ++ blocks.drop skipped
    ({ manager with reqToBlocks := manager.reqToBlocks.set requestId kept },
      pool.freeBlocks removed)

end SingleTypeKVCacheManager

end TokenCake
