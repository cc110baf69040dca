import Mathlib.Data.List.Dedup
import TokenCake.Request.Defs

/-!
# The interface of the KV cache manager

What the scheduler and the capacity policy use of the KV cache manager, for any
layout of attention groups.  Blocks are named by their index in the block pool;
the block with index zero is the null block.
-/

namespace TokenCake

/-- A block of the GPU cache. -/
abbrev BlockId := Nat

/-- The placeholder block, which is never allocated. -/
def nullBlock : BlockId := 0

/-- Blocks of a request, one list for every KV cache group. -/
abbrev KVCacheBlocks := List (List BlockId)

namespace KVCacheBlocks

/-- The distinct blocks of all groups other than the null block. -/
def blockIds (blocks : KVCacheBlocks) : List BlockId :=
  (blocks.flatten.filter fun block => !decide (block = nullBlock)).dedup

end KVCacheBlocks

/-- The arguments of `allocate_slots` beside the request. -/
structure AllocateArguments where
  numNewTokens : Int
  numNewComputedTokens : Int := 0
  newComputedBlocks : Option KVCacheBlocks := none
  numLookaheadTokens : Nat := 0
  numExternalComputedTokens : Int := 0
  delayCacheBlocks : Bool := false
  numEncoderTokens : Nat := 0
  fullSequenceMustFit : Bool := false
deriving DecidableEq, Repr

/-- The arguments of `get_num_blocks_to_allocate`. -/
structure DemandArguments where
  requestId : RequestId
  numTokens : Int
  newComputedBlocks : KVCacheBlocks
  numEncoderTokens : Nat := 0
  totalComputedTokens : Int
  numTokensMainModel : Int
  applyAdmissionCap : Bool := false
deriving DecidableEq, Repr

/-- The operations the scheduler uses of a KV cache manager. -/
class KVCacheManager (M : Type) where
  /-- Number of positions a request may have. -/
  maxModelLen : M → Nat
  /-- Whether prefix caching is on. -/
  enableCaching : M → Bool
  /-- Whether every group is plain full attention. -/
  fullAttentionOnly : M → Bool
  /-- The blocks of no request. -/
  emptyKvCacheBlocks : M → KVCacheBlocks
  /-- Number of blocks of the pool, the null block included. -/
  numBlocks : M → Nat
  /-- Number of blocks in the free queue. -/
  getNumFreeBlocks : M → Int
  /-- Reference count of a block. -/
  refCnt : M → BlockId → Int
  /-- Fraction of the blocks in use. -/
  usage : M → ℚ
  newStepStarts : M → M
  /-- The blocks a request holds. -/
  getBlocks : M → RequestId → KVCacheBlocks
  /-- Cached blocks for the longest cached prefix, and its length. -/
  getComputedBlocks : M → Request → KVCacheBlocks × Nat
  /-- Cached blocks for a list of block hashes up to a length. -/
  findLongestCacheHit : M → List Bytes → Nat → KVCacheBlocks × Nat
  getNumBlocksToAllocate : M → DemandArguments → Int
  /-- Blocks for new tokens, or `none` if the pool cannot provide them; skipped
  blocks are released in both cases. -/
  allocateSlots : M → Request → AllocateArguments → Except ResourceError (Option KVCacheBlocks × M)
  free : M → RequestId → M
  removeSkippedBlocks : M → RequestId → Int → M
  cacheBlocks : M → Request → Int → Except ResourceError M
  evictBlocks : M → List BlockId → M

end TokenCake
