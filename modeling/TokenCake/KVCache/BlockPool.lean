import Mathlib.Algebra.Order.Field.Rat
import TokenCake.KVCache.Interface
import TokenCake.Library.Links
import TokenCake.Request.BlockHash

/-!
# The block pool

The pool owns the blocks of all requests: their reference counts, the queue of free blocks in the
order of their eviction, and the map from hashes to blocks that serves prefix hits.  The queue is a
doubly linked list between two fake blocks, whose links are stored in the blocks, beside a counter:
blocks are taken from its front, removed from the middle when a prefix hit needs them, and appended
when they are freed.  Events and metrics are left out.
-/

namespace TokenCake

open List

/-- The queue of free blocks. -/
structure FreeKVCacheBlockQueue where
  links : Links BlockId
  numFreeBlocks : Int

namespace FreeKVCacheBlockQueue

/-- A queue of all blocks, in the order of their indices. -/
def init (numBlocks : Nat) : FreeKVCacheBlockQueue where
  links := Links.empty.appendAll (List.range numBlocks)
  numFreeBlocks := numBlocks

section

variable (queue : FreeKVCacheBlockQueue)

/-- Take the first block. -/
def popleft : Except ResourceError (BlockId × FreeKVCacheBlockQueue) :=
  match queue.links.first with
  | .item block =>
    match queue.links.next block with
    | none => .error .valueError
    | some following =>
      .ok (block,
        { links :=
            ((queue.links.setNext .head following).setPrev following .head).clear block
          numFreeBlocks := queue.numFreeBlocks - 1 })
  | .head | .tail => .error .valueError

/-- Take a number of blocks from the front.  A negative number takes nothing and
raises the counter.  To run beyond the last block fails. -/
def popleftN (count : Int) : Except ResourceError (List BlockId × FreeKVCacheBlockQueue) :=
  if count = 0 then .ok ([], queue)
  else do
    ensure (decide (queue.numFreeBlocks ≥ count)) .assertionFailed
    match queue.links.popFront count.toNat with
    | none => .error .assertionFailed
    | some (blocks, links) =>
      return (blocks, { links := links, numFreeBlocks := queue.numFreeBlocks - count })

/-- Take a block out of the middle of the queue. -/
def remove (block : BlockId) : Except ResourceError FreeKVCacheBlockQueue :=
  match queue.links.unlink block with
  | none => .error .valueError
  | some links => .ok { links := links, numFreeBlocks := queue.numFreeBlocks - 1 }

/-- Append blocks in the given order. -/
def appendN (blocks : List BlockId) : FreeKVCacheBlockQueue where
  links := queue.links.appendAll blocks
  numFreeBlocks := queue.numFreeBlocks + blocks.length

/-- The blocks of the list from the front on, at most as many as there are blocks. -/
def getAllFreeBlocks (numBlocks : Nat) : List BlockId :=
  queue.links.walk numBlocks queue.links.first

end

/-- The queue holds the given blocks in this order, and counts them. -/
structure Represents (queue : FreeKVCacheBlockQueue) (blocks : List BlockId) : Prop where
  links : queue.links.Represents blocks
  count : queue.numFreeBlocks = blocks.length

section Operations

variable {queue next : FreeKVCacheBlockQueue} {blocks taken : List BlockId} {block : BlockId}

theorem represents_init (numBlocks : Nat) : (init numBlocks).Represents (List.range numBlocks) := by
  have nodup : ([] ++ range numBlocks).Nodup := nodup_range
  refine ⟨Links.represents_empty.appendAll nodup, ?_⟩
  simp [init]

theorem Represents.popleft (represents : queue.Represents (block :: blocks)) :
    ∃ next, queue.popleft = .ok (block, next) ∧ next.Represents blocks := by
  obtain ⟨changed, unlinked, rest⟩ := represents.links.unlink mem_cons_self
  obtain ⟨start, chain⟩ := represents.links.runs
  have first : queue.links.first = .item block := (Option.some.inj start).symm
  obtain ⟨following, next_block, -⟩ := Links.exists_next_of_isChain chain
  have prev_block : queue.links.prev block = some .head := by
    obtain ⟨stop, path, -⟩ := represents.links.linked
    exact path.2.1
  rw [erase_cons_head] at rest
  unfold Links.unlink at unlinked
  rw [prev_block, next_block] at unlinked
  unfold FreeKVCacheBlockQueue.popleft
  simp only [first, next_block]
  refine ⟨_, rfl, ?_, ?_⟩
  · rw [Option.some.inj unlinked]
    exact rest
  · have count := represents.count
    simp only [length_cons] at count
    show queue.numFreeBlocks - 1 = blocks.length
    omega

section

variable (represents : queue.Represents blocks)

include represents

/-- Blocks are taken from the front if there are enough. -/
theorem Represents.popleftN {count : Int}
    (nonnegative : 0 ≤ count) (enough : count ≤ blocks.length) :
    ∃ next, queue.popleftN count = .ok (blocks.take count.toNat, next) ∧
      next.Represents (blocks.drop count.toNat) := by
  have counted := represents.count
  unfold FreeKVCacheBlockQueue.popleftN
  split
  · next zero =>
    subst zero
    exact ⟨queue, rfl, represents⟩
  · obtain ⟨links, popped, rest⟩ :=
      represents.links.popFront (by omega : count.toNat ≤ blocks.length)
    have available : ensure (decide (queue.numFreeBlocks ≥ count))
        ResourceError.assertionFailed = .ok () := by
      rw [ensure_eq_ok]
      exact decide_eq_true (by omega)
    rw [available, popped]
    refine ⟨_, rfl, rest, ?_⟩
    rw [length_drop]
    show queue.numFreeBlocks - count = _
    omega

theorem Represents.remove (mem : block ∈ blocks) :
    ∃ next, queue.remove block = .ok next ∧ next.Represents (blocks.erase block) := by
  obtain ⟨changed, unlinked, rest⟩ := represents.links.unlink mem
  unfold FreeKVCacheBlockQueue.remove
  rw [unlinked]
  refine ⟨_, rfl, rest, ?_⟩
  have positive := length_pos_of_mem mem
  have count := represents.count
  rw [length_erase_of_mem mem]
  show queue.numFreeBlocks - 1 = _
  omega

theorem Represents.appendN
    (nodup : (blocks ++ taken).Nodup) : (queue.appendN taken).Represents (blocks ++ taken) := by
  refine ⟨represents.links.appendAll nodup, ?_⟩
  have count := represents.count
  rw [length_append]
  show queue.numFreeBlocks + taken.length = _
  omega

theorem Represents.getAllFreeBlocks
    (enough : blocks.length ≤ numBlocks) : queue.getAllFreeBlocks numBlocks = blocks :=
  Links.walk_eq enough represents.links.runs.1 represents.links.runs.2

end

end Operations

end FreeKVCacheBlockQueue

/-- Key of a cached block: the hashes it covers and the group it belongs to. -/
structure BlockHashWithGroupId where
  hashes : List Bytes
  groupId : Nat
deriving DecidableEq, Repr

/-- What a key of the cache stands for: one block, or a dictionary of several blocks
in the order of their insertion. -/
inductive CachedBlocks where
  | one (block : BlockId)
  | several (blocks : List BlockId)
deriving DecidableEq, Repr

namespace CachedBlocks

/-- The blocks in the order of their insertion. -/
def toList : CachedBlocks → List BlockId
  | one block => [block]
  | several blocks => blocks

end CachedBlocks

/-- The cached blocks of every key. -/
abbrev BlockHashToBlockMap := Dict BlockHashWithGroupId CachedBlocks

namespace BlockHashToBlockMap

section

variable (cache : BlockHashToBlockMap)

section

variable (key : BlockHashWithGroupId)

/-- The blocks that are cached under a key. -/
def blocksUnder : List BlockId :=
  ((cache.get? key).map CachedBlocks.toList).getD []

/-- Some block that is cached under a key. -/
def getOneBlock : Option BlockId :=
  match cache.get? key with
  | none => none
  | some (.one block) => some block
  | some (.several blocks) => blocks.head?

/-- Add a block under a key. -/
def insert (block : BlockId) : BlockHashToBlockMap :=
  match cache.get? key with
  | none => cache.set key (.one block)
  | some (.one first) =>
    cache.set key (.several (if first = block then [block] else [first, block]))
  | some (.several blocks) =>
    cache.set key (.several (if block ∈ blocks then blocks else blocks ++ [block]))

/-- Remove a block from a key; the answer says whether it was there. -/
def pop (block : BlockId) : Bool × BlockHashToBlockMap :=
  match cache.get? key with
  | none => (false, cache)
  | some (.one first) => if first = block then (true, cache.erase key) else (false, cache)
  | some (.several blocks) =>
    if block ∈ blocks then
      let rest := blocks.filter fun other => !decide (other = block)
      (true, if rest.isEmpty then cache.erase key else cache.set key (.several rest))
    else (false, cache)

end

end

end BlockHashToBlockMap

/-- The pool of all blocks. -/
structure BlockPool where
  numGpuBlocks : Nat
  enableCaching : Bool
  /-- Number of tokens a block hash of a request covers. -/
  hashBlockSize : Nat
  refCnt : BlockId → Int
  blockHash : BlockId → Option BlockHashWithGroupId
  /-- Free blocks; those at the front are evicted first. -/
  freeBlockQueue : FreeKVCacheBlockQueue
  cachedBlockHashToBlock : BlockHashToBlockMap

namespace BlockPool

/-- A pool in which every block but the null block is free.  The null block is the
first one taken from the queue. -/
def init (numGpuBlocks : Nat) (enableCaching : Bool) (hashBlockSize : Nat) : BlockPool where
  numGpuBlocks := numGpuBlocks
  enableCaching := enableCaching
  hashBlockSize := hashBlockSize
  refCnt := fun _ => 0
  blockHash := fun _ => none
  freeBlockQueue :=
    match (FreeKVCacheBlockQueue.init numGpuBlocks).popleft with
    | .ok (_, queue) => queue
    | .error _ => .init numGpuBlocks
  cachedBlockHashToBlock := .empty

/-- Number of blocks in the free queue. -/
def getNumFreeBlocks (pool : BlockPool) : Int := pool.freeBlockQueue.numFreeBlocks

/-- Fraction of the blocks in use, exact where the source has a float; the null block does not
count. -/
def getUsage (pool : BlockPool) : ℚ :=
  let total : Int := (pool.numGpuBlocks : Int) - 1
  if total = 0 then 0 else 1 - (pool.getNumFreeBlocks : ℚ) / (total : ℚ)

variable (pool : BlockPool)

/-- The cached blocks for some hashes in every listed group, if none misses. -/
def getCachedBlock (hashes : List Bytes) (groupIds : List Nat) : Option (List BlockId) :=
  groupIds.mapM fun groupId =>
    pool.cachedBlockHashToBlock.getOneBlock { hashes := hashes, groupId := groupId }

/-- Forget the hash of a block that is about to be used for something else. -/
def maybeEvictCachedBlock (pool : BlockPool) (block : BlockId) : BlockPool :=
  match pool.blockHash block with
  | none => pool
  | some key =>
    match pool.cachedBlockHashToBlock.pop key block with
    | (false, _) => pool
    | (true, cache) =>
      { pool with
        cachedBlockHashToBlock := cache
        blockHash := fun other => if other = block then none else pool.blockHash other }

/-- Give a block from the free queue its first reference. -/
def takeNewBlock (pool : BlockPool) (block : BlockId) : Except ResourceError BlockPool := do
  let evicted := if pool.enableCaching then pool.maybeEvictCachedBlock block else pool
  ensure (decide (evicted.refCnt block = 0)) .assertionFailed
  return { evicted with
    refCnt := fun other => if other = block then 1 else evicted.refCnt other }

/-- Take blocks from the front of the free queue. -/
def getNewBlocks (numBlocks : Int) : Except ResourceError (List BlockId × BlockPool) :=
  if numBlocks > pool.getNumFreeBlocks then .error .valueError
  else do
    let (blocks, queue) ← pool.freeBlockQueue.popleftN numBlocks
    let taken ← blocks.foldlM takeNewBlock { pool with freeBlockQueue := queue }
    return (blocks, taken)

/-- Take a reference to a block; a free block leaves the free queue. -/
def touchBlock (block : BlockId) : Except ResourceError BlockPool := do
  let increased :=
    { pool with
      refCnt := fun other =>
        if other = block then pool.refCnt block + 1 else pool.refCnt other }
  if pool.refCnt block = 0 ∧ block ≠ nullBlock then
    let queue ← pool.freeBlockQueue.remove block
    return { increased with freeBlockQueue := queue }
  else return increased

/-- Take references to blocks. -/
def touch (blocks : List BlockId) : Except ResourceError BlockPool :=
  blocks.foldlM touchBlock pool

/-- Give references back; blocks without a reference enter the free queue in the
given order. -/
def freeBlocks (blocks : List BlockId) : BlockPool :=
  let refCnt := fun block => pool.refCnt block - blocks.count block
  { pool with
    refCnt := refCnt
    freeBlockQueue :=
      pool.freeBlockQueue.appendN
        (blocks.filter fun block => decide (refCnt block = 0) && !decide (block = nullBlock)) }

/-- Forget the hashes of blocks. -/
def evictBlocks (blocks : List BlockId) : BlockPool :=
  blocks.foldl maybeEvictCachedBlock pool

/-- The hashes at a block size that is a multiple of the hash block size. -/
def scaledHashes (blockHashes : List Bytes) (blockSize : Nat) : List (List Bytes) :=
  let factor := blockSize / pool.hashBlockSize
  (List.range (blockHashes.length / factor)).map fun index =>
    slice blockHashes (index * factor) ((index + 1) * factor)

/-- Cache a full block under its key. -/
def cacheFullBlock (block : BlockId)
    (key : BlockHashWithGroupId) : Except ResourceError BlockPool := do
  ensure (decide (pool.blockHash block = none)) .assertionFailed
  return { pool with
    blockHash := fun other => if other = block then some key else pool.blockHash other
    cachedBlockHashToBlock := pool.cachedBlockHashToBlock.insert key block }

/-- Cache full blocks one after another.  The null block and blocks that the mask
excludes are skipped. -/
def cacheBlocksFrom (groupId : Nat) :
    List (BlockId × Bool) → List (List Bytes) → BlockPool → Except ResourceError BlockPool
  | [], _, pool => .ok pool
  | (block, wanted) :: blocks, hashes, pool =>
    if block = nullBlock ∨ wanted = false then cacheBlocksFrom groupId blocks hashes.tail pool
    else
      match hashes with
      | [] => .error .indexError
      | key :: rest => do
          let cached ← pool.cacheFullBlock block { hashes := key, groupId := groupId }
          cacheBlocksFrom groupId blocks rest cached

/-- Cache the full blocks of a request that are not cached yet. -/
def cacheFullBlocks (blockHashes : List Bytes) (blocks : List BlockId)
    (numCachedBlocks numFullBlocks blockSize groupId : Nat)
    (blockMask : Option (List Bool)) : Except ResourceError BlockPool :=
  if numCachedBlocks ≥ numFullBlocks then .ok pool
  else do
    let newFullBlocks := slice blocks numCachedBlocks numFullBlocks
    ensure (decide (blockHashes.length ≥ numFullBlocks)) .assertionFailed
    let mask := blockMask.getD (List.replicate newFullBlocks.length true)
    ensure (decide (mask.length = newFullBlocks.length)) .assertionFailed
    ensure (decide (blockSize % pool.hashBlockSize = 0)) .assertionFailed
    cacheBlocksFrom groupId (newFullBlocks.zip mask)
      ((pool.scaledHashes blockHashes blockSize).drop numCachedBlocks) pool

/-- Drop all hashes, unless a block other than the null block is in use. -/
def resetPrefixCache (pool : BlockPool) : Bool × BlockPool :=
  if (pool.numGpuBlocks : Int) - pool.getNumFreeBlocks ≠ 1 then (false, pool)
  else
    (true,
      { pool with
        cachedBlockHashToBlock := .empty
        blockHash := fun _ => none })

end BlockPool

end TokenCake
