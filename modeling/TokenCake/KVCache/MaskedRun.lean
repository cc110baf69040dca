import TokenCake.KVCache.Manager
import TokenCake.Library.Agrees

/-!
# Caching with and without the mask of sliding windows

A sliding window leaves blocks out of the prefix cache that no aligned hit should
need.  Next to the coordinator stands one that caches all full blocks.  On the same
operations the two keep the same tables, reference counts and free blocks, and the
cache of the first is that of the second, restricted to the positions that the mask
keeps.
-/

namespace TokenCake

open List Nat Dict BlockPool BlockHashToBlockMap

variable {spec : KVCacheSpec} {index : Nat} {kept : BlockHashWithGroupId → Bool}
  {masked unmasked : BlockPool}

namespace KVCacheSpec

/-- Number of blocks at the end of a segment that the window needs. -/
def tailBlocks (spec : KVCacheSpec) (slidingWindow : Nat) : Nat :=
  (cdiv ((slidingWindow : Int) - 1) spec.blockSize).toNat

/-- The window needs less than the blocks of a segment, so that some are masked. -/
def isMasked (spec : KVCacheSpec) (alignmentTokens : Nat) : Bool :=
  match spec.kind with
  | .slidingWindow window =>
    decide (spec.blockSize < alignmentTokens) &&
      decide (spec.tailBlocks window < alignmentTokens / spec.blockSize)
  | _ => false

/-- Whether a block at a position enters the prefix cache. -/
def keepsBlock (spec : KVCacheSpec) (alignmentTokens : Option Nat) (index : Nat) : Bool :=
  match alignmentTokens, spec.kind with
  | some alignment, .slidingWindow window =>
    !spec.isMasked alignment || decide (index % (alignment / spec.blockSize) ≥
        alignment / spec.blockSize - spec.tailBlocks window)
  | _, _ => true

theorem keepsBlock_of_not_isMasked (unmasked : spec.isMasked alignment = false)
    (index : Nat) : spec.keepsBlock (some alignment) index = true := by
  unfold keepsBlock
  split <;> simp_all

/-- The mask of a call of `cacheBlocks`. -/
def maskOf (spec : KVCacheSpec) (numCachedBlocks numFullBlocks : Nat)
    (alignmentTokens : Option Nat) : Option (List Bool) :=
  match alignmentTokens with
  | none => none
  | some alignment =>
    if alignment ≤ spec.blockSize then none
    else spec.cacheBlockMask numCachedBlocks numFullBlocks alignment

/-- The mask says of each new block whether its position is kept. -/
theorem maskOf_getElem?
    (spec : KVCacheSpec) (numCachedBlocks numFullBlocks : Nat) (alignment : Option Nat)
    {count : Nat} {wanted : Bool}
    (found : ((spec.maskOf numCachedBlocks numFullBlocks alignment).getD
      (List.replicate count true))[index]? = some wanted) :
    wanted = spec.keepsBlock alignment (numCachedBlocks + index) := by
  have constant : ∀ {length : Nat}, (List.replicate length true)[index]? = some wanted →
      wanted = true := fun found => List.eq_of_mem_replicate (List.mem_of_getElem? found)
  cases alignment with
  | none => exact constant found
  | some alignment =>
    unfold maskOf at found
    dsimp only at found
    split at found
    · next small =>
      rw [keepsBlock_of_not_isMasked]
      · exact constant found
      · unfold isMasked
        split
        · simp [not_lt.mpr small]
        · rfl
    · next large =>
      unfold cacheBlockMask at found
      unfold keepsBlock isMasked tailBlocks
      cases kind : spec.kind with
      | fullAttention | chunkedLocalAttention chunk =>
        rw [kind] at found
        exact constant found
      | slidingWindow window =>
        rw [kind] at found
        dsimp only at found ⊢
        split at found
        · next long =>
          rw [constant found]
          simp [not_lt.mpr long]
        · next short =>
          rw [Option.getD_some, List.getElem?_map, Option.map_eq_some_iff] at found
          obtain ⟨position, atIndex, rfl⟩ := found
          obtain ⟨bound, rfl⟩ := List.getElem?_eq_some_iff.mp atIndex
          simp [List.getElem_range', not_le.mp large, not_le.mp short]

end KVCacheSpec

namespace BlockHashToBlockMap

variable {cache other : BlockHashToBlockMap} {key different : BlockHashWithGroupId}

theorem get?_insert_of_ne (distinct : different ≠ key) (block : BlockId) :
    (cache.insert key block).get? different = cache.get? different := by
  unfold insert
  split <;> exact get?_set_of_ne _ distinct _

theorem get?_insert_congr (same : cache.get? key = other.get? key) (block : BlockId) :
    (cache.insert key block).get? key = (other.insert key block).get? key := by
  unfold insert
  rw [same]
  split <;> rw [get?_set_self, get?_set_self]

theorem get?_pop_of_ne (distinct : different ≠ key) (block : BlockId) :
    (cache.pop key block).2.get? different = cache.get? different := by
  have erased : (cache.erase key).get? different = cache.get? different := by
    rw [get?_erase, if_neg distinct]
  unfold pop
  split
  · rfl
  · split
    · exact erased
    · rfl
  · split
    · dsimp only
      split
      · exact erased
      · exact get?_set_of_ne _ distinct _
    · rfl

theorem pop_congr (same : cache.get? key = other.get? key) (block : BlockId) :
    (cache.pop key block).1 = (other.pop key block).1 ∧
      (cache.pop key block).2.get? key = (other.pop key block).2.get? key := by
  unfold pop
  rw [same]
  split
  · exact ⟨rfl, same⟩
  · split
    · exact ⟨rfl, by rw [get?_erase_self, get?_erase_self]⟩
    · exact ⟨rfl, same⟩
  · split
    · dsimp only
      split
      · exact ⟨rfl, by rw [get?_erase_self, get?_erase_self]⟩
      · exact ⟨rfl, by rw [get?_set_self, get?_set_self]⟩
    · exact ⟨rfl, same⟩

end BlockHashToBlockMap

namespace BlockPool

variable {key : BlockHashWithGroupId} {block : BlockId} {pool : BlockPool}

theorem maybeEvictCachedBlock_of_none
    (unhashed : pool.blockHash block = none) : pool.maybeEvictCachedBlock block = pool := by
  unfold maybeEvictCachedBlock
  rw [unhashed]

theorem maybeEvictCachedBlock_of_some (hashed : pool.blockHash block = some key) :
    pool.maybeEvictCachedBlock block = if (pool.cachedBlockHashToBlock.pop key block).1 then
        { pool with
          cachedBlockHashToBlock := (pool.cachedBlockHashToBlock.pop key block).2
          blockHash := fun other => if other = block then none else pool.blockHash other }
      else pool := by
  unfold maybeEvictCachedBlock
  rw [hashed]
  dsimp only
  generalize pool.cachedBlockHashToBlock.pop key block = popped
  obtain ⟨found, cache⟩ := popped
  cases found <;> rfl

/-- Two pools that only differ in the cache: the first one has the blocks of the keys
that are kept. -/
structure Restricts (kept : BlockHashWithGroupId → Bool) (masked unmasked : BlockPool) : Prop where
  numGpuBlocks : masked.numGpuBlocks = unmasked.numGpuBlocks
  enableCaching : masked.enableCaching = unmasked.enableCaching
  hashBlockSize : masked.hashBlockSize = unmasked.hashBlockSize
  refCnt : masked.refCnt = unmasked.refCnt
  freeBlockQueue : masked.freeBlockQueue = unmasked.freeBlockQueue
  blockHash : ∀ block, masked.blockHash block = (unmasked.blockHash block).filter kept
  cached : ∀ key, masked.cachedBlockHashToBlock.get? key =
    if kept key then unmasked.cachedBlockHashToBlock.get? key else none

namespace Restricts

theorem init (numGpuBlocks : Nat) (enableCaching : Bool) (hashBlockSize : Nat) :
    Restricts kept (.init numGpuBlocks enableCaching hashBlockSize)
      (.init numGpuBlocks enableCaching hashBlockSize) :=
  ⟨rfl, rfl, rfl, rfl, rfl, fun _ => rfl, fun key => by simp [BlockPool.init]⟩

section

variable (related : Restricts kept masked unmasked)

include related

theorem withRefCnt (refCnt : BlockId → Int) :
    Restricts kept { masked with refCnt := refCnt } { unmasked with refCnt := refCnt } :=
  { related with refCnt := rfl }

theorem withCounts (refCnt : BlockId → Int) (queue : FreeKVCacheBlockQueue) :
    Restricts kept { masked with refCnt := refCnt, freeBlockQueue := queue }
      { unmasked with refCnt := refCnt, freeBlockQueue := queue } :=
  { related with refCnt := rfl, freeBlockQueue := rfl }

theorem withQueue (queue : FreeKVCacheBlockQueue) :
    Restricts kept { masked with freeBlockQueue := queue }
      { unmasked with freeBlockQueue := queue } :=
  { related with freeBlockQueue := rfl }

theorem getOneBlock (key : BlockHashWithGroupId) :
    masked.cachedBlockHashToBlock.getOneBlock key =
      if kept key then unmasked.cachedBlockHashToBlock.getOneBlock key else none := by
  unfold BlockHashToBlockMap.getOneBlock
  rw [related.cached key]
  by_cases keeps : kept key = true
  · rw [if_pos keeps, if_pos keeps]
  · rw [if_neg keeps, if_neg keeps]

theorem maybeEvictCachedBlock (block : BlockId) :
    Restricts kept (masked.maybeEvictCachedBlock block) (unmasked.maybeEvictCachedBlock block) := by
  have hash := related.blockHash block
  cases stored : unmasked.blockHash block with
  | none =>
    rw [stored, Option.filter_none] at hash
    rw [maybeEvictCachedBlock_of_none hash, maybeEvictCachedBlock_of_none stored]
    exact related
  | some key =>
    rw [maybeEvictCachedBlock_of_some stored]
    by_cases keeps : kept key = true
    · -- Both caches hold the same blocks under a kept key.
      rw [stored, Option.filter_some_pos keeps] at hash
      have same := related.cached key
      rw [if_pos keeps] at same
      obtain ⟨answer, left⟩ := pop_congr same block
      rw [maybeEvictCachedBlock_of_some hash, answer]
      split
      · refine { related with blockHash := fun other => ?_, cached := fun other => ?_ }
        · by_cases equal : other = block
          · simp [equal]
          · simpa [equal] using related.blockHash other
        · by_cases equal : other = key
          · rw [equal, if_pos keeps]
            exact left
          · rw [get?_pop_of_ne equal, get?_pop_of_ne equal]
            exact related.cached other
      · exact related
    · -- Only the unmasked cache holds the block.
      rw [stored, Option.filter_some_neg (Bool.not_eq_true _ ▸ keeps)] at hash
      rw [maybeEvictCachedBlock_of_none hash]
      split
      · refine { related with blockHash := fun other => ?_, cached := fun other => ?_ }
        · by_cases equal : other = block
          · simp [equal, hash]
          · simpa [equal] using related.blockHash other
        · rw [related.cached other]
          by_cases equal : other = key
          · rw [equal, if_neg keeps, if_neg keeps]
          · rw [get?_pop_of_ne equal]
      · exact related

theorem takeNewBlock (block : BlockId) :
    Relates (Restricts kept) (masked.takeNewBlock block) (unmasked.takeNewBlock block) := by
  have evicted : Restricts kept
      (if masked.enableCaching then masked.maybeEvictCachedBlock block else masked)
      (if unmasked.enableCaching then unmasked.maybeEvictCachedBlock block else unmasked) := by
    rw [related.enableCaching]
    split
    · exact related.maybeEvictCachedBlock block
    · exact related
  unfold BlockPool.takeNewBlock
  dsimp only
  generalize (if masked.enableCaching then masked.maybeEvictCachedBlock block else masked) =
    maskedEvicted at *
  generalize (if unmasked.enableCaching then unmasked.maybeEvictCachedBlock block
    else unmasked) = unmaskedEvicted at *
  rw [evicted.refCnt]
  exact (Relates.self _).bind fun _ _ _ => .ok (evicted.withRefCnt _)

/-- Both pools hand out the same blocks. -/
theorem getNewBlocks (numBlocks : Int) :
    Relates (fun left right => left.1 = right.1 ∧ Restricts kept left.2 right.2)
      (masked.getNewBlocks numBlocks) (unmasked.getNewBlocks numBlocks) := by
  unfold BlockPool.getNewBlocks BlockPool.getNumFreeBlocks
  rw [related.freeBlockQueue]
  split
  · exact .error_left _ _
  · refine (Relates.self _).bind ?_
    rintro ⟨blocks, queue⟩ _ rfl
    have taken := Relates.foldlM (fun _ _ item related => takeNewBlock related item) blocks
      (related.withQueue queue)
    exact taken.bind fun _ _ related => .ok ⟨rfl, related⟩

theorem touchBlock (block : BlockId) :
    Relates (Restricts kept) (masked.touchBlock block) (unmasked.touchBlock block) := by
  unfold BlockPool.touchBlock
  rw [related.refCnt, related.freeBlockQueue]
  split
  · refine (Relates.self _).bind ?_
    rintro queue _ rfl
    exact .ok (related.withCounts _ queue)
  · exact .ok (related.withCounts ..)

theorem touch (blocks : List BlockId) :
    Relates (Restricts kept) (masked.touch blocks) (unmasked.touch blocks) :=
  Relates.foldlM (fun _ _ item related => related.touchBlock item) blocks related

theorem freeBlocks (blocks : List BlockId) :
    Restricts kept (masked.freeBlocks blocks) (unmasked.freeBlocks blocks) := by
  unfold BlockPool.freeBlocks
  rw [related.refCnt, related.freeBlockQueue]
  exact related.withCounts ..

/-- A block whose key is kept enters both caches. -/
theorem cacheFullBlock_of_kept (keeps : kept key = true) (block : BlockId) :
    Relates (Restricts kept) (masked.cacheFullBlock block key)
      (unmasked.cacheFullBlock block key) := by
  refine Relates.bind (fun _ _ _ _ => trivial : Relates (fun _ _ => True) _ _) fun _ _ _ => ?_
  refine .ok { related with blockHash := fun other => ?_, cached := fun other => ?_ }
  · by_cases equal : other = block
    · simp [equal, Option.filter_some_pos keeps]
    · simpa [equal] using related.blockHash other
  · have same := related.cached key
    rw [if_pos keeps] at same
    by_cases equal : other = key
    · rw [equal, if_pos keeps]
      exact get?_insert_congr same block
    · rw [get?_insert_of_ne equal, get?_insert_of_ne equal]
      exact related.cached other

/-- A block whose key is masked enters the unmasked cache only. -/
theorem cacheFullBlock_of_masked (skips : kept key = false) {next : BlockPool}
    (returned : unmasked.cacheFullBlock block key = .ok next) : Restricts kept masked next := by
  obtain ⟨_, checked, returned⟩ := bind_eq_ok.mp returned
  have unhashed := of_decide_eq_true (ensure_eq_ok.mp checked)
  cases returned
  refine { related with blockHash := fun other => ?_, cached := fun other => ?_ }
  · rw [related.blockHash other]
    by_cases equal : other = block
    · simp [equal, unhashed, Option.filter_some_neg skips]
    · simp [equal]
  · rw [related.cached other]
    by_cases equal : other = key
    · rw [equal, skips]
      rfl
    · rw [get?_insert_of_ne equal]

/-- The blocks that the mask wants enter both caches, the others only one. -/
theorem cacheBlocksFrom
    {groupId : Nat} {entries : List (BlockId × Bool)} {hashes : List (List Bytes)}
    (wanted : ∀ (index : Nat) (entry : BlockId × Bool) (key : List Bytes),
      entries[index]? = some entry → hashes[index]? = some key →
        entry.2 = kept { hashes := key, groupId := groupId }) :
    Relates (Restricts kept) (BlockPool.cacheBlocksFrom groupId entries hashes masked)
      (BlockPool.cacheBlocksFrom groupId (entries.map fun entry => (entry.1, true)) hashes
        unmasked) := by
  induction entries generalizing hashes masked unmasked with
  | nil => exact .ok related
  | cons entry entries ih =>
    obtain ⟨block, want⟩ := entry
    have later : ∀ (index : Nat) (entry : BlockId × Bool) (key : List Bytes),
        entries[index]? = some entry → hashes.tail[index]? = some key →
          entry.2 = kept { hashes := key, groupId := groupId } := by
      intro index entry key found hashed
      rw [getElem?_tail] at hashed
      exact wanted (index + 1) entry key found hashed
    rw [map_cons]
    unfold cacheBlocksFrom
    by_cases isNull : block = nullBlock
    · rw [if_pos (.inl isNull), if_pos (.inl isNull)]
      exact ih related later
    · have unmaskedTakes : ¬ (block = nullBlock ∨ true = false) := by simp [isNull]
      rw [if_neg unmaskedTakes]
      cases hashes with
      | nil => exact .error_right _ _
      | cons key rest =>
        have keyWanted : want = kept { hashes := key, groupId := groupId } :=
          wanted 0 (block, want) key rfl rfl
        cases want with
        | false =>
          rw [if_pos (.inr rfl)]
          intro left right leftReturned rightReturned
          obtain ⟨between, cached, rightReturned⟩ := bind_eq_ok.mp rightReturned
          exact ih (related.cacheFullBlock_of_masked keyWanted.symm cached) later left right
            leftReturned rightReturned
        | true =>
          rw [if_neg unmaskedTakes]
          exact (related.cacheFullBlock_of_kept keyWanted.symm block).bind
            fun _ _ related => ih related later

end

theorem zip_replicate_true {blocks : List BlockId} {mask : List Bool}
    (length : mask.length = blocks.length) :
    blocks.zip (List.replicate blocks.length true) =
      (blocks.zip mask).map fun entry => (entry.1, true) := by
  induction blocks generalizing mask with
  | nil => rfl
  | cons block blocks ih =>
    cases mask with
    | nil => cases length
    | cons want mask =>
      rw [length_cons, replicate_succ, zip_cons_cons, zip_cons_cons, map_cons, ih (succ.inj length)]

theorem cacheFullBlocks
    (related : Restricts kept masked unmasked) (blockHashes : List Bytes) (blocks : List BlockId)
    (numCachedBlocks numFullBlocks blockSize groupId : Nat) (blockMask : Option (List Bool))
    (wanted : ∀ (count index : Nat) (want : Bool) (key : List Bytes),
      (blockMask.getD (List.replicate count true))[index]? = some want →
        (unmasked.scaledHashes blockHashes blockSize)[numCachedBlocks + index]? = some key →
          want = kept { hashes := key, groupId := groupId }) :
    Relates (Restricts kept)
      (masked.cacheFullBlocks blockHashes blocks numCachedBlocks numFullBlocks blockSize groupId
        blockMask)
      (unmasked.cacheFullBlocks blockHashes blocks numCachedBlocks numFullBlocks blockSize
        groupId none) := by
  have scaled : masked.scaledHashes = unmasked.scaledHashes := by
    unfold BlockPool.scaledHashes
    rw [related.hashBlockSize]
  unfold BlockPool.cacheFullBlocks
  rw [scaled, related.hashBlockSize]
  split
  · exact .ok related
  · refine (Relates.self _).bind fun _ _ _ => ?_
    intro left right leftReturned rightReturned
    obtain ⟨_, sameLength, leftReturned⟩ := bind_eq_ok.mp leftReturned
    obtain ⟨_, -, rightReturned⟩ := bind_eq_ok.mp rightReturned
    have length := of_decide_eq_true (ensure_eq_ok.mp sameLength)
    refine (Relates.self _).bind (fun _ _ _ => ?_) left right leftReturned rightReturned
    rw [Option.getD_none, zip_replicate_true length]
    refine related.cacheBlocksFrom fun index entry key found hashed => ?_
    rw [getElem?_drop] at hashed
    exact wanted _ index entry.2 key (getElem?_zip_eq_some.mp found).2 hashed

end Restricts

end BlockPool

namespace SingleTypeKVCacheManager

/-- The group of a manager, which no operation changes. -/
def group (manager : SingleTypeKVCacheManager) : KVCacheSpec × Nat :=
  (manager.kvCacheSpec, manager.kvCacheGroupId)

/-- Two results that only differ in the cache, for a manager of the same group. -/
structure Alike (kept : BlockHashWithGroupId → Bool) (manager : SingleTypeKVCacheManager)
    (left right : SingleTypeKVCacheManager × BlockPool) : Prop where
  same : left.1 = right.1
  group : left.1.group = manager.group
  pool : BlockPool.Restricts kept left.2 right.2

variable (manager : SingleTypeKVCacheManager)

section

variable (related : BlockPool.Restricts kept masked unmasked)

include related

theorem allocateNewComputedBlocks_alike (id : RequestId) (hits : List BlockId)
    (numLocal numExternal : Int) :
    Relates (Alike kept manager)
      (manager.allocateNewComputedBlocks masked id hits numLocal numExternal)
      (manager.allocateNewComputedBlocks unmasked id hits numLocal numExternal) := by
  unfold allocateNewComputedBlocks
  split
  · exact (Relates.self _).bind fun _ _ _ => .ok ⟨rfl, rfl, related⟩
  · refine (Relates.self _).bind fun _ _ _ => ?_
    have touched : Relates (Restricts kept) (manager.touchComputed masked (hits.drop
          (manager.kvCacheSpec.getNumSkippedTokens (numLocal +
            numExternal) / manager.blockSize).toNat))
        (manager.touchComputed unmasked (hits.drop
          (manager.kvCacheSpec.getNumSkippedTokens (numLocal +
            numExternal) / manager.blockSize).toNat)) := by
      unfold touchComputed
      split
      · exact related.touch _
      · exact (Relates.self _).bind fun _ _ _ => .ok related
    refine touched.bind fun left right related => ?_
    generalize (if _ > 0 then _ else numExternal : Int) = external
    split
    · refine (related.getNewBlocks _).bind ?_
      rintro ⟨blocks, left⟩ ⟨_, right⟩ ⟨rfl, related⟩
      exact .ok ⟨rfl, rfl, related⟩
    · exact .ok ⟨rfl, rfl, related⟩

theorem allocateNewBlocks_alike (id : RequestId) (numTokens : Int) :
    Relates (fun left right => left.1 = right.1 ∧ Alike kept manager left.2 right.2)
      (manager.allocateNewBlocks masked id numTokens)
      (manager.allocateNewBlocks unmasked id numTokens) := by
  unfold allocateNewBlocks
  dsimp only
  split
  · exact .ok ⟨rfl, rfl, rfl, related⟩
  · refine (related.getNewBlocks _).bind ?_
    rintro ⟨blocks, left⟩ ⟨_, right⟩ ⟨rfl, related⟩
    exact .ok ⟨rfl, rfl, rfl, related⟩

theorem free_alike (id : RequestId) :
    Alike kept manager (manager.free masked id) (manager.free unmasked id) :=
  ⟨rfl, rfl, related.freeBlocks _⟩

theorem removeSkippedBlocks_alike (id : RequestId) (total : Int) :
    Alike kept manager (manager.removeSkippedBlocks masked id total)
      (manager.removeSkippedBlocks unmasked id total) := by
  unfold removeSkippedBlocks
  dsimp only
  split
  · exact ⟨rfl, rfl, related⟩
  · exact ⟨rfl, rfl, related.freeBlocks _⟩

/-- Caching with the mask on one side and without it on the other, if the mask keeps
the positions of the keys that are kept. -/
theorem cacheBlocks_alike (request : Request) (numTokens : Int) (alignment : Option Nat)
    (keeps : ∀ (index : Nat) (key : List Bytes),
      (unmasked.scaledHashes request.blockHashes manager.blockSize)[index]? = some key →
        kept { hashes := key, groupId := manager.kvCacheGroupId } =
          manager.kvCacheSpec.keepsBlock alignment index) :
    Relates (Alike kept manager) (manager.cacheBlocks masked request numTokens alignment)
      (manager.cacheBlocks unmasked request numTokens none) := by
  unfold cacheBlocks
  dsimp only
  split
  · exact .ok ⟨rfl, rfl, related⟩
  · have cached := related.cacheFullBlocks request.blockHashes
      (manager.blocksOf request.requestId) (manager.numCachedBlock.getD request.requestId 0)
      (numTokens / manager.blockSize).toNat manager.blockSize manager.kvCacheGroupId
      (manager.kvCacheSpec.maskOf (manager.numCachedBlock.getD request.requestId 0)
        (numTokens / manager.blockSize).toNat alignment)
      fun count index want key found hashed =>
        (manager.kvCacheSpec.maskOf_getElem? _ _ alignment found).trans
          (keeps _ key hashed).symm
    exact cached.bind fun _ _ related => .ok ⟨rfl, rfl, related⟩

end

end SingleTypeKVCacheManager

namespace KVCacheCoordinator

/-- Cache all full blocks of a request, whether the lookup needs them or not. -/
def cacheAllBlocks (coordinator : KVCacheCoordinator) (request : Request)
    (numComputedTokens : Int) : Except ResourceError KVCacheCoordinator := do
  let (numTokens, _) := coordinator.cacheExtent numComputedTokens
  let (_, managers, pool) ←
    eachManager (fun _ manager pool => do
        let (manager, pool) ← manager.cacheBlocks pool request numTokens none
        return ((), manager, pool))
      0 coordinator.singleTypeManagers coordinator.blockPool
  return coordinator.withManagers managers pool

/-- Results for several managers that only differ in the cache. -/
structure AlikeManagers
    (kept : BlockHashWithGroupId → Bool) (managers : List SingleTypeKVCacheManager)
    (left right : List SingleTypeKVCacheManager × BlockPool) : Prop where
  same : left.1 = right.1
  groups : left.1.map SingleTypeKVCacheManager.group = managers.map SingleTypeKVCacheManager.group
  pool : BlockPool.Restricts kept left.2 right.2

theorem eachManager_alike
    {leftOperation rightOperation : Nat → SingleTypeKVCacheManager → BlockPool →
      Except ResourceError (α × SingleTypeKVCacheManager × BlockPool)}
    {managers : List SingleTypeKVCacheManager}
    (step : ∀ index, ∀ manager ∈ managers, ∀ left right, BlockPool.Restricts kept left right →
      Relates (fun left right => left.1 = right.1 ∧ manager.Alike kept left.2 right.2)
        (leftOperation index manager left) (rightOperation index manager right))
    (index : Nat) (related : BlockPool.Restricts kept masked unmasked) :
    Relates (fun left right => left.1 = right.1 ∧ AlikeManagers kept managers left.2 right.2)
      (eachManager leftOperation index managers masked)
      (eachManager rightOperation index managers unmasked) := by
  induction managers generalizing index masked unmasked with
  | nil => exact .ok ⟨rfl, rfl, rfl, related⟩
  | cons manager managers ih =>
    refine (step index manager mem_cons_self _ _ related).bind ?_
    rintro ⟨result, changed, left⟩ ⟨_, _, right⟩ ⟨rfl, rfl, group, related⟩
    have rest := ih (fun index manager mem =>
      step index manager (mem_cons_of_mem _ mem)) (index + 1) related
    refine rest.bind ?_
    rintro ⟨results, others, left⟩ ⟨_, _, right⟩ ⟨rfl, rfl, groups, related⟩
    refine .ok ⟨rfl, rfl, ?_, related⟩
    exact congrArg₂ cons group groups

theorem mapManagers_alike
    (step : ∀ (manager : SingleTypeKVCacheManager) left right, BlockPool.Restricts kept left right →
        manager.Alike kept (operation manager left) (operation manager right))
    (managers : List SingleTypeKVCacheManager)
    (related : BlockPool.Restricts kept masked unmasked) :
    AlikeManagers kept managers (mapManagers operation managers masked)
      (mapManagers operation managers unmasked) := by
  induction managers generalizing masked unmasked with
  | nil => exact ⟨rfl, rfl, related⟩
  | cons manager managers ih =>
    have first := step manager masked unmasked related
    have rest := ih first.pool
    exact ⟨congrArg₂ cons first.same rest.same, congrArg₂ cons first.group rest.groups, rest.pool⟩

/-- Two coordinators of a layout that only differ in the cache. -/
structure MaskedBy (kept : BlockHashWithGroupId → Bool) (specs : List KVCacheSpec)
    (enableCaching : Bool) (masked unmasked : KVCacheCoordinator) : Prop where
  managers : masked.singleTypeManagers = unmasked.singleTypeManagers
  groups : unmasked.singleTypeManagers.map SingleTypeKVCacheManager.group = specs.zipIdx
  maskedCaching : masked.enableCaching = enableCaching
  unmaskedCaching : unmasked.enableCaching = enableCaching
  eagleGroupIds : masked.eagleGroupIds = unmasked.eagleGroupIds
  pool : BlockPool.Restricts kept masked.blockPool unmasked.blockPool

/-- The alignment of hits in a layout, if there is one. -/
def layoutAlignment (specs : List KVCacheSpec) (enableCaching : Bool) : Option Nat :=
  if !enableCaching || decide (specs.length = 1) then none
  else some (HybridSearch.init specs []).lcmBlockSize

/-- Whether the mask keeps a key, by the position of its hashes. -/
def keptKey (specs : List KVCacheSpec) (alignmentTokens : Option Nat) (position : Bytes → Nat)
    (key : BlockHashWithGroupId) : Bool :=
  match specs[key.groupId]?, key.hashes.head? with
  | some spec, some hash =>
    spec.keepsBlock alignmentTokens (position hash / key.hashes.length)
  | _, _ => true

end KVCacheCoordinator

/-- Every hash stands at the position that is given for it. -/
def Positioned (position : Bytes → Nat) (blockHashes : List Bytes) : Prop :=
  ∀ index hash, blockHashes[index]? = some hash → position hash = index

variable {position : Bytes → Nat}

/-- The key of a block tells its position. -/
theorem BlockPool.keptKey_scaledHashes (pool : BlockPool)
    {specs : List KVCacheSpec} {alignment : Option Nat} {blockHashes : List Bytes}
    (positioned : Positioned position blockHashes) {groupId : Nat}
    (listed : specs[groupId]? = some spec) {blockSize : Nat} {key : List Bytes}
    (found : (pool.scaledHashes blockHashes blockSize)[index]? = some key) :
    KVCacheCoordinator.keptKey specs alignment position
        { hashes := key, groupId := groupId } =
      spec.keepsBlock alignment index := by
  unfold scaledHashes at found
  generalize blockSize / pool.hashBlockSize = factor at found
  rw [List.getElem?_map, Option.map_eq_some_iff] at found
  obtain ⟨_, atIndex, rfl⟩ := found
  obtain ⟨inside, rfl⟩ := List.getElem?_eq_some_iff.mp atIndex
  rw [List.length_range] at inside
  rw [List.getElem_range]
  have positive : 0 < factor := by
    by_contra zero
    rw [show factor = 0 by omega, Nat.div_zero] at inside
    omega
  have fits : (index + 1) * factor ≤ blockHashes.length :=
    (Nat.le_div_iff_mul_le positive).mp inside
  have expanded : (index + 1) * factor = index * factor + factor := Nat.succ_mul index factor
  have length : (slice blockHashes (index * factor) ((index + 1) * factor)).length = factor := by
    unfold slice
    rw [List.length_drop, List.length_take, min_eq_left fits]
    omega
  have head : (slice blockHashes (index * factor) ((index + 1) * factor)).head? =
      blockHashes[index * factor]? := by
    unfold slice
    rw [List.head?_drop, List.getElem?_take, if_pos (by omega)]
  unfold KVCacheCoordinator.keptKey
  rw [listed, head, length]
  cases stored : blockHashes[index * factor]? with
  | none =>
    rw [List.getElem?_eq_none_iff] at stored
    omega
  | some hash =>
    dsimp only
    rw [positioned _ hash stored, Nat.mul_div_cancel _ positive]

/-- The operations of the coordinator that change tables or the cache. -/
inductive CoordinatorOperation where
  | allocateNewComputedBlocks (requestId : RequestId) (newComputedBlocks : KVCacheBlocks)
      (numLocalComputedTokens numExternalComputedTokens : Int)
  | allocateNewBlocks (requestId : RequestId) (numTokens : Int)
  | removeSkippedBlocks (requestId : RequestId) (totalComputedTokens : Int)
  | cacheBlocks (request : Request) (numComputedTokens : Int)
  | free (requestId : RequestId)

namespace CoordinatorOperation

/-- The state after an operation, with the mask of sliding windows or without it. -/
def apply (useMask : Bool) (coordinator : KVCacheCoordinator) :
    CoordinatorOperation → Except ResourceError KVCacheCoordinator
  | allocateNewComputedBlocks requestId blocks numLocalComputedTokens numExternalComputedTokens =>
    coordinator.allocateNewComputedBlocks requestId blocks numLocalComputedTokens
      numExternalComputedTokens
  | allocateNewBlocks requestId numTokens => do
      let (_, next) ← coordinator.allocateNewBlocks requestId numTokens
      return next
  | removeSkippedBlocks requestId totalComputedTokens =>
    .ok (coordinator.removeSkippedBlocks requestId totalComputedTokens)
  | cacheBlocks request numComputedTokens =>
    if useMask then coordinator.cacheBlocks request numComputedTokens
    else coordinator.cacheAllBlocks request numComputedTokens
  | free requestId => .ok (coordinator.free requestId)

/-- An operation whose request has each hash at one position. -/
def IsPositioned (position : Bytes → Nat) : CoordinatorOperation → Prop
  | cacheBlocks request _ => Positioned position request.blockHashes
  | _ => True

end CoordinatorOperation

namespace KVCacheCoordinator

namespace MaskedBy

variable {specs : List KVCacheSpec} {enableCaching : Bool} {masked unmasked : KVCacheCoordinator}

/-- Both coordinators go on with the results of their managers. -/
theorem withManagers (related : MaskedBy kept specs enableCaching masked unmasked)
    {left right : List SingleTypeKVCacheManager × BlockPool}
    (alike : AlikeManagers kept unmasked.singleTypeManagers left right) :
    MaskedBy kept specs enableCaching (masked.withManagers left.1 left.2)
      (unmasked.withManagers right.1 right.2) :=
  ⟨alike.same, (alike.same ▸ alike.groups).trans related.groups, related.maskedCaching,
    related.unmaskedCaching, related.eagleGroupIds, alike.pool⟩

section

variable (related : MaskedBy kept specs enableCaching masked unmasked) (id : RequestId)

include related

theorem free : MaskedBy kept specs enableCaching (masked.free id) (unmasked.free id) := by
  unfold KVCacheCoordinator.free
  rw [related.managers]
  exact related.withManagers (mapManagers_alike
    (fun manager _ _ pools => manager.free_alike pools id) _ related.pool)

theorem removeSkippedBlocks (total : Int) :
    MaskedBy kept specs enableCaching (masked.removeSkippedBlocks id total)
      (unmasked.removeSkippedBlocks id total) := by
  unfold KVCacheCoordinator.removeSkippedBlocks
  rw [related.managers]
  exact related.withManagers (mapManagers_alike (fun manager _ _ pools =>
    manager.removeSkippedBlocks_alike pools id total) _ related.pool)

theorem allocateNewComputedBlocks (blocks : KVCacheBlocks) (numLocal numExternal : Int) :
    Relates (MaskedBy kept specs enableCaching)
      (masked.allocateNewComputedBlocks id blocks numLocal numExternal)
      (unmasked.allocateNewComputedBlocks id blocks numLocal numExternal) := by
  unfold KVCacheCoordinator.allocateNewComputedBlocks
  rw [related.managers]
  refine (eachManager_alike (fun index manager _ left right pools => ?_) 0 related.pool).bind
    fun left right alike => .ok (related.withManagers alike.2)
  refine (manager.allocateNewComputedBlocks_alike pools id (blocks.getD index [])
    numLocal numExternal).bind ?_
  exact fun _ _ alike => .ok ⟨rfl, alike⟩

theorem allocateNewBlocks (numTokens : Int) :
    Relates (fun left right => MaskedBy kept specs enableCaching left.2 right.2)
      (masked.allocateNewBlocks id numTokens) (unmasked.allocateNewBlocks id numTokens) := by
  unfold KVCacheCoordinator.allocateNewBlocks
  rw [related.managers]
  refine (eachManager_alike (fun _ manager _ left right pools => ?_) 0 related.pool).bind
    fun left right alike => .ok (related.withManagers alike.2)
  exact manager.allocateNewBlocks_alike pools id numTokens

/-- The specifications of the managers are those of the layout. -/
theorem specs_eq :
    unmasked.singleTypeManagers.map SingleTypeKVCacheManager.kvCacheSpec = specs := by
  have firsts := congrArg (map Prod.fst) related.groups
  rw [map_map, zipIdx_map_fst] at firsts
  exact firsts

theorem specs_getElem? {manager : SingleTypeKVCacheManager}
    (mem : manager ∈ unmasked.singleTypeManagers) :
    specs[manager.kvCacheGroupId]? = some manager.kvCacheSpec := by
  have listed := mem_map_of_mem (f := SingleTypeKVCacheManager.group) mem
  rw [related.groups] at listed
  exact mem_zipIdx_iff_getElem?.mp listed

theorem cacheExtent (numComputed : Int) :
    masked.cacheExtent numComputed = unmasked.cacheExtent numComputed ∧
      (unmasked.cacheExtent numComputed).2 = layoutAlignment specs enableCaching := by
  have lengths : unmasked.singleTypeManagers.length = specs.length := by
    rw [← related.specs_eq, length_map]
  constructor
  · unfold KVCacheCoordinator.cacheExtent hybridSearch
    rw [related.managers, related.maskedCaching, related.unmaskedCaching, related.eagleGroupIds]
  · unfold KVCacheCoordinator.cacheExtent layoutAlignment hybridSearch
    rw [lengths, related.specs_eq, related.unmaskedCaching]
    split <;> rfl

end

section

variable
  (related : MaskedBy (keptKey specs (layoutAlignment specs enableCaching) position) specs
    enableCaching masked unmasked)

include related

/-- Caching under the mask on one side and of all blocks on the other. -/
theorem cacheBlocks {request : Request}
    (positioned : Positioned position request.blockHashes) (numComputed : Int) :
    Relates (MaskedBy (keptKey specs (layoutAlignment specs enableCaching) position) specs
        enableCaching) (masked.cacheBlocks request numComputed)
      (unmasked.cacheAllBlocks request numComputed) := by
  obtain ⟨sameExtent, alignment⟩ := related.cacheExtent numComputed
  unfold KVCacheCoordinator.cacheBlocks KVCacheCoordinator.cacheAllBlocks
  rw [sameExtent, related.managers]
  generalize unmasked.cacheExtent numComputed = extent at alignment
  obtain ⟨numTokens, _⟩ := extent
  subst alignment
  refine (eachManager_alike (fun _ manager mem left right pools => ?_) 0 related.pool).bind
    fun left right alike => .ok (related.withManagers alike.2)
  refine (manager.cacheBlocks_alike pools request numTokens _ fun index key found => ?_).bind
    fun _ _ alike => .ok ⟨rfl, alike⟩
  exact right.keptKey_scaledHashes positioned (related.specs_getElem? mem) found

theorem apply (operation : CoordinatorOperation) (positioned : operation.IsPositioned position) :
    Relates (MaskedBy (keptKey specs (layoutAlignment specs enableCaching) position) specs
        enableCaching) (CoordinatorOperation.apply true masked operation)
      (CoordinatorOperation.apply false unmasked operation) := by
  cases operation with
  | allocateNewComputedBlocks id blocks numLocal numExternal =>
    exact related.allocateNewComputedBlocks id blocks numLocal numExternal
  | allocateNewBlocks id numTokens =>
    exact (related.allocateNewBlocks id numTokens).bind fun _ _ related => .ok related
  | removeSkippedBlocks id total =>
    exact .ok (related.removeSkippedBlocks id total)
  | cacheBlocks request numComputed =>
    exact related.cacheBlocks positioned numComputed
  | free id => exact .ok (related.free id)

end

end MaskedBy

theorem maskedBy_init (kept : BlockHashWithGroupId → Bool) (specs : List KVCacheSpec)
    (numGpuBlocks hashBlockSize : Nat) (enableCaching useEagle : Bool)
    (flagged : List Nat) (maxBatched maxModelLen : Nat) :
    MaskedBy kept specs enableCaching
      (init specs numGpuBlocks hashBlockSize enableCaching useEagle flagged maxBatched maxModelLen)
      (init specs numGpuBlocks hashBlockSize enableCaching useEagle flagged
        maxBatched maxModelLen) := by
  refine ⟨rfl, ?_, rfl, rfl, rfl, .init _ _ _⟩
  unfold init
  rw [map_map]
  exact map_id _

end KVCacheCoordinator

end TokenCake
