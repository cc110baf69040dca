import TokenCake.KVCache.BlockPool
import TokenCake.Library.Machine

/-!
# The invariant of the block pool

A pool is consistent with a list of free blocks and a count of references: the
queue holds exactly the blocks without a reference, the reference counts are the
given counts, and a block has a hash exactly if the cache lists it under that hash.
Every operation of the pool has one lemma that says how the free blocks and the
references change.
-/

namespace TokenCake

open List

namespace BlockHashToBlockMap

variable {cache : BlockHashToBlockMap} {key other : BlockHashWithGroupId} {block : BlockId}

theorem getOneBlock_eq_head? : cache.getOneBlock key = (cache.blocksUnder key).head? := by
  unfold getOneBlock blocksUnder
  cases cache.get? key with
  | none => rfl
  | some blocks => cases blocks <;> rfl

theorem mem_of_getOneBlock (found : cache.getOneBlock key = some block) :
    block ∈ cache.blocksUnder key := by
  rw [getOneBlock_eq_head?] at found
  exact mem_of_mem_head? found

@[simp] theorem blocksUnder_empty : blocksUnder .empty key = [] := rfl

theorem blocksUnder_set (blocks : CachedBlocks) :
    blocksUnder (cache.set key blocks) other =
      if other = key then blocks.toList else cache.blocksUnder other := by
  unfold blocksUnder
  rw [Dict.get?_set]
  split <;> simp_all

theorem blocksUnder_erase :
    blocksUnder (cache.erase key) other = if other = key then [] else cache.blocksUnder other := by
  unfold blocksUnder
  rw [Dict.get?_erase]
  split <;> simp_all

theorem mem_blocksUnder_insert {stored : BlockId} :
    stored ∈ (cache.insert key block).blocksUnder other ↔
      stored ∈ cache.blocksUnder other ∨ (other = key ∧ stored = block) := by
  by_cases same : other = key
  · subst other
    unfold insert
    cases found : cache.get? key with
    | none => simp [blocksUnder, found, CachedBlocks.toList]
    | some blocks =>
      cases blocks with
      | one first =>
        by_cases equal : first = block
        · simp [blocksUnder, found, CachedBlocks.toList, equal]
        · simp [blocksUnder, found, CachedBlocks.toList, equal]
      | several blocks =>
        simp only [blocksUnder_set, if_true]
        by_cases mem : block ∈ blocks
        · simp only [blocksUnder, found, CachedBlocks.toList, mem, if_true, true_and,
            Option.map_some, Option.getD_some]
          constructor
          · exact Or.inl
          · rintro (inside | rfl)
            · exact inside
            · exact mem
        · simp [blocksUnder, found, CachedBlocks.toList, mem]
  · unfold insert
    cases found : cache.get? key with
    | none => simp [blocksUnder_set, same]
    | some blocks => cases blocks <;> simp [blocksUnder_set, same]

/-- A stored block is found when it is removed, and no other block is removed. -/
theorem pop_of_mem (mem : block ∈ cache.blocksUnder key) :
    ∃ rest, cache.pop key block = (true, rest) ∧ ∀ stored other, stored ∈ blocksUnder rest other ↔
        stored ∈ cache.blocksUnder other ∧ ¬ (other = key ∧ stored = block) := by
  unfold blocksUnder at mem
  unfold pop
  cases found : cache.get? key with
  | none => simp [found] at mem
  | some blocks =>
    cases blocks with
    | one first =>
      simp only [found, CachedBlocks.toList, Option.map_some, Option.getD_some,
        List.mem_singleton] at mem
      subst mem
      refine ⟨cache.erase key, by simp, ?_⟩
      intro stored other
      rw [blocksUnder_erase]
      by_cases same : other = key
      · subst other
        simp [blocksUnder, found, CachedBlocks.toList]
      · simp [same]
    | several blocks =>
      simp only [found, CachedBlocks.toList, Option.map_some, Option.getD_some] at mem
      simp only [if_pos mem]
      refine ⟨_, rfl, ?_⟩
      intro stored other
      by_cases same : other = key
      · subst other
        split
        · next empty =>
          rw [blocksUnder_erase, if_pos rfl]
          simp only [List.isEmpty_iff, List.filter_eq_nil_iff] at empty
          simp only [blocksUnder, found, CachedBlocks.toList, Option.map_some,
            Option.getD_some, List.not_mem_nil, true_and, false_iff, not_and, not_not]
          intro inside
          simpa using empty stored inside
        · rw [blocksUnder_set, if_pos rfl]
          simp [blocksUnder, found, CachedBlocks.toList]
      · split
        · rw [blocksUnder_erase, if_neg same]
          simp [same]
        · rw [blocksUnder_set, if_neg same]
          simp [same]

end BlockHashToBlockMap

/-- The blocks of a list other than the null block. -/
def nonNull (blocks : List BlockId) : List BlockId :=
  blocks.filter fun block => !decide (block = nullBlock)

theorem mem_nonNull {blocks : List BlockId} {block : BlockId} :
    block ∈ nonNull blocks ↔ block ∈ blocks ∧ block ≠ nullBlock := by
  simp [nonNull]

@[simp] theorem nonNull_append (left right : List BlockId) :
    nonNull (left ++ right) = nonNull left ++ nonNull right :=
  filter_append ..

@[simp] theorem nonNull_replicate (count : Nat) :
    nonNull (List.replicate count nullBlock) = [] := by
  simp [nonNull]

theorem nonNull_nodup_iff {blocks : List BlockId} :
    (nonNull blocks).Nodup ↔ ∀ block, block ≠ nullBlock → blocks.count block ≤ 1 := by
  rw [nodup_iff_count_le_one]
  refine forall_congr' fun block => ?_
  by_cases null : block = nullBlock
  · have absent : block ∉ nonNull blocks := fun mem => (mem_nonNull.mp mem).2 null
    simp [null, count_eq_zero.mpr (null ▸ absent)]
  · simp [nonNull, count_filter, null]

namespace BlockPool

/-- A block has a hash exactly if the cache lists it under that hash; only blocks of
the pool have one. -/
structure HashConsistent (pool : BlockPool) : Prop where
  hash : ∀ block key,
    pool.blockHash block = some key ↔ block ∈ pool.cachedBlockHashToBlock.blocksUnder key
  inPool : ∀ block key, pool.blockHash block = some key →
    block ≠ nullBlock ∧ block < pool.numGpuBlocks

/-- The queue holds the free blocks, which are those without a reference, and the
reference counts are the given ones. -/
structure Consistent (pool : BlockPool) (free : List BlockId)
    (held : BlockId → Nat) : Prop extends HashConsistent pool where
  queue : pool.freeBlockQueue.Represents free
  mem_free : ∀ block, block ∈ free ↔ block ≠ nullBlock ∧ block < pool.numGpuBlocks ∧ held block = 0
  refCnt : ∀ block, block ≠ nullBlock → pool.refCnt block = held block
  held_lt : ∀ block, block ≠ nullBlock → held block ≠ 0 → block < pool.numGpuBlocks

/-- The fixed parameters of a pool. -/
structure SameShape (before after : BlockPool) : Prop where
  numGpuBlocks : after.numGpuBlocks = before.numGpuBlocks
  enableCaching : after.enableCaching = before.enableCaching
  hashBlockSize : after.hashBlockSize = before.hashBlockSize

theorem SameShape.refl (pool : BlockPool) : SameShape pool pool := ⟨rfl, rfl, rfl⟩

theorem SameShape.trans {first second third : BlockPool} (left : SameShape first second)
    (right : SameShape second third) : SameShape first third :=
  ⟨right.numGpuBlocks.trans left.numGpuBlocks, right.enableCaching.trans left.enableCaching,
    right.hashBlockSize.trans left.hashBlockSize⟩

/-- References to the null block do not count. -/
theorem Consistent.congr {pool : BlockPool} (consistent : pool.Consistent free held)
    (same : ∀ block, block ≠ nullBlock → counted block = held block) :
    pool.Consistent free counted := by
  refine ⟨consistent.toHashConsistent, consistent.queue, ?_, ?_, ?_⟩
  · intro block
    rw [consistent.mem_free]
    refine and_congr_right fun nonNull => ?_
    rw [same block nonNull]
  · intro block nonNull
    rw [same block nonNull]
    exact consistent.refCnt block nonNull
  · intro block nonNull
    rw [same block nonNull]
    exact consistent.held_lt block nonNull

variable {pool : BlockPool} {free : List BlockId} {held : BlockId → Nat}

section Evict

theorem HashConsistent.maybeEvictCachedBlock (consistent : pool.HashConsistent) (block : BlockId) :
    ∃ cache, pool.maybeEvictCachedBlock block = { pool with
          cachedBlockHashToBlock := cache
          blockHash := fun other => if other = block then none else pool.blockHash other } ∧
      (pool.maybeEvictCachedBlock block).HashConsistent := by
  unfold BlockPool.maybeEvictCachedBlock
  cases hashed : pool.blockHash block with
  | none =>
    have unchanged : (fun other => if other = block then none else pool.blockHash other) =
        pool.blockHash := by
      funext other
      by_cases same : other = block
      · rw [if_pos same, same, hashed]
      · rw [if_neg same]
    exact ⟨pool.cachedBlockHashToBlock, by rw [unchanged], consistent⟩
  | some key =>
    obtain ⟨cache, popped, stored⟩ :=
      BlockHashToBlockMap.pop_of_mem ((consistent.hash block key).mp hashed)
    simp only [popped]
    refine ⟨cache, rfl, ?_, ?_⟩
    · intro other otherKey
      rw [stored]
      by_cases same : other = block
      · subst same
        simp only [if_true, reduceCtorEq, and_true, false_iff, not_and, not_not]
        intro mem
        have again := (consistent.hash other otherKey).mpr mem
        rw [hashed] at again
        exact (Option.some.inj again).symm
      · simp only [same, and_false, not_false_eq_true, and_true]
        exact consistent.hash other otherKey
    · intro other otherKey hashed
      dsimp only at hashed
      split at hashed
      · cases hashed
      · exact consistent.inPool other otherKey hashed

section

variable (consistent : pool.Consistent free held)

include consistent

theorem Consistent.maybeEvictCachedBlock (block : BlockId) :
    (pool.maybeEvictCachedBlock block).Consistent free held ∧
      SameShape pool (pool.maybeEvictCachedBlock block) := by
  obtain ⟨cache, evicted, hashes⟩ := consistent.toHashConsistent.maybeEvictCachedBlock block
  rw [evicted] at hashes ⊢
  exact ⟨{ consistent with toHashConsistent := hashes }, rfl, rfl, rfl⟩

theorem Consistent.evictBlocks (blocks : List BlockId) :
    (pool.evictBlocks blocks).Consistent free held ∧ SameShape pool (pool.evictBlocks blocks) := by
  induction blocks generalizing pool with
  | nil => exact ⟨consistent, .refl pool⟩
  | cons block rest ih =>
    obtain ⟨evicted, shape⟩ := consistent.maybeEvictCachedBlock block
    obtain ⟨done, shapes⟩ := ih evicted
    exact ⟨done, shape.trans shapes⟩

theorem Consistent.resetPrefixCache :
    pool.resetPrefixCache.2.Consistent free held ∧ SameShape pool pool.resetPrefixCache.2 := by
  unfold BlockPool.resetPrefixCache
  split
  · exact ⟨consistent, .refl pool⟩
  · refine ⟨⟨⟨?_, nofun⟩, consistent.queue, consistent.mem_free, consistent.refCnt,
      consistent.held_lt⟩, rfl, rfl, rfl⟩
    intro block key
    simp

end

end Evict

variable {block : BlockId}

section Take

/-- What taking blocks from the free queue changes in the pool. -/
structure Takes (pool : BlockPool) (blocks : List BlockId) (taken : BlockPool) : Prop where
  shape : SameShape pool taken
  queue : taken.freeBlockQueue = pool.freeBlockQueue
  refCnt : ∀ block, taken.refCnt block = if block ∈ blocks then 1 else pool.refCnt block
  hash : ∀ block, taken.blockHash block =
    if pool.enableCaching && decide (block ∈ blocks) then none else pool.blockHash block

/-- A block without references is taken over. -/
theorem HashConsistent.takeNewBlock (consistent : pool.HashConsistent)
    (unreferenced : pool.refCnt block = 0) :
    ∃ taken, pool.takeNewBlock block = .ok taken ∧ taken.HashConsistent ∧
      Takes pool [block] taken := by
  unfold BlockPool.takeNewBlock
  cases caching : pool.enableCaching with
  | false =>
    have accepted : ensure (decide (pool.refCnt block = 0))
        ResourceError.assertionFailed = .ok () := by
      rw [ensure_eq_ok]
      exact decide_eq_true unreferenced
    simp only [if_false, Bool.false_eq_true, accepted]
    refine ⟨_, rfl, ⟨consistent.hash, consistent.inPool⟩, ⟨rfl, rfl, rfl⟩, rfl, ?_, ?_⟩
    · simp
    · simp [caching]
  | true =>
    obtain ⟨cache, evicted, hashes⟩ := consistent.maybeEvictCachedBlock block
    rw [evicted] at hashes
    have accepted : ensure (decide (pool.refCnt block = 0))
        ResourceError.assertionFailed = .ok () := by
      rw [ensure_eq_ok]
      exact decide_eq_true unreferenced
    simp only [if_true, evicted, accepted]
    refine ⟨_, rfl, ⟨hashes.hash, hashes.inPool⟩, ⟨rfl, rfl, rfl⟩, rfl, ?_, ?_⟩
    · simp
    · simp [caching]

/-- Distinct blocks without references are taken over. -/
theorem HashConsistent.takeNewBlocks (consistent : pool.HashConsistent)
    (nodup : blocks.Nodup) (unreferenced : ∀ block ∈ blocks, pool.refCnt block = 0) :
    ∃ taken, blocks.foldlM BlockPool.takeNewBlock pool = .ok taken ∧ taken.HashConsistent ∧
      Takes pool blocks taken := by
  induction blocks generalizing pool with
  | nil =>
    refine ⟨pool, rfl, consistent, .refl pool, rfl, ?_, ?_⟩
    · simp
    · simp
  | cons block rest ih =>
    obtain ⟨fresh, nodup⟩ := nodup_cons.mp nodup
    obtain ⟨first, took, hashes, takes⟩ :=
      consistent.takeNewBlock (unreferenced block mem_cons_self)
    have remaining : ∀ other ∈ rest, first.refCnt other = 0 := by
      intro other mem
      have different : other ∉ [block] := by
        rw [mem_singleton]
        rintro rfl
        exact fresh mem
      rw [takes.refCnt, if_neg different]
      exact unreferenced other (mem_cons_of_mem block mem)
    obtain ⟨taken, tookRest, restHashes, restTakes⟩ :=
      ih hashes nodup remaining
    refine ⟨taken, ?_, restHashes, takes.shape.trans restTakes.shape,
      restTakes.queue.trans takes.queue, ?_, ?_⟩
    · rw [foldlM_cons, took]
      exact tookRest
    · intro other
      rw [restTakes.refCnt, takes.refCnt]
      by_cases inRest : other ∈ rest <;> by_cases same : other = block <;> simp [inRest, same]
    · intro other
      rw [restTakes.hash, takes.hash, takes.shape.enableCaching]
      by_cases inRest : other ∈ rest <;> by_cases same : other = block <;> simp [inRest, same]
      all_goals cases pool.enableCaching <;> simp

variable {count : Int}

/-- New blocks come from the front of the free queue. -/
theorem Consistent.getNewBlocks (consistent : pool.Consistent free held)
    (nonnegative : 0 ≤ count) (enough : count ≤ free.length) :
    ∃ taken, pool.getNewBlocks count = .ok (free.take count.toNat, taken) ∧
      taken.Consistent (free.drop count.toNat)
        (fun block => held block + (free.take count.toNat).count block) ∧ SameShape pool taken ∧
      ∀ block, taken.blockHash block =
        if pool.enableCaching && decide (block ∈ free.take count.toNat) then none
        else pool.blockHash block := by
  have counted := consistent.queue.count
  have nodup := consistent.queue.links.nodup
  obtain ⟨queue, popped, represents⟩ := consistent.queue.popleftN nonnegative enough
  have unreferenced : ∀ block ∈ free.take count.toNat, pool.refCnt block = 0 := by
    intro block mem
    have isFree := (consistent.mem_free block).mp (mem_of_mem_take mem)
    rw [consistent.refCnt block isFree.1, isFree.2.2]
    rfl
  have hashes : ({ pool with freeBlockQueue := queue } : BlockPool).HashConsistent :=
    ⟨consistent.hash, consistent.inPool⟩
  obtain ⟨taken, took, takenHashes, takes⟩ :=
    hashes.takeNewBlocks (nodup.sublist (take_sublist ..)) unreferenced
  have split : ∀ block, block ∈ free ↔
      block ∈ free.take count.toNat ∨ block ∈ free.drop count.toNat := by
    intro block
    rw [← mem_append, take_append_drop]
  have disjoint : ∀ block ∈ free.take count.toNat, block ∉ free.drop count.toNat := by
    intro block inFront inBack
    rw [← take_append_drop count.toNat free] at nodup
    exact (nodup_append.mp nodup).2.2 block inFront block inBack rfl
  have counts : ∀ block, (free.take count.toNat).count block =
      if block ∈ free.take count.toNat then 1 else 0 := by
    intro block
    split
    · next mem =>
      exact count_eq_one_of_mem (nodup.sublist (take_sublist ..)) mem
    · next absent => exact count_eq_zero.mpr absent
  have shape : SameShape pool taken :=
    ⟨takes.shape.numGpuBlocks, takes.shape.enableCaching, takes.shape.hashBlockSize⟩
  refine ⟨taken, ?_, ⟨takenHashes, ?_, ?_, ?_, ?_⟩, shape, takes.hash⟩
  · unfold BlockPool.getNewBlocks
    rw [if_neg (by unfold getNumFreeBlocks; omega), popped]
    simp only [bind, Except.bind, took, pure, Except.pure]
  · rw [takes.queue]
    exact represents
  · intro block
    rw [takes.shape.numGpuBlocks, counts]
    have wasFree := consistent.mem_free block
    rw [split] at wasFree
    by_cases inFront : block ∈ free.take count.toNat
    · simp [inFront, disjoint block inFront]
    · simp only [inFront, false_or, if_false, Nat.add_zero] at wasFree ⊢
      exact wasFree
  · intro block nonNull
    rw [takes.refCnt, counts]
    by_cases inFront : block ∈ free.take count.toNat
    · have isFree := (consistent.mem_free block).mp (mem_of_mem_take inFront)
      simp [inFront, isFree.2.2]
    · simp only [inFront, if_false, Nat.add_zero]
      exact consistent.refCnt block nonNull
  · intro block nonNull used
    rw [takes.shape.numGpuBlocks]
    by_cases inFront : block ∈ free.take count.toNat
    · exact ((consistent.mem_free block).mp (mem_of_mem_take inFront)).2.1
    · rw [counts, if_neg inFront] at used
      exact consistent.held_lt block nonNull used

/-- New blocks are only handed out if the queue has them. -/
theorem Consistent.getNewBlocks_eq_ok (consistent : pool.Consistent free held) {taken : BlockPool}
    (returned : pool.getNewBlocks count = .ok (blocks, taken)) : count ≤ free.length := by
  by_contra tooMany
  unfold BlockPool.getNewBlocks getNumFreeBlocks at returned
  rw [if_pos (by rw [consistent.queue.count]; omega)] at returned
  cases returned

end Take

section Touch

/-- What taking references changes besides the references. -/
structure KeepsHashes (before after : BlockPool) : Prop extends SameShape before after where
  blockHash : after.blockHash = before.blockHash
  cache : after.cachedBlockHashToBlock = before.cachedBlockHashToBlock

theorem KeepsHashes.refl (pool : BlockPool) : KeepsHashes pool pool := ⟨.refl pool, rfl, rfl⟩

theorem KeepsHashes.trans {first second third : BlockPool} (left : KeepsHashes first second)
    (right : KeepsHashes second third) : KeepsHashes first third :=
  ⟨left.toSameShape.trans right.toSameShape, right.blockHash.trans left.blockHash,
    right.cache.trans left.cache⟩

/-- Taking a reference to a free block removes it from the queue. -/
theorem Consistent.touchBlock (consistent : pool.Consistent free held)
    (inPool : block ≠ nullBlock → block < pool.numGpuBlocks) :
    ∃ touched, pool.touchBlock block = .ok touched ∧
      touched.Consistent (free.erase block) (fun other => held other + [block].count other) ∧
      KeepsHashes pool touched := by
  have nodup := consistent.queue.links.nodup
  have counts : ∀ other, [block].count other = if other = block then 1 else 0 := by
    intro other
    by_cases same : other = block
    · subst same
      simp
    · rw [if_neg same, count_eq_zero]
      simpa using same
  have references : ∀ other, other ≠ nullBlock →
      (if other = block then pool.refCnt block + 1 else pool.refCnt other) =
        ((held other + [block].count other : Nat) : Int) := by
    intro other nonNull
    rw [counts]
    by_cases same : other = block
    · subst same
      simp [consistent.refCnt other nonNull]
    · simp [same, consistent.refCnt other nonNull]
  have members : ∀ other, other ∈ free.erase block ↔
      other ≠ nullBlock ∧ other < pool.numGpuBlocks ∧ held other + [block].count other = 0 := by
    intro other
    rw [nodup.mem_erase_iff, consistent.mem_free, counts]
    by_cases same : other = block <;> simp [same]
  have inRange : ∀ other, other ≠ nullBlock → held other + [block].count other ≠ 0 →
      other < pool.numGpuBlocks := by
    intro other nonNull used
    rw [counts] at used
    by_cases same : other = block
    · rw [same]
      exact inPool (same ▸ nonNull)
    · rw [if_neg same] at used
      exact consistent.held_lt other nonNull used
  unfold BlockPool.touchBlock
  split
  · next available =>
    have isFree : block ∈ free := by
      refine (consistent.mem_free block).mpr ⟨available.2, inPool available.2, ?_⟩
      have counted := consistent.refCnt block available.2
      omega
    obtain ⟨queue, removed, represents⟩ := consistent.queue.remove isFree
    rw [removed]
    exact ⟨_, rfl, ⟨⟨consistent.hash, consistent.inPool⟩, represents, members, references,
      inRange⟩, ⟨rfl, rfl, rfl⟩, rfl, rfl⟩
  · next unavailable =>
    have notFree : block ∉ free := by
      intro mem
      have isFree := (consistent.mem_free block).mp mem
      have counted := consistent.refCnt block isFree.1
      exact unavailable ⟨by omega, isFree.1⟩
    rw [erase_of_not_mem notFree] at members ⊢
    exact ⟨_, rfl, ⟨⟨consistent.hash, consistent.inPool⟩, consistent.queue, members, references,
      inRange⟩, ⟨rfl, rfl, rfl⟩, rfl, rfl⟩

/-- Taking references to several blocks. -/
theorem Consistent.touch (consistent : pool.Consistent free held)
    (inPool : ∀ block ∈ blocks, block ≠ nullBlock → block < pool.numGpuBlocks) :
    ∃ touched, pool.touch blocks = .ok touched ∧
      touched.Consistent (free.diff blocks) (fun other => held other + blocks.count other) ∧
      KeepsHashes pool touched := by
  unfold BlockPool.touch
  induction blocks generalizing pool free held with
  | nil => exact ⟨pool, rfl, consistent, .refl pool⟩
  | cons block rest ih =>
    obtain ⟨first, touchedFirst, firstConsistent, keeps⟩ :=
      consistent.touchBlock (inPool block mem_cons_self)
    obtain ⟨touched, touchedRest, restConsistent, restKeeps⟩ :=
      ih firstConsistent fun other mem nonNull => by
        rw [keeps.numGpuBlocks]
        exact inPool other (mem_cons_of_mem block mem) nonNull
    refine ⟨touched, ?_, ?_, keeps.trans restKeeps⟩
    · rw [foldlM_cons, touchedFirst]
      exact touchedRest
    · have counts : (fun other => held other + [block].count other + rest.count other) =
          fun other => held other + (block :: rest).count other := by
        funext other
        show _ = held other + ([block] ++ rest).count other
        rw [count_append, Nat.add_assoc]
      rw [diff_cons, ← counts]
      exact restConsistent

end Touch

section Free

/-- The blocks that become free, in the order in which they are given back. -/
def released (held : BlockId → Nat) (blocks : List BlockId) : List BlockId :=
  blocks.filter fun block =>
    decide (held block - blocks.count block = 0) && !decide (block = nullBlock)

/-- Distinct blocks give their references back; those without a reference are
appended to the queue. -/
theorem Consistent.freeBlocks (consistent : pool.Consistent free held)
    (nodup : (nonNull blocks).Nodup) (used : ∀ block ∈ blocks, block ≠ nullBlock → held block ≠ 0) :
    (pool.freeBlocks blocks).Consistent (free ++ released held blocks)
        (fun block => held block - blocks.count block) ∧
      KeepsHashes pool (pool.freeBlocks blocks) := by
  have atMostOne := nonNull_nodup_iff.mp nodup
  have references : ∀ block, block ≠ nullBlock →
      pool.refCnt block - blocks.count block = ((held block - blocks.count block : Nat) : Int) := by
    intro block nonNull
    have counted := consistent.refCnt block nonNull
    have bounded := atMostOne block nonNull
    by_cases mem : block ∈ blocks
    · have positive := used block mem nonNull
      omega
    · rw [count_eq_zero.mpr mem]
      omega
  have sameReleased : (blocks.filter fun block =>
      decide (pool.refCnt block - blocks.count block = 0) && !decide (block = nullBlock)) =
        released held blocks := by
    refine filter_congr fun block _ => ?_
    by_cases null : block = nullBlock
    · simp [null]
    · have same := references block null
      simp only [null, decide_false, Bool.not_false, Bool.and_true, decide_eq_decide]
      omega
  have mem_released : ∀ block, block ∈ released held blocks ↔
      block ∈ blocks ∧ block ≠ nullBlock ∧ held block - blocks.count block = 0 := by
    simp [released, and_comm]
  have distinct : (free ++ released held blocks).Nodup := by
    refine nodup_append.mpr ⟨consistent.queue.links.nodup, ?_, ?_⟩
    · refine nodup.sublist ?_
      unfold released TokenCake.nonNull
      rw [← filter_filter]
      exact filter_sublist
    · rintro block isFree other isReleased rfl
      obtain ⟨mem, nonNull, -⟩ := (mem_released block).mp isReleased
      exact used block mem nonNull ((consistent.mem_free block).mp isFree).2.2
  refine ⟨⟨⟨consistent.hash, consistent.inPool⟩, ?_, ?_, references, ?_⟩, ⟨rfl, rfl, rfl⟩, rfl, rfl⟩
  · have queue := consistent.queue.appendN distinct
    rw [← sameReleased] at queue ⊢
    exact queue
  · intro block
    rw [mem_append, consistent.mem_free, mem_released]
    show _ ↔ block ≠ nullBlock ∧ block < pool.numGpuBlocks ∧ _
    by_cases mem : block ∈ blocks
    · constructor
      · rintro (⟨nonNull, within, unused⟩ | ⟨-, nonNull, unused⟩)
        · exact ⟨nonNull, within, by omega⟩
        · exact ⟨nonNull, consistent.held_lt block nonNull (used block mem nonNull), unused⟩
      · rintro ⟨nonNull, -, unused⟩
        exact Or.inr ⟨mem, nonNull, unused⟩
    · simp [mem, count_eq_zero.mpr mem]
  · intro block nonNull positive
    exact consistent.held_lt block nonNull (by omega)

end Free

/-- The blocks of a pool other than the null block. -/
def others (pool : BlockPool) : List BlockId := range' 1 (pool.numGpuBlocks - 1)

theorem mem_others : block ∈ pool.others ↔ block ≠ nullBlock ∧ block < pool.numGpuBlocks := by
  rw [others, mem_range'_1, Nat.one_le_iff_ne_zero, nullBlock]
  grind

section Cache

variable {cached : BlockPool} {groupId : Nat}

section

variable (consistent : pool.Consistent free held)

include consistent

theorem Consistent.cacheFullBlock {key : BlockHashWithGroupId} (nonNull : block ≠ nullBlock)
    (inPool : block < pool.numGpuBlocks) (stored : pool.cacheFullBlock block key = .ok cached) :
    cached.Consistent free held ∧ SameShape pool cached := by
  obtain ⟨_, unhashed, stored⟩ := bind_eq_ok.mp stored
  rw [ensure_eq_ok, decide_eq_true_iff] at unhashed
  cases stored
  refine ⟨⟨⟨?_, ?_⟩, consistent.queue, consistent.mem_free, consistent.refCnt,
    consistent.held_lt⟩, rfl, rfl, rfl⟩
  · intro other otherKey
    rw [BlockHashToBlockMap.mem_blocksUnder_insert]
    by_cases same : other = block
    · subst same
      have absent : other ∉ pool.cachedBlockHashToBlock.blocksUnder otherKey := by
        intro mem
        rw [(consistent.hash other otherKey).mpr mem] at unhashed
        cases unhashed
      simp [absent, eq_comm]
    · simp [same, consistent.hash other otherKey]
  · intro other otherKey hashed
    dsimp only at hashed
    by_cases same : other = block
    · rw [same]
      exact ⟨nonNull, inPool⟩
    · rw [if_neg same] at hashed
      exact consistent.inPool other otherKey hashed

theorem Consistent.cacheBlocksFrom
    (inPool : ∀ entry ∈ blocks, entry.1 ≠ nullBlock → entry.1 < pool.numGpuBlocks)
    (stored : cacheBlocksFrom groupId blocks hashes pool = .ok cached) :
    cached.Consistent free held ∧ SameShape pool cached := by
  induction blocks generalizing pool hashes with
  | nil =>
    cases stored
    exact ⟨consistent, .refl _⟩
  | cons entry rest ih =>
    have restInPool : ∀ entry ∈ rest, entry.1 ≠ nullBlock → entry.1 < pool.numGpuBlocks :=
      fun entry mem => inPool entry (mem_cons_of_mem _ mem)
    unfold BlockPool.cacheBlocksFrom at stored
    split at stored
    · exact ih consistent restInPool stored
    · next kept =>
      rw [not_or] at kept
      split at stored
      · cases stored
      · obtain ⟨first, storedFirst, storedRest⟩ := bind_eq_ok.mp stored
        obtain ⟨firstConsistent, shape⟩ :=
          consistent.cacheFullBlock kept.1 (inPool _ mem_cons_self kept.1) storedFirst
        rw [← shape.numGpuBlocks] at restInPool
        obtain ⟨done, shapes⟩ := ih firstConsistent restInPool storedRest
        exact ⟨done, shape.trans shapes⟩

theorem Consistent.cacheFullBlocks
    (inPool : ∀ block ∈ blocks, block ≠ nullBlock → block < pool.numGpuBlocks)
    (stored : pool.cacheFullBlocks blockHashes blocks numCachedBlocks numFullBlocks blockSize
      groupId blockMask = .ok cached) : cached.Consistent free held ∧ SameShape pool cached := by
  unfold BlockPool.cacheFullBlocks at stored
  split at stored
  · cases stored
    exact ⟨consistent, .refl _⟩
  · obtain ⟨-, -, stored⟩ := bind_eq_ok.mp stored
    obtain ⟨_, _, stored⟩ := bind_eq_ok.mp stored
    obtain ⟨_, _, stored⟩ := bind_eq_ok.mp stored
    refine consistent.cacheBlocksFrom (fun entry mem => inPool entry.1 ?_) stored
    have inSlice := (of_mem_zip mem).1
    exact mem_of_mem_take (mem_of_mem_drop inSlice)

/-- The counter of the queue counts the blocks without a reference. -/
theorem Consistent.getNumFreeBlocks_eq :
    pool.getNumFreeBlocks = pool.others.countP fun block => held block = 0 := by
  have nodup : pool.others.Nodup := nodup_range'
  have same : free ~ pool.others.filter fun block => held block = 0 := by
    refine (perm_ext_iff_of_nodup consistent.queue.links.nodup (nodup.filter _)).mpr fun block => ?_
    rw [consistent.mem_free, mem_filter, mem_others, decide_eq_true_iff, and_assoc]
  rw [countP_eq_length_filter, ← same.length_eq]
  exact consistent.queue.count

theorem Consistent.resetPrefixCache_iff (positive : 0 < pool.numGpuBlocks) :
    pool.resetPrefixCache.1 = true ↔ ∀ block, block ≠ nullBlock → held block = 0 := by
  have counted := consistent.getNumFreeBlocks_eq
  have size : pool.others.length = pool.numGpuBlocks - 1 := length_range'
  calc pool.resetPrefixCache.1 = true
    _ ↔ pool.numGpuBlocks - pool.getNumFreeBlocks = 1 := by
        unfold BlockPool.resetPrefixCache
        split <;> simp_all
    _ ↔ ∀ block ∈ pool.others, decide (held block = 0) = true := by
        rw [← countP_eq_length]
        omega
    _ ↔ ∀ block, block ≠ nullBlock → held block = 0 := by
        simp only [mem_others, decide_eq_true_iff]
        refine ⟨fun free block other => ?_, fun free block inside => free block inside.1⟩
        by_contra used
        exact used (free block ⟨other, consistent.held_lt block other used⟩)

end

end Cache

end BlockPool

end TokenCake
