import TokenCake.KVCache.PoolInvariant
import TokenCake.KVCache.SingleType

/-!
# Block tables and the pool

A manager owns its part of the references of the pool: as many to every block as
the block occurs in its tables.  No table lists a block twice.  Every operation of
a manager keeps this ownership, whatever the other managers hold.

A group with a window replaces the blocks in front of it by the null block, so a
table consists of null blocks and then of the blocks that the request holds.  Every
operation keeps this form, and the null blocks only move to the right.
-/

namespace TokenCake

open Dict
open List hiding getD after

theorem Avoids.ensure {bad : ε → Prop} {condition : Bool} {failure : ε}
    (harmless : ¬ bad failure) : Avoids bad (TokenCake.ensure condition failure) := by
  cases condition with
  | true => exact .ok ()
  | false => exact .error harmless

namespace SingleTypeKVCacheManager

/-- How often a block occurs in the tables of a manager. -/
def occurrences (manager : SingleTypeKVCacheManager) (block : BlockId) : Nat :=
  manager.reqToBlocks.sumBy (List.count block)

/-- No table lists a block twice. -/
def Distinct (manager : SingleTypeKVCacheManager) : Prop :=
  ∀ requestId, (nonNull (manager.blocksOf requestId)).Nodup

/-- The references of the pool are those of the manager and those of others. -/
structure Owns (manager : SingleTypeKVCacheManager) (pool : BlockPool) (free : List BlockId)
    (others : BlockId → Nat) : Prop where
  pool : pool.Consistent free fun block => manager.occurrences block + others block
  distinct : manager.Distinct

/-- The tables of a manager with one of them replaced. -/
def withTable (manager : SingleTypeKVCacheManager) (requestId : RequestId)
    (blocks : List BlockId) : SingleTypeKVCacheManager :=
  { manager with reqToBlocks := manager.reqToBlocks.set requestId blocks }

variable {block : BlockId} {numTokens : Int}

section Tables

variable (manager : SingleTypeKVCacheManager) (id : RequestId) (blocks : List BlockId)

theorem weight_blocksOf (block : BlockId) :
    ((manager.reqToBlocks.get? id).map (count block)).getD 0 =
      (manager.blocksOf id).count block := by
  unfold blocksOf getD
  cases manager.reqToBlocks.get? id <;> rfl

theorem occurrences_withTable (block : BlockId) :
    (manager.withTable id blocks).occurrences block + (manager.blocksOf id).count block =
      manager.occurrences block + blocks.count block := by
  have replaced := manager.reqToBlocks.sumBy_set (count block) id blocks
  rw [weight_blocksOf] at replaced
  exact replaced

theorem count_le_occurrences (block : BlockId) :
    (manager.blocksOf id).count block ≤ manager.occurrences block := by
  have erased := manager.reqToBlocks.sumBy_erase (count block) id
  rw [weight_blocksOf] at erased
  unfold occurrences
  omega

@[simp] theorem blocksOf_withTable_self : (manager.withTable id blocks).blocksOf id = blocks := by
  simp [blocksOf, withTable, getD]

theorem blocksOf_withTable_of_ne {other : RequestId} (different : other ≠ id) :
    (manager.withTable id blocks).blocksOf other = manager.blocksOf other := by
  simp [blocksOf, withTable, getD, get?_set_of_ne, different]

variable {manager id blocks}

theorem Distinct.withTable (distinct : manager.Distinct)
    (nodup : (nonNull blocks).Nodup) : (manager.withTable id blocks).Distinct := by
  intro other
  by_cases same : other = id
  · subst same
    rw [blocksOf_withTable_self]
    exact nodup
  · rw [blocksOf_withTable_of_ne _ _ _ same]
    exact distinct other

theorem extendBlocks_eq_withTable :
    manager.extendBlocks id blocks = manager.withTable id (manager.blocksOf id ++ blocks) := rfl

theorem occurrences_extendBlocks (block : BlockId) :
    (manager.extendBlocks id blocks).occurrences block =
      manager.occurrences block + blocks.count block := by
  have replaced := manager.occurrences_withTable id (manager.blocksOf id ++ blocks) block
  rw [count_append] at replaced
  rw [extendBlocks_eq_withTable]
  omega

theorem notMem_of_occurrences_eq_zero
    (unused : manager.occurrences block = 0) : block ∉ manager.blocksOf id := by
  have bounded := manager.count_le_occurrences id block
  exact count_eq_zero.mp (by omega)

end Tables

section Ownership

variable {manager : SingleTypeKVCacheManager} {pool : BlockPool} {free : List BlockId}
  {others : BlockId → Nat} {id : RequestId} {blocks : List BlockId}

/-- A block in a table has a reference. -/
theorem Owns.held_ne_zero (mem : block ∈ manager.blocksOf id) :
    manager.occurrences block + others block ≠ 0 := by
  have bounded := manager.count_le_occurrences id block
  have positive := count_pos_iff.mpr mem
  omega

/-- A block in a table is a block of the pool. -/
theorem Owns.inPool (owns : manager.Owns pool free others) (mem : block ∈ manager.blocksOf id)
    (inside : block ≠ nullBlock) : block < pool.numGpuBlocks :=
  owns.pool.held_lt block inside (Owns.held_ne_zero mem)

/-- A table can be extended by distinct blocks that it does not list yet. -/
theorem Distinct.extendBlocks (distinct : manager.Distinct) (nodup : (nonNull blocks).Nodup)
    (fresh : ∀ block ∈ blocks, block ≠ nullBlock → block ∉ manager.blocksOf id) :
    (manager.extendBlocks id blocks).Distinct := by
  rw [extendBlocks_eq_withTable]
  refine distinct.withTable ?_
  rw [nonNull_append]
  refine nodup_append.mpr ⟨distinct id, nodup, ?_⟩
  rintro block inTable other isNew rfl
  obtain ⟨mem, inside⟩ := mem_nonNull.mp isNew
  exact fresh block mem inside (mem_nonNull.mp inTable).1

theorem nonNull_nodup_of_nodup (nodup : blocks.Nodup) : (nonNull blocks).Nodup :=
  nodup.filter _

section

variable (owns : manager.Owns pool free others)

include owns

theorem Owns.getNewBlocks (id : RequestId) {count : Int}
    (nonnegative : 0 ≤ count) (enough : count ≤ free.length) :
    ∃ taken, pool.getNewBlocks count = .ok (free.take count.toNat, taken) ∧
      (manager.extendBlocks id (free.take count.toNat)).Owns taken (free.drop count.toNat) others ∧
      BlockPool.SameShape pool taken := by
  obtain ⟨taken, took, consistent, shape, -⟩ := owns.pool.getNewBlocks nonnegative enough
  have nodup := owns.pool.queue.links.nodup.sublist (take_sublist count.toNat free)
  refine ⟨taken, took, ⟨consistent.congr fun block _ => ?_, ?_⟩, shape⟩
  · rw [occurrences_extendBlocks]
    omega
  · refine owns.distinct.extendBlocks (nonNull_nodup_of_nodup nodup) ?_
    intro block mem _
    have unused := ((owns.pool.mem_free block).mp (mem_of_mem_take mem)).2.2
    exact notMem_of_occurrences_eq_zero (by omega)

/-- The blocks of a hit extend an empty table behind null blocks. -/
theorem Owns.touch (empty : manager.blocksOf id = [])
    (inPool : ∀ block ∈ blocks, block ≠ nullBlock → block < pool.numGpuBlocks)
    (nodup : (nonNull blocks).Nodup) (padding : Nat) :
    ∃ touched, pool.touch blocks = .ok touched ∧
      (manager.extendBlocks id (replicate padding nullBlock ++ blocks)).Owns touched
        (free.diff blocks) others ∧ BlockPool.KeepsHashes pool touched := by
  obtain ⟨touched, took, consistent, keeps⟩ := owns.pool.touch inPool
  refine ⟨touched, took, ⟨consistent.congr fun block inside => ?_, ?_⟩, keeps⟩
  · have absent : (replicate padding nullBlock).count block = 0 := by
      rw [count_eq_zero]
      intro mem
      exact inside (eq_of_mem_replicate mem)
    rw [occurrences_extendBlocks, count_append, absent]
    omega
  · refine owns.distinct.extendBlocks ?_ ?_
    · simpa using nodup
    · intro block _ _
      rw [empty]
      exact not_mem_nil

/-- A manager whose tables change by giving back some blocks. -/
theorem Owns.giveBack (id : RequestId) {changed : SingleTypeKVCacheManager}
    (nodup : (nonNull blocks).Nodup)
    (held : ∀ block ∈ blocks, block ≠ nullBlock → block ∈ manager.blocksOf id)
    (distinct : changed.Distinct) (counts : ∀ block, block ≠ nullBlock →
      changed.occurrences block + blocks.count block = manager.occurrences block) :
    ∃ free', changed.Owns (pool.freeBlocks blocks) free' others ∧
      BlockPool.KeepsHashes pool (pool.freeBlocks blocks) := by
  obtain ⟨consistent, keeps⟩ := owns.pool.freeBlocks nodup fun block mem inside =>
    Owns.held_ne_zero (held block mem inside)
  refine ⟨_, ⟨consistent.congr fun block inside => ?_, distinct⟩, keeps⟩
  have counted := counts block inside
  omega

theorem Owns.replaceTable {kept released : List BlockId} (counts : ∀ block, block ≠ nullBlock →
      kept.count block + released.count block = (manager.blocksOf id).count block) :
    ∃ free', (manager.withTable id kept).Owns (pool.freeBlocks released) free' others ∧
      BlockPool.KeepsHashes pool (pool.freeBlocks released) := by
  have distinct := nonNull_nodup_iff.mp (owns.distinct id)
  refine owns.giveBack id ?_ ?_ (owns.distinct.withTable ?_) ?_
  · exact nonNull_nodup_iff.mpr fun block inside => by
      have counted := counts block inside
      have once := distinct block inside
      omega
  · intro block mem inside
    have counted := counts block inside
    have positive := count_pos_iff.mpr mem
    exact count_pos_iff.mp (by omega)
  · exact nonNull_nodup_iff.mpr fun block inside => by
      have counted := counts block inside
      have once := distinct block inside
      omega
  · intro block inside
    have counted := counts block inside
    have replaced := manager.occurrences_withTable id kept block
    omega

end

end Ownership

/-- The fixed parameters of a manager. -/
structure SameGroup (before after : SingleTypeKVCacheManager) : Prop where
  kvCacheSpec : after.kvCacheSpec = before.kvCacheSpec
  kvCacheGroupId : after.kvCacheGroupId = before.kvCacheGroupId
  enableCaching : after.enableCaching = before.enableCaching
  maxAdmissionBlocksPerRequest :
    after.maxAdmissionBlocksPerRequest = before.maxAdmissionBlocksPerRequest

theorem SameGroup.refl (manager : SingleTypeKVCacheManager) : SameGroup manager manager :=
  ⟨rfl, rfl, rfl, rfl⟩

theorem SameGroup.trans (first : SameGroup before between)
    (second : SameGroup between after) : SameGroup before after :=
  ⟨second.kvCacheSpec.trans first.kvCacheSpec, second.kvCacheGroupId.trans first.kvCacheGroupId,
    second.enableCaching.trans first.enableCaching,
    second.maxAdmissionBlocksPerRequest.trans first.maxAdmissionBlocksPerRequest⟩

section Release

variable {manager : SingleTypeKVCacheManager} {pool : BlockPool} {queue : List BlockId}
  {others : BlockId → Nat}

theorem Owns.free (owns : manager.Owns pool queue others) (id : RequestId) :
    ∃ queue', (manager.free pool id).1.Owns (manager.free pool id).2 queue' others ∧
      BlockPool.KeepsHashes pool (manager.free pool id).2 := by
  refine owns.giveBack id ?_ ?_ ?_ ?_
  · unfold nonNull
    rw [filter_reverse]
    exact nodup_reverse.mpr (owns.distinct id)
  · intro block mem _
    exact mem_reverse.mp mem
  · intro other
    unfold SingleTypeKVCacheManager.free blocksOf getD
    rw [get?_erase]
    split
    · exact nodup_nil
    · exact owns.distinct other
  · intro block _
    have erased := manager.reqToBlocks.sumBy_erase (count block) id
    rw [weight_blocksOf] at erased
    rw [count_reverse]
    exact erased

/-- A table consists of the blocks in front of the skipped run, the run, and the
blocks behind it. -/
theorem table_eq_skippedRun (blocks : List BlockId) {skipped : Nat}
    (within : skipped ≤ blocks.length) :
    blocks = blocks.take (skipped - (skippedRun blocks skipped).length) ++
      (skippedRun blocks skipped).reverse ++ blocks.drop skipped := by
  have parts : (blocks.take skipped).reverse = skippedRun blocks skipped ++
      (blocks.take skipped).reverse.dropWhile fun block => !decide (block = nullBlock) :=
    takeWhile_append_dropWhile.symm
  have front : blocks.take skipped =
      ((blocks.take skipped).reverse.dropWhile fun block => !decide (block = nullBlock)).reverse ++
        (skippedRun blocks skipped).reverse := by
    rw [← reverse_append, ← parts, reverse_reverse]
  generalize ((blocks.take skipped).reverse.dropWhile fun block =>
    !decide (block = nullBlock)).reverse = rest at front
  have lengths := congrArg length front
  rw [length_take, length_append, length_reverse, min_eq_left within] at lengths
  have restEq : rest = blocks.take (skipped - (skippedRun blocks skipped).length) := by
    have prefixed := congrArg (take rest.length) front
    rw [take_left, take_take, min_eq_left (by omega)] at prefixed
    rw [← prefixed]
    congr 1
    omega
  rw [← restEq, ← front, take_append_drop]

theorem count_skippedRun (blocks : List BlockId) {skipped : Nat}
    (within : skipped ≤ blocks.length) (block : BlockId) (inside : block ≠ nullBlock) :
    (blocks.take (skipped - (skippedRun blocks skipped).length) ++
        replicate (skippedRun blocks skipped).length nullBlock ++ blocks.drop skipped).count
        block + (skippedRun blocks skipped).count block = blocks.count block := by
  have counted := congrArg (count block) (table_eq_skippedRun blocks within)
  rw [count_append, count_append, count_reverse] at counted
  rw [count_append, count_append, count_replicate, if_neg (by simpa using Ne.symm inside)]
  omega

/-- Removing skipped blocks gives them back and leaves null blocks. -/
theorem Owns.removeSkippedBlocks (owns : manager.Owns pool queue others)
    (id : RequestId) (total : Int) :
    ∃ queue', (manager.removeSkippedBlocks pool id total).1.Owns
        (manager.removeSkippedBlocks pool id total).2 queue' others ∧ BlockPool.KeepsHashes pool
        (manager.removeSkippedBlocks pool id total).2 := by
  unfold SingleTypeKVCacheManager.removeSkippedBlocks
  dsimp only
  split
  · exact ⟨queue, owns, .refl pool⟩
  · exact owns.replaceTable (count_skippedRun _ (Nat.min_le_right ..))

/-- Caching the blocks of a request leaves the tables. -/
theorem Owns.cacheBlocks (owns : manager.Owns pool queue others) {request : Request}
    {alignmentTokens : Option Nat} {changed : SingleTypeKVCacheManager} {cached : BlockPool}
    (stored : manager.cacheBlocks pool request numTokens alignmentTokens = .ok (changed, cached)) :
    changed.Owns cached queue others ∧ BlockPool.SameShape pool cached ∧
      SameGroup manager changed ∧ changed.reqToBlocks = manager.reqToBlocks := by
  unfold SingleTypeKVCacheManager.cacheBlocks at stored
  dsimp only at stored
  split at stored
  · cases stored
    exact ⟨owns, .refl _, .refl _, rfl⟩
  · obtain ⟨cached, storedBlocks, stored⟩ := bind_eq_ok.mp stored
    cases stored
    obtain ⟨consistent, shape⟩ :=
      owns.pool.cacheFullBlocks (fun _ mem inside => owns.inPool mem inside) storedBlocks
    exact ⟨⟨consistent, owns.distinct⟩, shape, ⟨rfl, rfl, rfl, rfl⟩, rfl⟩

end Release

section Allocation

section

variable (manager : SingleTypeKVCacheManager)

/-- Blocks in front of the attention window behind the computed tokens. -/
def skippedBlocks (totalComputedTokens : Int) : Nat :=
  (manager.kvCacheSpec.getNumSkippedTokens totalComputedTokens / manager.blockSize).toNat

/-- The first blocks of a new request: null blocks in front of the window and the
hits inside. -/
def paddedHits (newComputedBlocks : List BlockId) (totalComputedTokens : Int) : List BlockId :=
  List.replicate (manager.skippedBlocks totalComputedTokens) nullBlock ++
    newComputedBlocks.drop (manager.skippedBlocks totalComputedTokens)

/-- Number of external tokens that need blocks: those in front of the window need none. -/
def externalTokens (numLocalComputedTokens numExternalComputedTokens : Int) : Int :=
  let total := numLocalComputedTokens + numExternalComputedTokens
  if manager.skippedBlocks total > 0 then
    min (total - manager.kvCacheSpec.getNumSkippedTokens total) numExternalComputedTokens
  else numExternalComputedTokens

/-- Number of blocks a new request takes for its external tokens. -/
def externalBlocks (newComputedBlocks : List BlockId)
    (numLocalComputedTokens numExternalComputedTokens : Int) : Int :=
  let total := numLocalComputedTokens + numExternalComputedTokens
  if manager.externalTokens numLocalComputedTokens numExternalComputedTokens > 0 then
    cdiv total manager.blockSize - (manager.paddedHits newComputedBlocks total).length
  else 0

end

/-- The hits of a request are distinct blocks of the pool and no more than its computed
tokens need, if it is to take blocks for external tokens. -/
structure TakesHits
    (manager : SingleTypeKVCacheManager) (numGpuBlocks : Nat) (requestId : RequestId)
    (hits : List BlockId) (numLocalComputedTokens numExternalComputedTokens : Int) : Prop where
  inPool : ∀ block ∈ hits, block ≠ nullBlock → block < numGpuBlocks
  nodup : (nonNull hits).Nodup
  fits : requestId ∉ manager.numCachedBlock →
    0 ≤ manager.externalBlocks hits numLocalComputedTokens numExternalComputedTokens

/-- The manager after a new request got its cached blocks. -/
def withHits (manager : SingleTypeKVCacheManager) (requestId : RequestId)
    (newComputedBlocks : List BlockId) (totalComputedTokens : Int) : SingleTypeKVCacheManager :=
  let blocks := manager.paddedHits newComputedBlocks totalComputedTokens
  { manager.extendBlocks requestId blocks with
    numCachedBlock := manager.numCachedBlock.set requestId blocks.length }

theorem allocateNewComputedBlocks_eq (manager : SingleTypeKVCacheManager) (pool : BlockPool)
    (id : RequestId) (hits : List BlockId) (numLocal numExternal : Int) :
    let total := numLocal + numExternal
    manager.allocateNewComputedBlocks pool id hits
        numLocal numExternal =
      if id ∈ manager.numCachedBlock then do
        ensure hits.isEmpty .assertionFailed
        return (manager, pool)
      else do
        ensure (manager.blocksOf id).isEmpty .assertionFailed
        let touched ← manager.touchComputed pool (hits.drop (manager.skippedBlocks total))
        let recorded := manager.withHits id hits total
        if manager.externalTokens numLocal numExternal > 0 then
          let (allocated, pool) ← touched.getNewBlocks
            (cdiv total manager.blockSize - (manager.paddedHits hits total).length)
          return (recorded.extendBlocks id allocated, pool)
        else return (recorded, touched) := rfl

variable {manager changed : SingleTypeKVCacheManager} {pool next : BlockPool}
  {queue blocks : List BlockId} {others : BlockId → Nat} {id : RequestId}
  {numLocal numExternal : Int}

/-- The hits inside the window are distinct blocks of the pool. -/
theorem TakesHits.drop (takes : manager.TakesHits numGpuBlocks id blocks numLocal numExternal)
    (skipped : Nat) :
    (∀ block ∈ blocks.drop skipped, block ≠ nullBlock → block < numGpuBlocks) ∧
      (nonNull (blocks.drop skipped)).Nodup :=
  ⟨fun block mem => takes.inPool block (mem_of_mem_drop mem),
    takes.nodup.sublist ((drop_sublist ..).filter _)⟩

/-- The number of cached blocks does not matter for the ownership. -/
theorem Owns.withNumCachedBlock (owns : manager.Owns pool queue others)
    (numCachedBlock : Dict RequestId Nat) :
    ({ manager with numCachedBlock := numCachedBlock } : SingleTypeKVCacheManager).Owns
      pool queue others :=
  ⟨owns.pool, owns.distinct⟩

@[simp] theorem blocksOf_withHits (hits : List BlockId) (total : Int) :
    (manager.withHits id hits total).blocksOf id =
      manager.blocksOf id ++ manager.paddedHits hits total := by
  have extended : (manager.extendBlocks id (manager.paddedHits hits total)).blocksOf id = _ :=
    blocksOf_withTable_self ..
  exact extended

section

variable (owns : manager.Owns pool queue others)

include owns

/-- The hits of a new request are referenced and listed behind the padding. -/
theorem Owns.touchComputed (empty : manager.blocksOf id = [])
    (inPool : ∀ block ∈ blocks, block ≠ nullBlock → block < pool.numGpuBlocks)
    (nodup : (nonNull blocks).Nodup) (padding : Nat)
    (returned : manager.touchComputed pool blocks = .ok next) :
    (manager.extendBlocks id (replicate padding nullBlock ++ blocks)).Owns next
        (queue.diff blocks) others ∧ BlockPool.KeepsHashes pool next := by
  unfold SingleTypeKVCacheManager.touchComputed at returned
  obtain ⟨touched, took, owned, keeps⟩ := owns.touch empty inPool nodup padding
  split at returned
  · cases took.symm.trans returned
    exact ⟨owned, keeps⟩
  · obtain ⟨_, none, returned⟩ := bind_eq_ok.mp returned
    rw [ensure_eq_ok, List.isEmpty_iff] at none
    subst none
    cases returned
    cases took
    exact ⟨owned, .refl _⟩

section

variable
  (takes : manager.TakesHits pool.numGpuBlocks id blocks numLocal
    numExternal)

include takes

/-- What a new request takes: references to its hits, then blocks for its external
tokens from the front of the queue. -/
theorem Owns.allocateNewComputedBlocks (returned : manager.allocateNewComputedBlocks pool id blocks
      numLocal numExternal = .ok (changed, next)) :
    ∃ queue', changed.Owns next queue' others ∧
      BlockPool.SameShape pool next ∧ SameGroup manager changed ∧
      (id ∈ manager.numCachedBlock → changed = manager ∧ queue' = queue) ∧
      (id ∉ manager.numCachedBlock → manager.blocksOf id = [] ∧
        ((changed.blocksOf id).length : Int) = (manager.paddedHits blocks
            (numLocal + numExternal)).length + manager.externalBlocks blocks numLocal numExternal ∧
        queue' = (queue.diff (blocks.drop (manager.skippedBlocks (numLocal + numExternal)))).drop
            (manager.externalBlocks blocks numLocal numExternal).toNat ∧
        ∃ external, changed.blocksOf id = manager.paddedHits blocks (numLocal + numExternal) ++
              external ∧ external ⊆ queue) := by
  rw [allocateNewComputedBlocks_eq] at returned
  split at returned
  · next recorded =>
    obtain ⟨_, _, returned⟩ := bind_eq_ok.mp returned
    cases returned
    exact ⟨queue, owns, .refl _, .refl _, fun _ => ⟨rfl, rfl⟩, fun absent => absurd recorded absent⟩
  · next unrecorded =>
    have fits := takes.fits unrecorded
    obtain ⟨_, empty, returned⟩ := bind_eq_ok.mp returned
    rw [ensure_eq_ok, List.isEmpty_iff] at empty
    obtain ⟨touched, took, returned⟩ := bind_eq_ok.mp returned
    obtain ⟨inPool, nodup⟩ := takes.drop (manager.skippedBlocks (numLocal + numExternal))
    obtain ⟨owned, keeps⟩ := owns.touchComputed empty inPool nodup
      (manager.skippedBlocks (numLocal + numExternal)) took
    replace owned := owned.withNumCachedBlock
      (manager.numCachedBlock.set id (manager.paddedHits blocks (numLocal + numExternal)).length)
    split at returned
    · next external =>
      obtain ⟨⟨new, taken⟩, allocated, returned⟩ := bind_eq_ok.mp returned
      cases returned
      have count : manager.externalBlocks blocks numLocal numExternal = _ := if_pos external
      rw [count] at fits ⊢
      have enough := owned.pool.getNewBlocks_eq_ok allocated
      obtain ⟨_, again, extended, shape⟩ := owned.getNewBlocks id fits enough
      cases allocated.symm.trans again
      refine ⟨_, extended, keeps.toSameShape.trans shape, ⟨rfl, rfl, rfl, rfl⟩,
        fun recorded => absurd recorded unrecorded, fun _ => ⟨empty, ?_, rfl, ?_⟩⟩
      · rw [extendBlocks_eq_withTable, blocksOf_withTable_self, blocksOf_withHits, empty,
          nil_append, length_append, length_take]
        omega
      · rw [extendBlocks_eq_withTable, blocksOf_withTable_self, blocksOf_withHits, empty,
          nil_append]
        exact ⟨_, rfl, List.Subset.trans (take_subset ..) (diff_subset ..)⟩
    · next none =>
      cases returned
      have count : manager.externalBlocks blocks numLocal numExternal = 0 := if_neg none
      rw [count]
      refine ⟨_, owned, keeps.toSameShape, ⟨rfl, rfl, rfl, rfl⟩,
        fun recorded => absurd recorded unrecorded,
        fun _ => ⟨empty, ?_, rfl, [], ?_, nil_subset _⟩⟩
      · rw [blocksOf_withHits, empty, nil_append, add_zero]
      · rw [blocksOf_withHits, empty, nil_append, append_nil]

/-- A new request whose external blocks are available gets them. -/
theorem Owns.avoids_allocateNewComputedBlocks
    (covered : id ∉ manager.numCachedBlock → manager.blocksOf id = [] →
      manager.externalBlocks blocks numLocal numExternal ≤
        (queue.diff (blocks.drop (manager.skippedBlocks (numLocal + numExternal)))).length) :
    Avoids (· = .valueError) (manager.allocateNewComputedBlocks pool id blocks
      numLocal numExternal) := by
  rw [allocateNewComputedBlocks_eq]
  split
  · exact (Avoids.ensure nofun).bind fun _ _ => .ok _
  · next unrecorded =>
    refine (Avoids.ensure nofun).bind fun _ empty => ?_
    rw [ensure_eq_ok, List.isEmpty_iff] at empty
    have nonnegative := takes.fits unrecorded
    have enough := covered unrecorded empty
    obtain ⟨inPool, nodup⟩ := takes.drop (manager.skippedBlocks (numLocal + numExternal))
    refine Avoids.bind ?_ fun touched took => ?_
    · unfold SingleTypeKVCacheManager.touchComputed
      split
      · obtain ⟨touched, took, -⟩ := owns.pool.touch inPool
        rw [took]
        exact .ok _
      · exact (Avoids.ensure nofun).bind fun _ _ => .ok _
    · obtain ⟨owned, -⟩ := owns.touchComputed empty inPool nodup
        (manager.skippedBlocks (numLocal + numExternal)) took
      split
      · next external =>
        have count : manager.externalBlocks blocks numLocal numExternal = _ := if_pos external
        rw [count] at nonnegative enough
        obtain ⟨_, got, -⟩ := owned.getNewBlocks id nonnegative enough
        rw [got]
        exact .ok _
      · exact .ok _

end

end

/-- Number of blocks that are missing for a number of tokens. -/
def missingBlocks (manager : SingleTypeKVCacheManager) (requestId : RequestId)
    (numTokens : Int) : Int :=
  max (cdiv numTokens manager.blockSize - (manager.blocksOf requestId).length) 0

/-- Missing blocks are taken from the front of the queue. -/
theorem Owns.allocateNewBlocks (owns : manager.Owns pool queue others)
    (returned : manager.allocateNewBlocks pool id numTokens = .ok (blocks, changed, next)) :
    changed.Owns next (queue.drop (manager.missingBlocks id numTokens).toNat) others ∧
      manager.missingBlocks id numTokens ≤ queue.length ∧
      changed.blocksOf id = manager.blocksOf id ++ blocks ∧
      blocks = queue.take (manager.missingBlocks id numTokens).toNat ∧
      BlockPool.SameShape pool next ∧ SameGroup manager changed := by
  unfold SingleTypeKVCacheManager.allocateNewBlocks at returned
  dsimp only at returned
  split at returned
  · next enough =>
    cases returned
    have none : manager.missingBlocks id numTokens = 0 := max_eq_right enough
    rw [none]
    refine ⟨owns, by omega, by simp, by simp, .refl _, .refl _⟩
  · next short =>
    obtain ⟨⟨new, taken⟩, allocated, returned⟩ := bind_eq_ok.mp returned
    cases returned
    have some : manager.missingBlocks id numTokens = _ := max_eq_left (by omega)
    rw [some]
    have enough := owns.pool.getNewBlocks_eq_ok allocated
    obtain ⟨_, again, extended, shape⟩ :=
      owns.getNewBlocks id (by omega) enough
    cases allocated.symm.trans again
    refine ⟨extended, enough, ?_, rfl, shape, ⟨rfl, rfl, rfl, rfl⟩⟩
    rw [extendBlocks_eq_withTable, blocksOf_withTable_self]

/-- Missing blocks that are available are taken. -/
theorem Owns.avoids_allocateNewBlocks (owns : manager.Owns pool queue others)
    (enough : manager.missingBlocks id numTokens ≤ queue.length) :
    Avoids (· = .valueError) (manager.allocateNewBlocks pool id numTokens) := by
  unfold SingleTypeKVCacheManager.allocateNewBlocks
  dsimp only
  split
  · exact .ok _
  · next short =>
    have some : manager.missingBlocks id numTokens = _ := max_eq_left (by omega)
    rw [some] at enough
    obtain ⟨_, got, -⟩ := owns.getNewBlocks id (by omega) enough
    rw [got]
    exact .ok _

end Allocation

end SingleTypeKVCacheManager

/-- Null blocks stand in front of all others. -/
def Padded (blocks : List BlockId) : Prop :=
  blocks = List.replicate (blocks.length - (nonNull blocks).length) nullBlock ++ nonNull blocks

instance (blocks : List BlockId) : Decidable (Padded blocks) :=
  inferInstanceAs (Decidable (blocks = _))

theorem nonNull_eq_self {blocks : List BlockId} (held : nullBlock ∉ blocks) :
    nonNull blocks = blocks := by
  refine filter_eq_self.mpr fun block mem => ?_
  have inside : block ≠ nullBlock := fun isNull => held (isNull ▸ mem)
  simp [inside]

theorem nullBlock_notMem_nonNull (blocks : List BlockId) : nullBlock ∉ nonNull blocks :=
  fun mem => (mem_nonNull.mp mem).2 rfl

variable (count : Nat)

theorem nonNull_replicate_append (held : nullBlock ∉ blocks) :
    nonNull (List.replicate count nullBlock ++ blocks) = blocks := by
  rw [nonNull_append, nonNull_replicate, nil_append, nonNull_eq_self held]

theorem padded_replicate_append
    (held : nullBlock ∉ blocks) : Padded (List.replicate count nullBlock ++ blocks) := by
  unfold Padded
  rw [nonNull_replicate_append count held, length_append, length_replicate, Nat.add_sub_cancel]

theorem padded_nil : Padded [] := rfl

/-- New blocks keep the null blocks in front. -/
theorem Padded.append (padded : Padded blocks)
    (held : nullBlock ∉ new) : Padded (blocks ++ new) := by
  rw [padded, append_assoc]
  refine padded_replicate_append _ fun mem => ?_
  rcases mem_append.mp mem with inOld | inNew
  · exact nullBlock_notMem_nonNull blocks inOld
  · exact held inNew

/-- Null blocks in the place of the first blocks keep the others behind them. -/
theorem Padded.replaceFront (padded : Padded blocks) (count : Nat) :
    Padded (List.replicate count nullBlock ++ blocks.drop count) := by
  rw [padded, drop_append, drop_replicate, ← append_assoc, replicate_append_replicate]
  exact padded_replicate_append _ fun mem =>
    nullBlock_notMem_nonNull blocks (mem_of_mem_drop mem)

namespace SingleTypeKVCacheManager

/-- A table after the blocks in front of the window were given back. -/
def trimmedTable (blocks : List BlockId) (skipped : Nat) : List BlockId :=
  blocks.take (skipped - (skippedRun blocks skipped).length) ++
    List.replicate (skippedRun blocks skipped).length nullBlock ++ blocks.drop skipped

variable {blocks : List BlockId} {skipped : Nat}

/-- The run of skipped blocks reaches back to the null blocks. -/
theorem length_skippedRun (padded : Padded blocks) (within : skipped ≤ blocks.length) :
    (skippedRun blocks skipped).length = skipped - (blocks.length - (nonNull blocks).length) := by
  have short := length_filter_le (fun block => !decide (block = nullBlock)) blocks
  set count := blocks.length - (nonNull blocks).length
  have table : blocks = replicate count nullBlock ++ nonNull blocks := padded
  have held : ∀ block ∈ ((nonNull blocks).take (skipped - count)).reverse,
      (!decide (block = nullBlock)) = true := by
    intro block mem
    have inside := (mem_nonNull.mp (mem_of_mem_take (mem_reverse.mp mem))).2
    simp [inside]
  have front : ((replicate count nullBlock).take skipped).reverse.takeWhile
      (fun block => !decide (block = nullBlock)) = [] := by
    rw [take_replicate, reverse_replicate, takeWhile_replicate]
    simp
  unfold skippedRun
  conv_lhs => rw [table]
  rw [take_append, reverse_append, length_replicate,
    takeWhile_append_of_pos held, front, append_nil, length_reverse,
    length_take]
  omega

/-- The blocks in front of the window become null blocks. -/
theorem trimmedTable_eq (padded : Padded blocks) (within : skipped ≤ blocks.length) :
    trimmedTable blocks skipped =
      List.replicate (max (blocks.length - (nonNull blocks).length) skipped) nullBlock ++
        (nonNull blocks).drop (skipped - (blocks.length - (nonNull blocks).length)) := by
  unfold trimmedTable
  rw [length_skippedRun padded within]
  set count := blocks.length - (nonNull blocks).length
  have table : blocks = replicate count nullBlock ++ nonNull blocks := padded
  have front : blocks.take (skipped - (skipped - count)) =
      replicate (min skipped count) nullBlock := by
    conv_lhs => rw [table]
    rw [take_append, take_replicate, length_replicate,
      show skipped - (skipped - count) - count = 0 by omega, take_zero, append_nil]
    congr 1
    omega
  have back : blocks.drop skipped =
      replicate (count - skipped) nullBlock ++ (nonNull blocks).drop (skipped - count) := by
    conv_lhs => rw [table]
    rw [drop_append, drop_replicate, length_replicate]
  rw [front, back, ← append_assoc, replicate_append_replicate, replicate_append_replicate]
  congr 2
  omega

variable {manager changed : SingleTypeKVCacheManager} {pool next : BlockPool} {id : RequestId}

/-- Removing skipped blocks trims the table of the request and leaves the others. -/
theorem blocksOf_removeSkippedBlocks
    (manager : SingleTypeKVCacheManager) (pool : BlockPool) (id : RequestId) (total : Int) :
    (manager.removeSkippedBlocks pool id total).1.blocksOf id = trimmedTable (manager.blocksOf id)
          (min (manager.skippedBlocks total) (manager.blocksOf id).length) ∧
      ∀ other, other ≠ id → (manager.removeSkippedBlocks pool id total).1.blocksOf other =
          manager.blocksOf other := by
  unfold removeSkippedBlocks
  dsimp only
  split
  · next nothing =>
    have zero : manager.skippedBlocks total = 0 := by
      unfold skippedBlocks
      rw [Int.toNat_eq_zero]
      rcases Nat.eq_zero_or_pos manager.blockSize with empty | positive
      · rw [empty, Int.natCast_zero, Int.ediv_zero]
      · have divided := Int.ediv_le_ediv (Int.natCast_pos.mpr positive) nothing
        rwa [Int.zero_ediv] at divided
    refine ⟨?_, fun _ _ => rfl⟩
    rw [zero, Nat.zero_min]
    simp [trimmedTable, skippedRun]
  · exact ⟨blocksOf_withTable_self .., fun other different =>
      blocksOf_withTable_of_ne _ _ _ different⟩

/-- What trimming does to a table: its length stays, and at most the old blocks and those
behind the skipped ones are held. -/
theorem trimmedTable_spec (padded : Padded blocks) (within : skipped ≤ blocks.length) :
    Padded (trimmedTable blocks skipped) ∧ (trimmedTable blocks skipped).length = blocks.length ∧
      (nonNull (trimmedTable blocks skipped)).length ≤ (nonNull blocks).length ∧
      (nonNull (trimmedTable blocks skipped)).length + skipped ≤ blocks.length := by
  have short := length_filter_le (fun block => !decide (block = nullBlock)) blocks
  change (nonNull blocks).length ≤ blocks.length at short
  have held : nullBlock ∉ (nonNull blocks).drop
      (skipped - (blocks.length - (nonNull blocks).length)) := fun mem =>
    nullBlock_notMem_nonNull blocks (mem_of_mem_drop mem)
  rw [trimmedTable_eq padded within, nonNull_replicate_append _ held, length_append,
    length_replicate, length_drop]
  exact ⟨padded_replicate_append _ held, by omega, by omega, by omega⟩

end SingleTypeKVCacheManager

end TokenCake
