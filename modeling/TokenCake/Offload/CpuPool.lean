import TokenCake.Offload.CpuManager

/-!
# The pool of CPU blocks

Every block that was ever allocated is either cached under one key or free: blocks move
between the two when they are stored and evicted and when a store fails, and none is lost or
used twice.
-/

namespace TokenCake

open List Machine CachePolicy

variable {protectedKeys : List OffloadKey}

namespace CachePolicy

/-- The cached blocks with their keys. -/
def entries : CachePolicy → List (OffloadKey × BlockStatus)
  | lru policy => policy.blocks.entries
  | arc policy => policy.t1.entries ++ policy.t2.entries

/-- The slots of the cached blocks. -/
def slots (policy : CachePolicy) : List (OffloadKey × Nat) :=
  policy.entries.map fun entry => (entry.1, entry.2.blockId)

/-- The CPU block of a cached key. -/
def slotOf (policy : CachePolicy) (key : OffloadKey) : Option Nat :=
  (policy.get key).map BlockStatus.blockId

variable {policy next : CachePolicy} {key : OffloadKey}

section

variable (valid : policy.Valid)

include valid

/-- Every key is cached once. -/
theorem Valid.nodup_keys : (policy.entries.map Prod.fst).Nodup := by
  cases policy with
  | lru policy => exact policy.blocks.nodup
  | arc policy =>
    change ((policy.t1.entries ++ policy.t2.entries).map Prod.fst).Nodup
    rw [map_append]
    exact policy.t1.nodup.append policy.t2.nodup fun key inT1 inT2 => valid key inT1 inT2

theorem Valid.mem_entries_iff {block : BlockStatus} :
    (key, block) ∈ policy.entries ↔ policy.get key = some block := by
  cases policy with
  | lru policy => exact Dict.get?_eq_some_iff.symm
  | arc policy =>
    change (key, block) ∈ policy.t1.entries ++ policy.t2.entries ↔ policy.get key = some block
    rw [mem_append, ← Dict.get?_eq_some_iff, ← Dict.get?_eq_some_iff]
    by_cases inT1 : key ∈ policy.t1
    · have notInT2 := Dict.get?_eq_none_iff.mpr (valid key inT1)
      rw [ARCCachePolicy.get_of_mem_t1 inT1, notInT2]
      simp
    · have notFound := Dict.get?_eq_none_iff.mpr inT1
      rw [ARCCachePolicy.get_of_notMem_t1 inT1, notFound]
      simp

theorem Valid.mem_slots_iff {blockId : Nat} :
    (key, blockId) ∈ policy.slots ↔ policy.slotOf key = some blockId := by
  unfold slots slotOf
  rw [mem_map, Option.map_eq_some_iff]
  constructor
  · rintro ⟨⟨other, block⟩, mem, same⟩
    cases same
    exact ⟨block, valid.mem_entries_iff.mp mem, rfl⟩
  · rintro ⟨block, found, rfl⟩
    exact ⟨(key, block), valid.mem_entries_iff.mpr found, rfl⟩

theorem Valid.nodup_slots : policy.slots.Nodup := by
  have keys : policy.slots.map Prod.fst = policy.entries.map Prod.fst := by
    unfold slots
    rw [map_map]
    rfl
  apply Nodup.of_map Prod.fst
  rw [keys]
  exact valid.nodup_keys

end

section

variable (valid : policy.Valid)

include valid

/-- The slots are determined by the blocks of the keys. -/
theorem Valid.slots_perm {slots : List (OffloadKey × Nat)} (nodup : slots.Nodup)
    (same : ∀ key blockId, (key, blockId) ∈ slots ↔ policy.slotOf key = some blockId) :
    policy.slots.Perm slots := by
  rw [perm_ext_iff_of_nodup valid.nodup_slots nodup]
  rintro ⟨key, blockId⟩
  rw [valid.mem_slots_iff, same]

theorem Valid.slots_insert (absent : policy.get key = none) (block : BlockStatus) :
    (policy.insert key block).slots.Perm ((key, block.blockId) :: policy.slots) := by
  have noSlot : policy.slotOf key = none := by rw [slotOf, absent, Option.map_none]
  refine (valid.insert (mayInsert_of_get_eq_none absent) block).slots_perm ?_ fun other blockId => ?_
  · rw [nodup_cons]
    refine ⟨fun mem => ?_, valid.nodup_slots⟩
    rw [valid.mem_slots_iff, noSlot] at mem
    cases mem
  · rw [mem_cons, valid.mem_slots_iff, slotOf, slotOf, get_insert]
    by_cases same : other = key
    · subst same
      rw [absent, if_pos rfl]
      simp [eq_comm]
    · rw [if_neg same]
      simp [same]

theorem Valid.slots_remove {block : BlockStatus} (found : policy.get key = some block) :
    policy.slots.Perm ((key, block.blockId) :: (policy.remove key).slots) := by
  have removed : (policy.remove key).Valid := valid.remove key
  have isSlot : policy.slotOf key = some block.blockId := by rw [slotOf, found, Option.map_some]
  have noSlot : (policy.remove key).slotOf key = none := by
    rw [slotOf, get_remove valid, if_pos rfl, Option.map_none]
  refine valid.slots_perm ?_ fun other blockId => ?_
  · rw [nodup_cons]
    refine ⟨fun mem => ?_, removed.nodup_slots⟩
    rw [removed.mem_slots_iff, noSlot] at mem
    cases mem
  · rw [mem_cons, removed.mem_slots_iff]
    by_cases same : other = key
    · subst same
      rw [isSlot, noSlot]
      simp [eq_comm]
    · rw [slotOf, get_remove valid, if_neg same, slotOf]
      simp [same]

/-- An eviction takes the slots of the evicted blocks away. -/
theorem Valid.slots_evict {n : Nat} {evicted : List (OffloadKey × BlockStatus)}
    (returned : policy.evict n protectedKeys = some (evicted, next)) :
    policy.slots.Perm ((evicted.map fun entry => (entry.1, entry.2.blockId)) ++ next.slots) := by
  obtain ⟨nextValid, spec⟩ := valid.evict returned
  have keysOf : (evicted.map fun entry => (entry.1, entry.2.blockId)).map Prod.fst =
      evicted.map Prod.fst := by
    rw [map_map]
    rfl
  have gone : ∀ key ∈ evicted.map Prod.fst, next.slotOf key = none := by
    intro key mem
    rw [slotOf, spec.rest, if_pos mem, Option.map_none]
  refine valid.slots_perm ?_ fun key blockId => ?_
  · refine Nodup.append ?_ nextValid.nodup_slots ?_
    · apply Nodup.of_map Prod.fst
      rw [keysOf]
      exact spec.distinct
    · rintro ⟨key, blockId⟩ wasEvicted stays
      have mem : key ∈ evicted.map Prod.fst := keysOf ▸ mem_map_of_mem wasEvicted
      rw [nextValid.mem_slots_iff, gone key mem] at stays
      cases stays
  · rw [mem_append, nextValid.mem_slots_iff]
    by_cases mem : key ∈ evicted.map Prod.fst
    · obtain ⟨entry, isEntry, rfl⟩ := mem_map.mp mem
      rw [gone entry.1 mem, slotOf, spec.found entry isEntry, Option.map_some]
      constructor
      · rintro (wasEvicted | stays)
        · obtain ⟨other, isOther, same⟩ := mem_map.mp wasEvicted
          obtain ⟨sameKey, sameId⟩ := Prod.mk.inj same
          have sameBlock := spec.found other isOther
          rw [sameKey, spec.found entry isEntry] at sameBlock
          rw [Option.some.inj sameBlock, sameId]
        · cases stays
      · intro same
        cases same
        exact .inl (mem_map_of_mem isEntry)
    · have sameSlot : next.slotOf key = policy.slotOf key := by
        rw [slotOf, spec.rest, if_neg mem, slotOf]
      rw [sameSlot]
      refine ⟨fun listed => listed.resolve_left fun wasEvicted => mem ?_, .inr⟩
      exact keysOf ▸ mem_map_of_mem wasEvicted

end

end CachePolicy

namespace CPUOffloadingManager

variable {manager next : CPUOffloadingManager} {keys : List OffloadKey} {key : OffloadKey}

/-- The cached and the free blocks are together the allocated ones, each listed once. -/
structure PoolInvariant (manager : CPUOffloadingManager) : Prop where
  valid : manager.Valid
  blocks : ((manager.policy.slots.map Prod.snd) ++ manager.freeList).Perm
    (List.range manager.numAllocatedBlocks)
  allocated : manager.numAllocatedBlocks ≤ manager.numBlocks

/-- All blocks stay where they are. -/
structure KeepsPool (manager next : CPUOffloadingManager) : Prop where
  valid : next.Valid
  slotOf : ∀ key, next.policy.slotOf key = manager.policy.slotOf key
  freeList : next.freeList = manager.freeList
  numAllocatedBlocks : next.numAllocatedBlocks = manager.numAllocatedBlocks
  numBlocks : next.numBlocks = manager.numBlocks

theorem KeepsPool.refl (valid : manager.Valid) : KeepsPool manager manager :=
  ⟨valid, fun _ => rfl, rfl, rfl, rfl⟩

theorem KeepsPool.trans (first : KeepsPool manager middle)
    (second : KeepsPool middle next) : KeepsPool manager next where
  valid := second.valid
  slotOf key := (second.slotOf key).trans (first.slotOf key)
  freeList := second.freeList.trans first.freeList
  numAllocatedBlocks := second.numAllocatedBlocks.trans first.numAllocatedBlocks
  numBlocks := second.numBlocks.trans first.numBlocks

theorem PoolInvariant.of_keepsPool (invariant : manager.PoolInvariant)
    (keeps : KeepsPool manager next) : next.PoolInvariant := by
  have slots : next.policy.slots.Perm manager.policy.slots := by
    refine keeps.valid.slots_perm invariant.valid.nodup_slots fun key blockId => ?_
    rw [invariant.valid.mem_slots_iff, keeps.slotOf]
  refine ⟨keeps.valid, ?_, ?_⟩
  · rw [keeps.freeList, keeps.numAllocatedBlocks]
    exact ((slots.map Prod.snd).append_right _).trans invariant.blocks
  · rw [keeps.numAllocatedBlocks, keeps.numBlocks]
    exact invariant.allocated

section

variable (valid : manager.Valid)

include valid

theorem keepsPool_addReference (key : OffloadKey) (block : BlockStatus)
    (amount : Int) : KeepsPool manager (manager.addReference key block amount) := by
  refine ⟨valid.setRefCnt key _, fun other => ?_, rfl, rfl, rfl⟩
  unfold slotOf addReference
  rw [get_setRefCnt]
  split
  · next same =>
    rw [same, Option.map_map]
    rfl
  · rfl

theorem keepsPool_prepareLoad {blockIds : List Nat}
    (returned : prepareLoad keys manager = .ok (blockIds, next)) : KeepsPool manager next := by
  induction keys generalizing manager blockIds with
  | nil =>
    cases returned
    exact .refl valid
  | cons key rest ih =>
    unfold prepareLoad at returned
    split at returned
    · cases returned
    · next block found =>
      split at returned
      · obtain ⟨⟨ids, prepared⟩, stepped, returned⟩ := bind_eq_ok.mp returned
        cases returned
        have added := keepsPool_addReference valid key block 1
        exact added.trans (ih added.valid stepped)
      · cases returned

theorem keepsPool_completeLoad
    (returned : completeLoad keys manager = .ok next) : KeepsPool manager next := by
  induction keys generalizing manager with
  | nil =>
    cases returned
    exact .refl valid
  | cons key rest ih =>
    unfold completeLoad at returned
    split at returned
    · cases returned
    · next block found =>
      split at returned
      · have removed := keepsPool_addReference valid key block (-1)
        exact removed.trans (ih removed.valid returned)
      · cases returned

theorem keepsPool_retain (keys : List OffloadKey) : KeepsPool manager (manager.retain keys).2 := by
  unfold retain
  generalize keys.dedup = keys, [] = retained
  induction keys generalizing manager retained with
  | nil => exact .refl valid
  | cons key rest ih =>
    rw [foldl_cons, retainKey]
    split
    · exact ih valid retained
    · next block found =>
      split
      · have added := keepsPool_addReference valid key block 1
        exact added.trans (ih added.valid _)
      · exact ih valid retained

theorem keepsPool_release (returned : manager.release keys = .ok next) :
    KeepsPool manager next := by
  obtain ⟨-, -, folded⟩ := bind_eq_ok.mp returned
  cases folded
  clear returned
  generalize keys.dedup = keys
  induction keys generalizing manager with
  | nil => exact .refl valid
  | cons key rest ih =>
    rw [foldl_cons, dropReference]
    split
    · exact ih valid
    · next block found =>
      have dropped := keepsPool_addReference valid key block (-1)
      exact dropped.trans (ih dropped.valid)

theorem keepsPool_touch (keys : List OffloadKey) : KeepsPool manager (manager.touch keys) := by
  refine ⟨valid.touch keys, fun key => ?_, rfl, rfl, rfl⟩
  unfold slotOf touch
  rw [get_touch valid]

theorem keepsPool_lookup {answer : Option Bool}
    (returned : manager.lookup key = .ok (answer, next)) : KeepsPool manager next := by
  obtain ⟨tracked, wasTracked, returned⟩ := bind_eq_ok.mp returned
  cases returned
  unfold countReference at wasTracked
  split at wasTracked
  · cases wasTracked
    exact .refl valid
  · obtain ⟨counts, -, wasTracked⟩ := bind_eq_ok.mp wasTracked
    cases wasTracked
    exact ⟨valid, fun _ => rfl, rfl, rfl, rfl⟩

end

/-- The end of a store leaves the block of a key in place or frees it. -/
theorem PoolInvariant.completeStore (invariant : manager.PoolInvariant) (keys : List OffloadKey)
    (success : Bool) : (manager.completeStore keys success).PoolInvariant := by
  unfold CPUOffloadingManager.completeStore
  induction keys generalizing manager with
  | nil => exact invariant
  | cons key rest ih =>
    rw [foldl_cons]
    refine ih ?_
    unfold completeKey
    split
    · exact invariant
    · next block found =>
      split
      · exact invariant
      · split
        · have kept := keepsPool_addReference invariant.valid key block (-block.refCnt)
          unfold addReference at kept
          rw [Int.add_right_neg] at kept
          exact invariant.of_keepsPool kept
        · have valid : manager.policy.Valid := invariant.valid
          refine ⟨valid.remove key, ?_, invariant.allocated⟩
          have moved := ((valid.slots_remove found).map Prod.snd).append_right manager.freeList
          refine Perm.trans ?_ (moved.symm.trans invariant.blocks)
          change ((manager.policy.remove key).slots.map Prod.snd ++
            (manager.freeList ++ [block.blockId])).Perm (block.blockId ::
              ((manager.policy.remove key).slots.map Prod.snd ++ manager.freeList))
          rw [← append_assoc]
          exact perm_append_singleton ..

theorem slots_clear (policy : CachePolicy) : policy.clear.slots = [] := by
  cases policy <;> rfl

theorem poolInvariant_resetCache (manager : CPUOffloadingManager) :
    manager.resetCache.PoolInvariant := by
  refine ⟨valid_clear _, ?_, Nat.zero_le _⟩
  unfold resetCache
  rw [slots_clear]
  exact .refl _

variable {count : Nat}

/-- Making room frees as many blocks as are missing. -/
theorem PoolInvariant.makeRoom (invariant : manager.PoolInvariant) {evictedKeys : List OffloadKey}
    (returned : manager.makeRoom count protectedKeys = some (evictedKeys, next)) :
    next.PoolInvariant ∧ (count : Int) ≤ next.getNumFreeBlocks := by
  unfold CPUOffloadingManager.makeRoom at returned
  dsimp only at returned
  split at returned
  · next missing =>
    obtain ⟨⟨evicted, policy⟩, found, returned⟩ := Option.bind_eq_some_iff.mp returned
    cases returned
    obtain ⟨valid, spec⟩ := Valid.evict invariant.valid found
    have moved := (Valid.slots_evict invariant.valid found).map Prod.snd
    rw [List.map_append, List.map_map] at moved
    rw [freeEvicted_eq]
    refine ⟨⟨valid, ?_, invariant.allocated⟩, ?_⟩
    · have counts := List.perm_iff_count.mp invariant.blocks
      have movedCounts := List.perm_iff_count.mp moved
      rw [List.perm_iff_count]
      intro blockId
      have before := counts blockId
      have parts := movedCounts blockId
      simp only [List.count_append] at before parts ⊢
      change _ = List.count blockId (evicted.map fun entry => entry.2.blockId) + _ at parts
      omega
    · have freed := spec.length
      unfold getNumFreeBlocks at missing freed ⊢
      simp only [List.length_append, List.length_map, freed]
      push_cast
      omega
  · cases returned
    exact ⟨invariant, by omega⟩

/-- Enough free blocks are allocated, each of them once. -/
theorem PoolInvariant.allocateBlocks (invariant : manager.PoolInvariant)
    (enough : (count : Int) ≤ manager.getNumFreeBlocks) :
    ∃ blocks next, manager.allocateBlocks count = .ok (blocks, next) ∧ blocks.length = count ∧
      next.policy = manager.policy ∧ next.numAllocatedBlocks ≤ next.numBlocks ∧
      (manager.policy.slots.map Prod.snd ++ blocks.map BlockStatus.blockId ++ next.freeList).Perm
        (List.range next.numAllocatedBlocks) := by
  unfold getNumFreeBlocks at enough
  have allocated := invariant.allocated
  set numFresh := min count (manager.numBlocks - manager.numAllocatedBlocks) with isFresh
  set numReused := count - numFresh with isReused
  have reusable : manager.freeList.length ≥ numReused := by omega
  refine ⟨_, _, bind_eq_ok.mpr ⟨(), ensure_eq_ok.mpr (decide_eq_true reusable), rfl⟩, ?_, rfl, ?_, ?_⟩
  · simp only [List.length_append, List.length_map, List.length_range, List.length_take,
      List.length_reverse]
    omega
  · dsimp only
    omega
  · rw [List.map_append, List.map_map, List.map_map, List.range_add]
    have counts := List.perm_iff_count.mp invariant.blocks
    rw [List.perm_iff_count]
    intro blockId
    have before := counts blockId
    have fresh : (List.range numFresh).map (BlockStatus.blockId ∘ fun index =>
        ({ blockId := manager.numAllocatedBlocks + index } : BlockStatus)) =
          (List.range numFresh).map (manager.numAllocatedBlocks + ·) := rfl
    have reused : (manager.freeList.reverse.take numReused).map (BlockStatus.blockId ∘ fun blockId =>
        ({ blockId := blockId } : BlockStatus)) = manager.freeList.reverse.take numReused :=
      List.map_id _
    have parts : List.count blockId (manager.freeList.take (manager.freeList.length - numReused)) +
        List.count blockId (manager.freeList.reverse.take numReused) =
          List.count blockId manager.freeList := by
      rw [List.take_reverse, List.count_reverse, ← List.count_append, List.take_append_drop]
    rw [fresh, reused]
    simp only [← isFresh, ← isReused, List.count_append] at before ⊢
    omega

theorem slots_insertBlocks {policy : CachePolicy} (valid : policy.Valid) {keys : List OffloadKey}
    (distinct : keys.Nodup) (absent : ∀ key ∈ keys, policy.get key = none)
    {blocks : List BlockStatus} (sameLength : blocks.length = keys.length) :
    ((keys.zip blocks).foldl (fun policy entry => policy.insert entry.1 entry.2) policy).Valid ∧
      (((keys.zip blocks).foldl (fun policy entry => policy.insert entry.1 entry.2) policy).slots.map
        Prod.snd).Perm (policy.slots.map Prod.snd ++ blocks.map BlockStatus.blockId) := by
  induction keys generalizing policy blocks with
  | nil =>
    rw [length_eq_zero_iff.mp sameLength]
    exact ⟨valid, by simp⟩
  | cons key rest ih =>
    obtain _ | ⟨block, blocks⟩ := blocks
    · cases sameLength
    · rw [nodup_cons] at distinct
      have isAbsent := absent key mem_cons_self
      have restAbsent : ∀ other ∈ rest, (policy.insert key block).get other = none := by
        intro other mem
        have different : other ≠ key := fun same => distinct.1 (same ▸ mem)
        rw [get_insert, if_neg different]
        exact absent other (mem_cons_of_mem _ mem)
      obtain ⟨finalValid, final⟩ := ih
        (valid.insert (mayInsert_of_get_eq_none isAbsent) block) distinct.2 restAbsent
        (Nat.succ_inj.mp sameLength)
      refine ⟨finalValid, final.trans ?_⟩
      have inserted := ((valid.slots_insert isAbsent block).map Prod.snd).append_right
        (blocks.map BlockStatus.blockId)
      refine inserted.trans ?_
      rw [map_cons, map_cons, cons_append]
      exact perm_middle.symm

/-- A store of distinct keys finds the blocks it allocates, and a refused one changes nothing. -/
theorem PoolInvariant.prepareStore (invariant : manager.PoolInvariant) (distinct : keys.Nodup) :
    ∃ output next, manager.prepareStore keys = .ok (output, next) ∧ next.PoolInvariant ∧
      (output = none → next = manager) := by
  have subset : (manager.keysAboveThreshold keys).Nodup := distinct.filter _
  unfold CPUOffloadingManager.prepareStore
  dsimp only
  set keysToStore := (manager.keysAboveThreshold keys).filter
    fun key => (manager.policy.get key).isNone with isKeysToStore
  split
  · exact ⟨_, _, rfl, invariant, nofun⟩
  · split
    · exact ⟨_, _, rfl, invariant, fun _ => rfl⟩
    · next evictedKeys roomy made =>
      obtain ⟨roomyInvariant, enough⟩ := invariant.makeRoom made
      obtain ⟨blocks, allocated, wasAllocated, sameLength, samePolicy, bounded, placed⟩ :=
        roomyInvariant.allocateBlocks enough
      refine ⟨_, _, bind_eq_ok.mpr ⟨(blocks, allocated), wasAllocated, bind_eq_ok.mpr
        ⟨(), ensure_eq_ok.mpr (decide_eq_true sameLength), rfl⟩⟩, ?_, nofun⟩
      have absent : ∀ key ∈ keysToStore, allocated.policy.get key = none := by
        intro key mem
        have wasAbsent := Option.isNone_iff_eq_none.mp (mem_filter.mp mem).2
        rw [samePolicy, (makeRoom_spec invariant.valid made).2.2, wasAbsent, ite_self]
      have valid : allocated.policy.Valid := by
        rw [samePolicy]
        exact roomyInvariant.valid
      obtain ⟨finalValid, final⟩ := slots_insertBlocks valid (subset.filter _) absent sameLength
      refine ⟨finalValid, ?_, bounded⟩
      rw [← samePolicy] at placed
      exact (final.append_right _).trans placed

variable {output : Option PrepareStoreOutput}

/-- Nothing has to be evicted for a store. -/
def HasRoom (manager : CPUOffloadingManager) (keys : List OffloadKey) : Prop :=
  ((manager.keysAboveThreshold keys).filter fun key => (manager.policy.get key).isNone).length ≤
    manager.getNumFreeBlocks

/-- What a store leaves of the cache. -/
theorem prepareStore_spec (valid : manager.Valid)
    (returned : manager.prepareStore keys = .ok (output, next)) :
    next.Valid ∧ (∀ key ∈ evicted output, ¬ manager.HasRoom keys ∧
        key ∉ manager.keysAboveThreshold keys ∧ manager.refCnts key = some 0) ∧
      ∀ key block, manager.policy.get key = some block → key ∉ evicted output →
        next.policy.get key = some block := by
  unfold prepareStore at returned
  dsimp only at returned
  split at returned
  · cases returned
    exact ⟨valid, nofun, fun _ _ found _ => found⟩
  · split at returned
    · cases returned
      exact ⟨valid, nofun, fun _ _ found _ => found⟩
    · next evictedKeys roomy made =>
      obtain ⟨⟨blocks, allocated⟩, wasAllocated, returned⟩ := bind_eq_ok.mp returned
      obtain ⟨_, sameLength, returned⟩ := bind_eq_ok.mp returned
      cases returned
      obtain ⟨roomyValid, unused, rest⟩ := makeRoom_spec valid made
      have samePolicy := (allocateBlocks_spec wasAllocated).1
      have absent : ∀ key ∈ (manager.keysAboveThreshold keys).filter
          (fun key => (manager.policy.get key).isNone), manager.policy.get key = none :=
        fun key mem => Option.isNone_iff_eq_none.mp (mem_filter.mp mem).2
      have allocatedValid : allocated.policy.Valid := by
        rw [samePolicy]
        exact roomyValid
      obtain ⟨finalValid, inserted⟩ := foldl_insert_spec allocatedValid
        (of_decide_eq_true (ensure_eq_ok.mp sameLength)) fun key mem => by
          apply mayInsert_of_get_eq_none
          rw [samePolicy, rest, absent key mem, ite_self]
      refine ⟨finalValid, fun key mem => ?_, fun key block found stays => ?_⟩
      · obtain ⟨short, unprotected, unreferenced⟩ := unused key mem
        exact ⟨not_le.mpr short, unprotected, unreferenced⟩
      · refine ((inserted key).1 fun mem => ?_).trans ?_
        · cases (absent key mem).symm.trans found
        · have notEvicted : key ∉ evictedKeys := stays
          rw [samePolicy, rest, if_neg notEvicted, found]

theorem valid_of_prepareStore (valid : manager.Valid)
    (returned : manager.prepareStore keys = .ok (output, next)) : next.Valid :=
  (prepareStore_spec valid returned).1

/-- Nothing has to be evicted for a store, or its keys that may be evicted are all counted as
often as the threshold asks. -/
def SparesInput (manager : CPUOffloadingManager) (keys : List OffloadKey) : Prop :=
  manager.HasRoom keys ∨
    ∀ key ∈ keys, manager.refCnts key = some 0 → manager.reachesThreshold key = true

instance (manager : CPUOffloadingManager) (keys : List OffloadKey) :
    Decidable (manager.SparesInput keys) :=
  inferInstanceAs (Decidable (_ ≤ _ ∨ ∀ key ∈ keys, _ → _))

theorem keeps_input_of_prepareStore (valid : manager.Valid) (spares : manager.SparesInput keys)
    {output : PrepareStoreOutput} (returned : manager.prepareStore keys = .ok (some output, next)) :
    (∀ key ∈ keys, key ∉ output.evictedKeys) ∧
      ∀ key ∈ keys, ∀ block, manager.policy.get key = some block →
        next.policy.get key = some block := by
  obtain ⟨-, unprotected, kept⟩ := prepareStore_spec valid returned
  have stays : ∀ key ∈ keys, key ∉ output.evictedKeys := by
    intro key mem isEvicted
    obtain ⟨full, notProtected, unreferenced⟩ := unprotected key isEvicted
    have counted := spares.resolve_left full
    exact notProtected (mem_filter.mpr ⟨mem, counted key mem unreferenced⟩)
  exact ⟨stays, fun key mem block found => kept key block found (stays key mem)⟩

end CPUOffloadingManager

/-- A call of the manager. -/
inductive CpuOperation where
  | prepareStore (keys : List OffloadKey)
  | completeStore (keys : List OffloadKey) (success : Bool)
  | prepareLoad (keys : List OffloadKey)
  | completeLoad (keys : List OffloadKey)
  | retain (keys : List OffloadKey)
  | release (keys : List OffloadKey)
  | touch (keys : List OffloadKey)
  | lookup (key : OffloadKey)
  | resetCache
deriving DecidableEq, Repr

namespace CpuOperation

open CPUOffloadingManager

/-- The manager after a call. -/
def apply (manager : CPUOffloadingManager) : CpuOperation → Except OffloadError CPUOffloadingManager
  | prepareStore keys => do return (← manager.prepareStore keys).2
  | completeStore keys success => .ok (manager.completeStore keys success)
  | prepareLoad keys => do return (← CPUOffloadingManager.prepareLoad keys manager).2
  | completeLoad keys => CPUOffloadingManager.completeLoad keys manager
  | retain keys => .ok (manager.retain keys).2
  | release keys => manager.release keys
  | touch keys => .ok (manager.touch keys)
  | lookup key => do return (← manager.lookup key).2
  | resetCache => .ok manager.resetCache

/-- An operation that names every key once. -/
def Distinct (_ : CPUOffloadingManager) : CpuOperation → Prop
  | prepareStore keys => keys.Nodup
  | _ => True

instance (manager : CPUOffloadingManager) (operation : CpuOperation) :
    Decidable (Distinct manager operation) :=
  match operation with
  | prepareStore keys => inferInstanceAs (Decidable keys.Nodup)
  | completeStore .. | prepareLoad _ | completeLoad _ | retain _ | release _ | touch _ | lookup _
  | resetCache => inferInstanceAs (Decidable True)

variable {manager next : CPUOffloadingManager} {operation : CpuOperation}

/-- All calls but stores and resets leave the blocks where they are. -/
theorem keepsPool_of_apply (valid : manager.Valid) (applied : apply manager operation = .ok next) :
    KeepsPool manager next ∨ (∃ keys, operation = prepareStore keys) ∨
      (∃ keys success, operation = completeStore keys success) ∨ operation = resetCache := by
  cases operation with
  | prepareStore keys => exact .inr (.inl ⟨keys, rfl⟩)
  | completeStore keys success => exact .inr (.inr (.inl ⟨keys, success, rfl⟩))
  | prepareLoad keys =>
    obtain ⟨⟨blockIds, loaded⟩, isLoaded, applied⟩ := bind_eq_ok.mp applied
    cases applied
    exact .inl (keepsPool_prepareLoad valid isLoaded)
  | completeLoad keys => exact .inl (keepsPool_completeLoad valid applied)
  | retain keys =>
    cases applied
    exact .inl (keepsPool_retain valid keys)
  | release keys => exact .inl (keepsPool_release valid applied)
  | touch keys =>
    cases applied
    exact .inl (keepsPool_touch valid keys)
  | lookup key =>
    obtain ⟨⟨answer, tracked⟩, isTracked, applied⟩ := bind_eq_ok.mp applied
    cases applied
    exact .inl (keepsPool_lookup valid isTracked)
  | resetCache => exact .inr (.inr (.inr rfl))

theorem poolInvariant_of_apply (invariant : manager.PoolInvariant)
    (distinct : Distinct manager operation)
    (applied : apply manager operation = .ok next) : next.PoolInvariant := by
  rcases keepsPool_of_apply invariant.valid applied with
    keeps | ⟨keys, rfl⟩ | ⟨keys, success, rfl⟩ | rfl
  · exact invariant.of_keepsPool keeps
  · obtain ⟨⟨output, stored⟩, isStored, applied⟩ := bind_eq_ok.mp applied
    cases applied
    obtain ⟨_, _, returned, final, -⟩ := invariant.prepareStore distinct
    cases isStored.symm.trans returned
    exact final
  · cases applied
    exact invariant.completeStore keys success
  · cases applied
    exact poolInvariant_resetCache manager

theorem poolInvariant_init
    (numBlocks : Nat) (policy : CachePolicy) (storeThreshold maxTrackerSize : Nat) :
    (init numBlocks policy storeThreshold maxTrackerSize).PoolInvariant := by
  refine ⟨valid_clear _, ?_, Nat.zero_le _⟩
  change (policy.clear.slots.map Prod.snd ++ []).Perm []
  rw [slots_clear]
  exact .refl _

/-- In every run, the cached and the free blocks are together the allocated ones, each listed
once and none beyond the capacity, every key has one block, and a further store of distinct
keys never runs out of blocks and changes nothing if it is refused. -/
theorem pool_sound_of_run
    {numBlocks : Nat} {policy : CachePolicy} {storeThreshold maxTrackerSize : Nat}
    {operations : List CpuOperation} {manager : CPUOffloadingManager}
    (distinct : Machine.Along apply Distinct
      (init numBlocks policy storeThreshold maxTrackerSize) operations)
    (reached : Machine.run apply (init numBlocks policy storeThreshold maxTrackerSize) operations =
      .ok manager) :
    ((manager.policy.slots.map Prod.snd) ++ manager.freeList).Perm
        (List.range manager.numAllocatedBlocks) ∧
      manager.numAllocatedBlocks ≤ manager.numBlocks ∧
      (manager.policy.entries.map Prod.fst).Nodup ∧
      ∀ keys : List OffloadKey, keys.Nodup →
        ∃ output next, manager.prepareStore keys = .ok (output, next) ∧
          (output = none → next = manager) := by
  have invariant : manager.PoolInvariant := invariant_of_run (fun _ _ _ => poolInvariant_of_apply)
    (poolInvariant_init numBlocks policy storeThreshold maxTrackerSize) distinct reached
  refine ⟨invariant.blocks, invariant.allocated, invariant.valid.nodup_keys, fun keys nodup => ?_⟩
  obtain ⟨output, next, returned, -, unchanged⟩ := invariant.prepareStore nodup
  exact ⟨output, next, returned, unchanged⟩

/-- An empty cache with two slots. -/
def emptyCache : CPUOffloadingManager := init 2 (.arc { cacheCapacity := 2 }) 1 4

/-- Two stores of which one fails, and a third one that reuses its block. -/
def storeRun : List CpuOperation :=
  [.prepareStore [firstKey, secondKey],
    .completeStore [firstKey] true, .completeStore [secondKey] false,
    .retain [firstKey], .touch [firstKey],
    .prepareStore [secondKey]]

/-- The cache after the stores. -/
def storeRunFinal : CPUOffloadingManager :=
  (Machine.run apply emptyCache storeRun).toOption.getD emptyCache

theorem storeRun_pool_sound :
    ((storeRunFinal.policy.slots.map Prod.snd) ++ storeRunFinal.freeList).Perm
        (List.range storeRunFinal.numAllocatedBlocks) ∧
      storeRunFinal.numAllocatedBlocks ≤ storeRunFinal.numBlocks ∧
      (storeRunFinal.policy.entries.map Prod.fst).Nodup ∧
      ∀ keys : List OffloadKey, keys.Nodup →
        ∃ output next, storeRunFinal.prepareStore keys = .ok (output, next) ∧
          (output = none → next = storeRunFinal) := by
  have distinct : Machine.Along apply Distinct (init 2 (.arc { cacheCapacity := 2 }) 1 4) storeRun :=
    Machine.along_of_checkAlong apply (by decide +kernel)
  exact pool_sound_of_run distinct (eq_ok_getD_of_isSome _ _ (by decide +kernel))

/-- Every call keeps the parts of the cache disjoint. -/
theorem valid_of_apply (valid : manager.Valid)
    (applied : apply manager operation = .ok next) : next.Valid := by
  rcases keepsPool_of_apply valid applied with keeps | ⟨keys, rfl⟩ | ⟨keys, success, rfl⟩ | rfl
  · exact keeps.valid
  · obtain ⟨⟨output, stored⟩, isStored, applied⟩ := bind_eq_ok.mp applied
    cases applied
    exact valid_of_prepareStore valid isStored
  · cases applied
    exact (completeStore_spec valid keys success).1
  · cases applied
    exact valid_clear _

/-- In every reachable state, a store for which nothing has to be evicted, or whose keys that
may be evicted are all still counted as often as the threshold asks, evicts none of its keys and
leaves their blocks as they are. -/
theorem prepareStore_keeps_input_of_run
    {numBlocks : Nat} {policy : CachePolicy} {storeThreshold maxTrackerSize : Nat}
    {operations : List CpuOperation} {manager next : CPUOffloadingManager}
    (reached : Machine.run apply (init numBlocks policy storeThreshold maxTrackerSize) operations =
      .ok manager)
    {keys : List OffloadKey} {output : PrepareStoreOutput}
    (spares : manager.SparesInput keys)
    (returned : manager.prepareStore keys = .ok (some output, next)) :
    (∀ key ∈ keys, key ∉ output.evictedKeys) ∧
      ∀ key ∈ keys, ∀ block, manager.policy.get key = some block →
        next.policy.get key = some block := by
  have valid : manager.Valid := by
    refine invariant_of_run (fun _ _ _ valid _ => valid_of_apply valid) ?_
      (along_true operations) reached
    exact valid_clear policy
  exact keeps_input_of_prepareStore valid spares returned

/-- A cache with one block that stores keys on their second lookup and counts one key. -/
def trackedCache : CPUOffloadingManager := init 1 (.lru ⟨.empty⟩) 2 1

/-- One key is stored, and another one takes its place in the tracker. -/
def forgettingRun : List CpuOperation :=
  [.lookup firstKey, .lookup firstKey,
    .prepareStore [firstKey], .completeStore [firstKey] true,
    .lookup secondKey, .lookup secondKey]

/-- The store of both keys evicts the first one: its count is forgotten, so that it is filtered
out before the keys are protected. -/
theorem forgottenKey_evicted :
    ((Machine.run apply trackedCache forgettingRun).bind fun manager =>
        manager.prepareStore [firstKey, secondKey]).toOption.map
      (fun result => result.1.map PrepareStoreOutput.evictedKeys) =
        some (some [firstKey]) := by
  decide +kernel

/-- Three keys are counted, of which two are stored in a cache with two blocks. -/
def countedRun : List CpuOperation :=
  forgettingRun ++ [.prepareStore [secondKey], .completeStore [secondKey] true,
    .lookup thirdKey, .lookup thirdKey]

/-- A cache that counts three keys. -/
def countedCache : CPUOffloadingManager :=
  (run apply (init 2 (.lru ⟨.empty⟩) 2 3) countedRun).toOption.getD trackedCache

/-- The store of a cached key and a new one evicts another key. -/
theorem countedCache_keeps_input :
    ∃ output next, countedCache.prepareStore [secondKey, thirdKey] = .ok (some output, next) ∧
      output.evictedKeys = [firstKey] ∧ (∀ key ∈ [secondKey, thirdKey], key ∉ output.evictedKeys) ∧
      ∀ key ∈ [secondKey, thirdKey], ∀ block, countedCache.policy.get key = some block →
        next.policy.get key = some block := by
  have reached : run apply (init 2 (.lru ⟨.empty⟩) 2 3) countedRun = .ok countedCache :=
    eq_ok_getD_of_isSome _ _ (by decide +kernel)
  have spares : countedCache.SparesInput [secondKey, thirdKey] := by decide +kernel
  let result := (countedCache.prepareStore [secondKey, thirdKey]).toOption.getD (none, countedCache)
  have output : result.1 = some ⟨[thirdKey], [0], [firstKey]⟩ := by decide +kernel
  have returned : countedCache.prepareStore [secondKey, thirdKey] =
      .ok (some ⟨[thirdKey], [0], [firstKey]⟩, result.2) := by
    rw [← output]
    exact eq_ok_getD_of_isSome _ (none, countedCache) (by decide +kernel)
  exact ⟨_, _, returned, rfl, prepareStore_keeps_input_of_run reached spares returned⟩

end CpuOperation

end TokenCake
