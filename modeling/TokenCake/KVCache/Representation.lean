import TokenCake.KVCache.HitRows
import TokenCake.KVCache.Tables

/-!
# The representation of the KV cache

Free queue, reference counts, block tables and the map of hashes describe one
state: a block is free exactly if no table lists it.  All operations of the KV
cache manager keep them together, as long as no hit list is longer than the
computed tokens for which blocks are taken, and no request has equal block hashes.
-/

namespace TokenCake

open List

/-- How often a block occurs in the tables of all managers. -/
def tableCount (managers : List SingleTypeKVCacheManager) (block : BlockId) : Nat :=
  (managers.map fun manager => manager.occurrences block).sum

/-- Pool and tables agree, and no table lists a block twice. -/
structure Coherent (managers : List SingleTypeKVCacheManager) (pool : BlockPool)
    (queue : List BlockId) : Prop where
  pool : pool.Consistent queue (tableCount managers)
  distinct : ∀ manager ∈ managers, manager.Distinct

/-- The walk over a free queue of blocks of the pool visits all of it. -/
theorem getAllFreeBlocks_eq {freeBlockQueue : FreeKVCacheBlockQueue}
    (represents : freeBlockQueue.Represents queue) (inPool : ∀ block ∈ queue, block < numBlocks) :
    freeBlockQueue.getAllFreeBlocks numBlocks = queue := by
  have inRange : queue ⊆ range numBlocks := fun block mem =>
    mem_range.mpr (inPool block mem)
  have short := (subperm_of_subset represents.links.nodup inRange).length_le
  rw [length_range] at short
  exact represents.getAllFreeBlocks short

section Replace

variable {front rest : List SingleTypeKVCacheManager} {manager changed : SingleTypeKVCacheManager}
  {pool next : BlockPool} {queue queue' : List BlockId}

theorem tableCount_append_cons (block : BlockId) :
    tableCount (front ++ manager :: rest) block =
      manager.occurrences block + (tableCount front block + tableCount rest block) := by
  unfold tableCount
  rw [map_append, map_cons, sum_append, sum_cons]
  omega

theorem Coherent.owns (coherent : Coherent (front ++ manager :: rest) pool queue) :
    manager.Owns pool queue fun block => tableCount front block + tableCount rest block := by
  refine ⟨coherent.pool.congr fun block _ => (tableCount_append_cons block).symm, ?_⟩
  exact coherent.distinct manager (by simp)

/-- A manager may be replaced by one that owns its references. -/
theorem Coherent.replace (coherent : Coherent (front ++ manager :: rest) pool queue)
    (owns : changed.Owns next queue' fun block => tableCount front block + tableCount rest block) :
    Coherent (front ++ changed :: rest) next queue' := by
  refine ⟨owns.pool.congr fun block _ => tableCount_append_cons block, ?_⟩
  intro other mem
  rcases mem_append.mp mem with inFront | inRest
  · exact coherent.distinct other (by simp [inFront])
  · rcases mem_cons.mp inRest with rfl | inRest
    · exact owns.distinct
    · exact coherent.distinct other (by simp [inRest])

end Replace

variable {blocks : KVCacheBlocks} {index : Nat}

theorem exists_getElem?_of_forall₂ {relation : α → β → Prop} {left : List α} {right : List β}
    (related : List.Forall₂ relation left right) {item : β}
    (found : right[index]? = some item) : ∃ other, left[index]? = some other ∧ relation other item := by
  induction related generalizing index with
  | nil => cases found
  | cons head tail ih =>
    cases index with
    | zero =>
      cases found
      exact ⟨_, rfl, head⟩
    | succ index => exact ih found

/-- All blocks of a new pool but the null block are free. -/
theorem BlockPool.consistent_init {numGpuBlocks : Nat}
    (positive : 0 < numGpuBlocks) (enableCaching : Bool) (hashBlockSize : Nat) :
    (BlockPool.init numGpuBlocks enableCaching hashBlockSize).Consistent
      (range numGpuBlocks).tail fun _ => 0 := by
  obtain ⟨last, rfl⟩ := Nat.exists_eq_add_of_lt positive
  rw [Nat.zero_add]
  have all := FreeKVCacheBlockQueue.represents_init (last + 1)
  rw [range_succ_eq_map] at all ⊢
  obtain ⟨queue, popped, represents⟩ := all.popleft
  have initial : (BlockPool.init (last + 1) enableCaching hashBlockSize).freeBlockQueue = queue := by
    unfold BlockPool.init
    rw [popped]
  refine ⟨⟨?_, nofun⟩, ?_, ?_, fun _ _ => rfl, fun _ _ used => absurd rfl used⟩
  · intro block key
    simp [BlockPool.init]
  · rw [initial]
    exact represents
  · intro block
    cases block with
    | zero => simp [nullBlock]
    | succ block => simp [nullBlock, BlockPool.init]

namespace KVCacheCoordinator

section Managers

variable {α : Type} {managers changed : List SingleTypeKVCacheManager} {pool next : BlockPool}

/-- An assertion about the managers that are done, the entries that remain and the
pool holds at the end, and the failures in question do not occur, if this is so for
every single manager. -/
theorem eachManager_rule (operation : Nat → SingleTypeKVCacheManager → BlockPool →
      Except ResourceError (α × SingleTypeKVCacheManager × BlockPool)) (bad : ResourceError → Prop)
    (assertion : List SingleTypeKVCacheManager → List (SingleTypeKVCacheManager × Nat) →
      BlockPool → Prop)
    (step : ∀ done manager index rest pool, assertion done ((manager, index) :: rest) pool →
      Returns bad (fun result => assertion (done ++ [result.2.1]) rest result.2.2)
        (operation index manager pool))
    (done : List SingleTypeKVCacheManager) (initial : assertion done (managers.zipIdx index) pool) :
    Returns bad (fun result => assertion (done ++ result.2.1) [] result.2.2)
      (eachManager operation index managers pool) := by
  induction managers generalizing done index pool with
  | nil =>
    refine .ok ?_
    rw [append_nil]
    exact initial
  | cons manager rest ih =>
    refine (step done manager index _ pool initial).bind fun _ kept => ?_
    refine (ih _ kept).bind fun _ finished => .ok ?_
    rw [append_assoc] at finished
    exact finished

/-- An invariant of one manager's operation holds after all managers are done. -/
theorem mapManagers_invariant (invariant : List SingleTypeKVCacheManager → BlockPool → Prop)
    (initial : invariant managers pool)
    (preserved : ∀ front manager rest pool, invariant (front ++ manager :: rest) pool →
      invariant (front ++ (operation manager pool).1 :: rest) (operation manager pool).2) :
    invariant (mapManagers operation managers pool).1 (mapManagers operation managers pool).2 := by
  induction managers generalizing pool invariant with
  | nil => exact initial
  | cons manager rest ih =>
    refine ih (fun managers => invariant ((operation manager pool).1 :: managers))
      (preserved [] manager rest pool initial) ?_
    intro front other others between
    exact preserved ((operation manager pool).1 :: front) other others between

variable {relation : SingleTypeKVCacheManager → SingleTypeKVCacheManager → Prop}

/-- What an operation keeps of a manager it keeps of all managers. -/
theorem forall₂_eachManager {operation : Nat → SingleTypeKVCacheManager → BlockPool →
      Except ResourceError (α × SingleTypeKVCacheManager × BlockPool)}
    (kept : ∀ index manager pool result replaced next,
      operation index manager pool = .ok (result, replaced, next) → relation manager replaced)
    {results : List α}
    (returned : eachManager operation index managers pool = .ok (results, changed, next)) :
    List.Forall₂ relation managers changed := by
  induction managers generalizing index pool results changed with
  | nil =>
    cases returned
    exact .nil
  | cons manager rest ih =>
    obtain ⟨⟨result, replaced, between⟩, stepped, returned⟩ := bind_eq_ok.mp returned
    obtain ⟨⟨others, replacedRest, last⟩, done, returned⟩ := bind_eq_ok.mp returned
    cases returned
    exact .cons (kept _ _ _ _ _ _ stepped) (ih done)

theorem forall₂_mapManagers (kept : ∀ manager pool, relation manager (operation manager pool).1) :
    List.Forall₂ relation managers (mapManagers operation managers pool).1 := by
  induction managers generalizing pool with
  | nil => exact .nil
  | cons manager rest ih => exact .cons (kept manager pool) ih

theorem forall₂_removeSkippedBlocks
    (coordinator : KVCacheCoordinator) (id : RequestId) (total : Int) :
    List.Forall₂ (fun manager changed => SingleTypeKVCacheManager.SameGroup manager changed ∧
        changed.numCachedBlock = manager.numCachedBlock) coordinator.singleTypeManagers
      (coordinator.removeSkippedBlocks id total).singleTypeManagers := by
  refine forall₂_mapManagers fun manager pool => ?_
  unfold SingleTypeKVCacheManager.removeSkippedBlocks
  dsimp only
  split <;> exact ⟨⟨rfl, rfl, rfl, rfl⟩, rfl⟩

end Managers

/-- Pool and tables of a coordinator agree, and the pool has its size. -/
structure Agree (numGpuBlocks : Nat) (managers : List SingleTypeKVCacheManager)
    (pool : BlockPool) : Prop where
  coherent : ∃ queue, Coherent managers pool queue
  size : pool.numGpuBlocks = numGpuBlocks

/-- Pool and tables of a coordinator agree. -/
def Valid (coordinator : KVCacheCoordinator) (numGpuBlocks : Nat) : Prop :=
  Agree numGpuBlocks coordinator.singleTypeManagers coordinator.blockPool

section Operations

variable {coordinator next : KVCacheCoordinator} {numGpuBlocks : Nat}

/-- What an operation does to every manager it does to all of them, while pool and
tables agree. -/
theorem eachManager_forall₂
    {α : Type} {results : List α} {managers changed : List SingleTypeKVCacheManager}
    {pool next : BlockPool} (before : SingleTypeKVCacheManager → Nat → Prop)
    {operation : Nat → SingleTypeKVCacheManager → BlockPool →
      Except ResourceError (α × SingleTypeKVCacheManager × BlockPool)}
    (relation : SingleTypeKVCacheManager → SingleTypeKVCacheManager → Prop)
    (returned : eachManager operation 0 managers pool = .ok (results, changed, next))
    (agree : Agree numGpuBlocks managers pool)
    (each : ∀ entry ∈ managers.zipIdx, before entry.1 entry.2)
    (step : ∀ manager index pool queue others, manager.Owns pool queue others →
      pool.numGpuBlocks = numGpuBlocks → before manager index →
        ∀ result replaced next, operation index manager pool = .ok (result, replaced, next) →
          (∃ queue', replaced.Owns next queue' others) ∧ next.numGpuBlocks = numGpuBlocks ∧
            relation manager replaced) :
    Agree numGpuBlocks changed next ∧ List.Forall₂ relation managers changed := by
  have start : Agree numGpuBlocks ([] ++ managers.zipIdx.map Prod.fst) pool ∧
      (∃ seen, managers = seen ++ managers.zipIdx.map Prod.fst ∧ List.Forall₂ relation seen []) ∧
        ∀ entry ∈ managers.zipIdx, before entry.1 entry.2 := by
    rw [zipIdx_map_fst]
    exact ⟨agree, ⟨[], rfl, .nil⟩, each⟩
  have rule := eachManager_rule operation (fun _ => False)
    (fun done rest pool => Agree numGpuBlocks (done ++ rest.map Prod.fst) pool ∧
      (∃ seen, managers = seen ++ rest.map Prod.fst ∧ List.Forall₂ relation seen done) ∧
        ∀ entry ∈ rest, before entry.1 entry.2)
    ?_ [] start
  · obtain ⟨final, ⟨seen, whole, related⟩, -⟩ := rule.good _ returned
    rw [map_nil, append_nil] at final whole
    exact ⟨final, whole ▸ related⟩
  · rintro done manager index rest pool
      ⟨⟨⟨queue, coherent⟩, size⟩, ⟨seen, whole, related⟩, remaining⟩
    refine ⟨fun _ _ => id, fun ⟨result, replaced, next⟩ stepped => ?_⟩
    obtain ⟨⟨queue', owns⟩, sameSize, holds⟩ := step manager index pool queue _ coherent.owns size
      (remaining _ mem_cons_self) result replaced next stepped
    refine ⟨⟨⟨queue', ?_⟩, sameSize⟩, ⟨seen ++ [manager], ?_,
      rel_append related (.cons holds .nil)⟩, fun entry mem =>
        remaining entry (mem_cons_of_mem _ mem)⟩
    · rw [append_assoc]
      exact coherent.replace owns
    · rw [whole, append_assoc]
      rfl

theorem forall_of_forall₂
    {managers changed : List SingleTypeKVCacheManager} {property : SingleTypeKVCacheManager → Prop}
    (related : List.Forall₂ (fun _ replaced => property replaced) managers changed) :
    ∀ replaced ∈ changed, property replaced := by
  intro replaced mem
  obtain ⟨index, found⟩ := getElem?_of_mem mem
  obtain ⟨-, -, holds⟩ := exists_getElem?_of_forall₂ related found
  exact holds

theorem Valid.free (valid : coordinator.Valid numGpuBlocks) (id : RequestId) :
    (coordinator.free id).Valid numGpuBlocks := by
  refine mapManagers_invariant (Agree numGpuBlocks) valid ?_
  rintro front manager rest pool ⟨⟨queue, coherent⟩, size⟩
  obtain ⟨queue', owns, keeps⟩ := coherent.owns.free id
  exact ⟨⟨queue', coherent.replace owns⟩, keeps.numGpuBlocks.trans size⟩

section

variable (valid : coordinator.Valid numGpuBlocks)

include valid

theorem Valid.removeSkippedBlocks (id : RequestId) (total : Int) :
    (coordinator.removeSkippedBlocks id total).Valid numGpuBlocks := by
  refine mapManagers_invariant (Agree numGpuBlocks) valid ?_
  rintro front manager rest pool ⟨⟨queue, coherent⟩, size⟩
  obtain ⟨queue', owns, keeps⟩ :=
    coherent.owns.removeSkippedBlocks id total
  exact ⟨⟨queue', coherent.replace owns⟩, keeps.numGpuBlocks.trans size⟩

/-- New requests take their hits and blocks for external tokens. -/
theorem Valid.allocateNewComputedBlocks {id : RequestId} {numLocal numExternal : Int}
    (takes : ∀ entry ∈ coordinator.singleTypeManagers.zipIdx,
      entry.1.TakesHits numGpuBlocks id (blocks.getD entry.2 []) numLocal numExternal)
    (returned : coordinator.allocateNewComputedBlocks id blocks numLocal
      numExternal = .ok next) : next.Valid numGpuBlocks := by
  obtain ⟨⟨_, managers, pool⟩, done, returned⟩ := bind_eq_ok.mp returned
  cases returned
  refine (eachManager_forall₂
    (fun manager index => manager.TakesHits numGpuBlocks id (blocks.getD index [])
      numLocal numExternal)
    (fun _ _ => True) done valid takes ?_).1
  rintro manager index pool queue others owns rfl takes _ replaced next stepped
  obtain ⟨⟨replaced, next⟩, stepped, returned⟩ := bind_eq_ok.mp stepped
  cases returned
  obtain ⟨queue', owned, shape, -⟩ := owns.allocateNewComputedBlocks takes stepped
  exact ⟨⟨queue', owned⟩, shape.numGpuBlocks, trivial⟩

theorem Valid.allocateNewBlocks {id : RequestId} {numTokens : Int}
    (returned : coordinator.allocateNewBlocks id numTokens = .ok (blocks, next)) :
    next.Valid numGpuBlocks := by
  obtain ⟨⟨_, managers, pool⟩, done, returned⟩ := bind_eq_ok.mp returned
  cases returned
  refine (eachManager_forall₂ (fun _ _ => True) (fun _ _ => True) done valid (fun _ _ => trivial)
    ?_).1
  intro manager index pool queue others owns size _ _ replaced next stepped
  obtain ⟨owned, -, -, -, shape, -⟩ := owns.allocateNewBlocks stepped
  exact ⟨⟨_, owned⟩, shape.numGpuBlocks.trans size, trivial⟩

theorem Valid.cacheBlocks {request : Request} {numComputed : Int}
    (returned : coordinator.cacheBlocks request numComputed = .ok next) :
    next.Valid numGpuBlocks := by
  obtain ⟨⟨_, managers, pool⟩, done, returned⟩ := bind_eq_ok.mp returned
  cases returned
  refine (eachManager_forall₂ (fun _ _ => True) (fun _ _ => True) done valid (fun _ _ => trivial)
    ?_).1
  intro manager index pool queue others owns size _ _ replaced next stepped
  obtain ⟨⟨replaced, next⟩, stepped, returned⟩ := bind_eq_ok.mp stepped
  cases returned
  obtain ⟨owned, shape, -⟩ := owns.cacheBlocks stepped
  exact ⟨⟨queue, owned⟩, shape.numGpuBlocks.trans size, trivial⟩

/-- A change of hashes that keeps queue and references. -/
theorem Valid.withPool {pool : BlockPool}
    (kept : ∀ free held, coordinator.blockPool.Consistent free held →
      pool.Consistent free held ∧ BlockPool.SameShape coordinator.blockPool pool) :
    ({ coordinator with blockPool := pool } : KVCacheCoordinator).Valid numGpuBlocks := by
  obtain ⟨⟨queue, coherent⟩, size⟩ := valid
  obtain ⟨consistent, shape⟩ := kept _ _ coherent.pool
  exact ⟨⟨queue, consistent, coherent.distinct⟩, shape.numGpuBlocks.trans size⟩

end

/-- The coordinator of a new engine. -/
theorem valid_init (specs : List KVCacheSpec) (hashBlockSize : Nat) (enableCaching useEagle : Bool)
    (flagged : List Nat) (maxBatched maxModelLen : Nat) (positive : 0 < numGpuBlocks) :
    (init specs numGpuBlocks hashBlockSize enableCaching useEagle flagged
      maxBatched maxModelLen).Valid numGpuBlocks := by
  have unused : ∀ manager ∈ (init specs numGpuBlocks hashBlockSize enableCaching useEagle
      flagged maxBatched maxModelLen).singleTypeManagers,
      manager.reqToBlocks = .empty := by
    intro manager mem
    obtain ⟨_, -, rfl⟩ := mem_map.mp mem
    rfl
  refine ⟨⟨(range numGpuBlocks).tail, ?_, ?_⟩, rfl⟩
  · refine (BlockPool.consistent_init positive enableCaching hashBlockSize).congr fun block _ => ?_
    refine sum_eq_zero fun count mem => ?_
    obtain ⟨manager, isManager, rfl⟩ := mem_map.mp mem
    rw [SingleTypeKVCacheManager.occurrences, unused manager isManager, Dict.sumBy_empty]
  · intro manager isManager id
    rw [SingleTypeKVCacheManager.blocksOf, unused manager isManager]
    exact nodup_nil

end Operations

end KVCacheCoordinator

theorem SingleTypeKVCacheManager.externalBlocks_congr {manager changed : SingleTypeKVCacheManager}
    (same : changed.kvCacheSpec = manager.kvCacheSpec) :
    changed.externalBlocks = manager.externalBlocks := by
  unfold externalBlocks externalTokens paddedHits skippedBlocks blockSize
  rw [same]

namespace NativeKVCacheManager

/-- Pool and tables of the manager agree. -/
def Valid (manager : NativeKVCacheManager) (numGpuBlocks : Nat) : Prop :=
  manager.coordinator.Valid numGpuBlocks

/-- No new request has more hits and skipped blocks in a group than its computed
tokens need, if blocks are to be taken for external tokens. -/
def HitsFit (manager : NativeKVCacheManager) (request : Request)
    (arguments : AllocateArguments) : Prop :=
  ∀ entry ∈ manager.coordinator.singleTypeManagers.zipIdx,
    request.requestId ∉ entry.1.numCachedBlock →
      0 ≤ entry.1.externalBlocks ((manager.computedBlocks arguments).getD entry.2 [])
        (request.numComputedTokens + arguments.numNewComputedTokens)
        arguments.numExternalComputedTokens

instance (manager : NativeKVCacheManager) (request : Request) (arguments : AllocateArguments) :
    Decidable (manager.HitsFit request arguments) :=
  inferInstanceAs (Decidable (∀ entry ∈ manager.coordinator.singleTypeManagers.zipIdx, _ → _))

/-- The hits of an allocation can be taken in every group. -/
def TakesHits (manager : NativeKVCacheManager) (numGpuBlocks : Nat) (request : Request)
    (arguments : AllocateArguments) : Prop :=
  ∀ entry ∈ manager.coordinator.singleTypeManagers.zipIdx,
    entry.1.TakesHits numGpuBlocks request.requestId
      ((manager.computedBlocks arguments).getD entry.2 [])
      (request.numComputedTokens + arguments.numNewComputedTokens)
      arguments.numExternalComputedTokens

/-- The state in which the demand of an allocation is computed. -/
def trimmed (manager : NativeKVCacheManager) (request : Request)
    (arguments : AllocateArguments) : NativeKVCacheManager :=
  manager.removeSkippedBlocks request.requestId
    (min (totalComputedTokens request arguments) manager.maxModelLen)

/-- The pool cannot provide the blocks of an allocation. -/
def Refuses (manager : NativeKVCacheManager) (request : Request)
    (arguments : AllocateArguments) : Prop :=
  (arguments.fullSequenceMustFit ∧
      manager.fullSequenceDemand request arguments > manager.getNumFreeBlocks) ∨
    (manager.trimmed request arguments).slotDemand request arguments >
      (manager.trimmed request arguments).getNumFreeBlocks

instance (manager : NativeKVCacheManager) (request : Request) (arguments : AllocateArguments) :
    Decidable (manager.Refuses request arguments) :=
  inferInstanceAs (Decidable (_ ∨ _))

theorem computedBlocks_getD
    (manager : NativeKVCacheManager) (arguments : AllocateArguments) (index : Nat) :
    (manager.computedBlocks arguments).getD index [] =
      (arguments.newComputedBlocks.getD []).getD index [] := by
  unfold computedBlocks emptyKvCacheBlocks
  cases arguments.newComputedBlocks with
  | some blocks => rfl
  | none =>
    rw [Option.getD_none, Option.getD_none, map_const', getD_nil]
    rw [getD_eq_getElem?_getD, getElem?_replicate]
    split <;> rfl

section Operations

variable {manager next : NativeKVCacheManager} {numGpuBlocks : Nat} {request : Request}
  {arguments : AllocateArguments}

theorem Valid.cacheBlocks (valid : manager.Valid numGpuBlocks) {numComputed : Int}
    (returned : manager.cacheBlocks request numComputed = .ok next) : next.Valid numGpuBlocks := by
  unfold NativeKVCacheManager.cacheBlocks at returned
  split at returned
  · obtain ⟨coordinator, cached, returned⟩ := bind_eq_ok.mp returned
    cases returned
    exact KVCacheCoordinator.Valid.cacheBlocks valid cached
  · cases returned
    exact valid

theorem Valid.removeSkippedBlocks (valid : manager.Valid numGpuBlocks)
    (id : RequestId) (total : Int) : (manager.removeSkippedBlocks id total).Valid numGpuBlocks :=
  KVCacheCoordinator.Valid.removeSkippedBlocks valid id total

/-- Taking slots adds computed blocks, then new blocks, and may cache the full ones. -/
theorem takeSlots_eq_ok (returned : manager.takeSlots request arguments = .ok (blocks, next)) :
    ∃ added allocated, manager.addComputedBlocks request arguments = .ok added ∧
      added.allocateNewBlocks request.requestId (manager.slotTokens request arguments) =
        .ok (blocks, allocated) ∧
      (next = { manager with coordinator := allocated } ∨
        ∃ numComputed, NativeKVCacheManager.cacheBlocks
          { manager with coordinator := allocated } request numComputed = .ok next) := by
  obtain ⟨added, addedComputed, returned⟩ := bind_eq_ok.mp returned
  obtain ⟨⟨newBlocks, allocated⟩, taken, returned⟩ := bind_eq_ok.mp returned
  dsimp only at returned
  split at returned
  · cases returned
    exact ⟨added, allocated, addedComputed, taken, .inl rfl⟩
  · obtain ⟨cached, stored, returned⟩ := bind_eq_ok.mp returned
    cases returned
    exact ⟨added, allocated, addedComputed, taken, .inr ⟨_, stored⟩⟩

theorem allocateSlots_eq_some
    (returned : manager.allocateSlots request arguments = .ok (some blocks, next)) :
    ¬ manager.Refuses request arguments ∧
      (manager.trimmed request arguments).takeSlots request arguments = .ok (blocks, next) := by
  unfold allocateSlots at returned
  split at returned
  · cases returned
  · obtain ⟨_, -, returned⟩ := bind_eq_ok.mp returned
    split at returned
    · cases returned
    · next whole =>
      dsimp only at returned
      split at returned
      · cases returned
      · next enough =>
        obtain ⟨⟨newBlocks, allocated⟩, taken, returned⟩ := bind_eq_ok.mp returned
        cases returned
        exact ⟨not_or.mpr ⟨whole, enough⟩, taken⟩

/-- A refused allocation releases skipped blocks at most. -/
theorem allocateSlots_eq_none
    (returned : manager.allocateSlots request arguments = .ok (none, next)) :
    next = manager ∨ next = manager.trimmed request arguments := by
  unfold allocateSlots at returned
  split at returned
  · cases returned
  · obtain ⟨_, -, returned⟩ := bind_eq_ok.mp returned
    split at returned
    · cases returned
      exact .inl rfl
    · dsimp only at returned
      split at returned
      · cases returned
        exact .inr rfl
      · obtain ⟨⟨newBlocks, allocated⟩, taken, returned⟩ := bind_eq_ok.mp returned
        cases returned

variable (takes : manager.TakesHits numGpuBlocks request arguments)

include takes in
theorem Valid.takeSlots (valid : manager.Valid numGpuBlocks)
    (returned : manager.takeSlots request arguments = .ok (blocks, next)) :
    next.Valid numGpuBlocks := by
  obtain ⟨added, allocated, addedComputed, taken, stored⟩ := takeSlots_eq_ok returned
  have addedValid : added.Valid numGpuBlocks := by
    unfold addComputedBlocks at addedComputed
    dsimp only at addedComputed
    split at addedComputed
    · exact KVCacheCoordinator.Valid.allocateNewComputedBlocks valid takes addedComputed
    · cases addedComputed
      exact valid
  have allocatedValid : Valid { manager with coordinator := allocated } numGpuBlocks :=
    addedValid.allocateNewBlocks taken
  rcases stored with rfl | ⟨_, stored⟩
  · exact allocatedValid
  · exact allocatedValid.cacheBlocks stored

include takes in
/-- Releasing skipped blocks keeps whether the hits of an allocation can be taken. -/
theorem TakesHits.removeSkippedBlocks (id : RequestId) (total : Int) :
    (manager.removeSkippedBlocks id total).TakesHits numGpuBlocks request arguments := by
  have kept := KVCacheCoordinator.forall₂_removeSkippedBlocks manager.coordinator id total
  rintro ⟨changed, index⟩ found
  obtain ⟨group, found', same, recorded⟩ :=
    exists_getElem?_of_forall₂ kept (mem_zipIdx_iff_getElem?.mp found)
  obtain ⟨inPool, nodup, fits⟩ := takes (group, index) (mem_zipIdx_iff_getElem?.mpr found')
  rw [computedBlocks_getD] at inPool nodup fits ⊢
  refine ⟨inPool, nodup, fun unrecorded => ?_⟩
  rw [SingleTypeKVCacheManager.externalBlocks_congr same.kvCacheSpec]
  exact fits (recorded ▸ unrecorded)

/-- An allocation keeps pool and tables together. -/
theorem Valid.allocateSlots (valid : manager.Valid numGpuBlocks) {blocks : Option KVCacheBlocks}
    (takes : ¬ manager.Refuses request arguments →
      manager.TakesHits numGpuBlocks request arguments)
    (returned : manager.allocateSlots request arguments = .ok (blocks, next)) :
    next.Valid numGpuBlocks := by
  cases blocks with
  | none =>
    rcases allocateSlots_eq_none returned with rfl | rfl
    · exact valid
    · exact valid.removeSkippedBlocks _ _
  | some blocks =>
    obtain ⟨granted, taken⟩ := allocateSlots_eq_some returned
    exact (valid.removeSkippedBlocks _ _).takeSlots ((takes granted).removeSkippedBlocks _ _) taken

/-- The blocks that are looked up for a request form a hit in every group. -/
theorem getComputedBlocks_hitOf (manager : NativeKVCacheManager) (request : Request) (index : Nat) :
    ∃ blockSize, HitOf manager.coordinator.blockPool
      (manager.coordinator.blockPool.scaledHashes request.blockHashes blockSize) index
      ((manager.getComputedBlocks request).1.getD index []) := by
  have none : HitOf manager.coordinator.blockPool
      (manager.coordinator.blockPool.scaledHashes request.blockHashes 0) index [] :=
    fun position block impossible => nomatch impossible
  rw [getD_eq_getElem?_getD]
  cases found : (manager.getComputedBlocks request).1[index]? with
  | none => exact ⟨0, none⟩
  | some blocks =>
    rw [Option.getD_some]
    unfold getComputedBlocks at found
    split at found
    · unfold emptyKvCacheBlocks at found
      rw [getElem?_map] at found
      obtain ⟨_, -, rfl⟩ := Option.map_eq_some_iff.mp found
      exact ⟨0, none⟩
    · exact KVCacheCoordinator.findLongestCacheHit_hitOf found

/-- The hits that are looked up for a request are distinct blocks of the pool. -/
theorem Valid.hits (valid : manager.Valid numGpuBlocks)
    (distinct : request.blockHashes.Nodup) (index : Nat) :
    (∀ block ∈ (manager.getComputedBlocks request).1.getD index [],
      block ≠ nullBlock → block < numGpuBlocks) ∧
      (nonNull ((manager.getComputedBlocks request).1.getD index [])).Nodup := by
  obtain ⟨⟨queue, coherent⟩, size⟩ := valid
  have hashes := coherent.pool.toHashConsistent
  obtain ⟨blockSize, hit⟩ := manager.getComputedBlocks_hitOf request index
  rw [← size]
  exact ⟨hit.inPool hashes, hit.nodup hashes (BlockPool.scaledHashes_nodup _ distinct blockSize)⟩

/-- A block is a hit in one group only. -/
theorem Valid.hits_disjoint (valid : manager.Valid numGpuBlocks) {first second : Nat}
    (different : first ≠ second) {block : BlockId}
    (inFirst : block ∈ (manager.getComputedBlocks request).1.getD first [])
    (inSecond : block ∈ (manager.getComputedBlocks request).1.getD second []) :
    block = nullBlock := by
  obtain ⟨⟨queue, coherent⟩, -⟩ := valid
  by_contra inside
  obtain ⟨_, hit⟩ := manager.getComputedBlocks_hitOf request first
  obtain ⟨_, hit'⟩ := manager.getComputedBlocks_hitOf request second
  obtain ⟨position, found⟩ := getElem?_of_mem inFirst
  obtain ⟨position', found'⟩ := getElem?_of_mem inSecond
  obtain ⟨key, -, stored⟩ := hit position block found inside
  obtain ⟨key', -, stored'⟩ := hit' position' block found' inside
  have one := (coherent.pool.hash block _).mpr (BlockHashToBlockMap.mem_of_getOneBlock stored)
  have two := (coherent.pool.hash block _).mpr (BlockHashToBlockMap.mem_of_getOneBlock stored')
  rw [one, Option.some.injEq, BlockHashWithGroupId.mk.injEq] at two
  exact different two.2

end Operations

/-- The arguments of an allocation with the hits of the request in this state. -/
def withComputedBlocks (manager : NativeKVCacheManager) (request : Request)
    (arguments : AllocateArguments) : AllocateArguments :=
  { arguments with
    newComputedBlocks := some (manager.getComputedBlocks request).1
    numNewComputedTokens := (manager.getComputedBlocks request).2 }

/-- Free queue, reference counts, tables and hashes describe one state; the list is
the content of the free queue. -/
structure Described (manager : NativeKVCacheManager) (free : List BlockId) : Prop where
  links : manager.coordinator.blockPool.freeBlockQueue.links.Represents free
  count : manager.getNumFreeBlocks = free.length
  nodup : free.Nodup
  mem_free : ∀ block, block ∈ free ↔
    block ≠ nullBlock ∧ block < manager.coordinator.blockPool.numGpuBlocks ∧
      manager.coordinator.blockPool.refCnt block = 0
  refCnt : ∀ block, block ≠ nullBlock → manager.coordinator.blockPool.refCnt block =
      tableCount manager.coordinator.singleTypeManagers block
  hash : ∀ block key, manager.coordinator.blockPool.blockHash block = some key ↔
    block ∈ manager.coordinator.blockPool.cachedBlockHashToBlock.blocksUnder key

theorem Valid.described {manager : NativeKVCacheManager}
    (valid : manager.Valid numGpuBlocks) : ∃ free, manager.Described free := by
  obtain ⟨⟨free, coherent⟩, -⟩ := valid
  refine ⟨free, coherent.pool.queue.links, coherent.pool.queue.count,
    coherent.pool.queue.links.nodup, ?_, coherent.pool.refCnt, coherent.pool.hash⟩
  intro block
  rw [coherent.pool.mem_free]
  refine and_congr_right fun inside => and_congr_right fun _ => ?_
  rw [coherent.pool.refCnt block inside]
  omega

/-- The walk over a free queue that is described visits all of it. -/
theorem Described.getAllFreeBlocks {manager : NativeKVCacheManager} {free : List BlockId}
    (described : manager.Described free) :
    manager.coordinator.blockPool.freeBlockQueue.getAllFreeBlocks
      manager.coordinator.blockPool.numGpuBlocks = free :=
  getAllFreeBlocks_eq ⟨described.links, described.count⟩
    fun block mem => ((described.mem_free block).mp mem).2.1

end NativeKVCacheManager

/-- The operations of the KV cache manager. -/
inductive ManagerOperation where
  /-- Allocate slots, with the hits of the request in this state or without hits. -/
  | allocateSlots (request : Request) (arguments : AllocateArguments) (lookup : Bool)
  | free (requestId : RequestId)
  | cacheBlocks (request : Request) (numComputedTokens : Int)
  | removeSkippedBlocks (requestId : RequestId) (totalComputedTokens : Int)
  | evictBlocks (blocks : List BlockId)
  | resetPrefixCache

namespace ManagerOperation

/-- The arguments of an allocation, with the result of a lookup if there was one. -/
def allocateArguments (manager : NativeKVCacheManager) (request : Request)
    (arguments : AllocateArguments) (lookup : Bool) : AllocateArguments :=
  if lookup then manager.withComputedBlocks request arguments
  else { arguments with newComputedBlocks := none }

/-- The state after an operation. -/
def apply (manager : NativeKVCacheManager) :
    ManagerOperation → Except ResourceError NativeKVCacheManager
  | allocateSlots request arguments lookup => do
      let (_, next) ←
        manager.allocateSlots request (allocateArguments manager request arguments lookup)
      return next
  | free requestId => .ok (manager.free requestId)
  | cacheBlocks request numComputedTokens => manager.cacheBlocks request numComputedTokens
  | removeSkippedBlocks requestId totalComputedTokens =>
    .ok (manager.removeSkippedBlocks requestId totalComputedTokens)
  | evictBlocks blocks => do
      ensure (blocks.all fun block => decide (block < manager.coordinator.blockPool.numGpuBlocks))
        .assertionFailed
      return manager.evictBlocks blocks
  | resetPrefixCache => .ok manager.resetPrefixCache.2

/-- Hits of an allocation that is not refused fit, and the request whose hits are looked up has
no block hash twice. -/
def Fits (manager : NativeKVCacheManager) : ManagerOperation → Prop
  | allocateSlots request arguments lookup =>
    ¬ manager.Refuses request (allocateArguments manager request arguments lookup) →
      (lookup = true → request.blockHashes.Nodup) ∧
        manager.HitsFit request (allocateArguments manager request arguments lookup)
  | _ => True

instance (manager : NativeKVCacheManager) (operation : ManagerOperation) :
    Decidable (Fits manager operation) :=
  match operation with
  | allocateSlots _ _ _ => inferInstanceAs (Decidable (_ → _))
  | free _ | cacheBlocks _ _ | removeSkippedBlocks _ _ | evictBlocks _ | resetPrefixCache =>
    inferInstanceAs (Decidable True)

variable {manager next : NativeKVCacheManager} {request : Request} {lookup : Bool}
  {numGpuBlocks : Nat}

/-- The hits of an allocation are distinct blocks of the pool. -/
theorem hits_allocateArguments (valid : manager.Valid numGpuBlocks) (arguments : AllocateArguments)
    (distinct : lookup = true → request.blockHashes.Nodup) (index : Nat) :
    (∀ block ∈ (manager.computedBlocks
        (allocateArguments manager request arguments lookup)).getD index [],
      block ≠ nullBlock → block < numGpuBlocks) ∧ (nonNull ((manager.computedBlocks
        (allocateArguments manager request arguments lookup)).getD index [])).Nodup := by
  rw [NativeKVCacheManager.computedBlocks_getD]
  cases lookup with
  | true => exact valid.hits (distinct rfl) index
  | false => exact ⟨nofun, nodup_nil⟩

/-- The hits of an allocation that fit can be taken. -/
theorem takesHits_of_fits (valid : manager.Valid numGpuBlocks) {arguments : AllocateArguments}
    (fits : Fits manager (.allocateSlots request arguments lookup))
    (granted : ¬ manager.Refuses request (allocateArguments manager request arguments lookup)) :
    manager.TakesHits numGpuBlocks request
      (allocateArguments manager request arguments lookup) := by
  intro entry mem
  obtain ⟨distinct, fits⟩ := fits granted
  obtain ⟨inPool, nodup⟩ := hits_allocateArguments valid arguments distinct entry.2
  exact ⟨inPool, nodup, fits entry mem⟩

/-- Every operation whose hits fit keeps pool and tables together. -/
theorem valid_of_apply (valid : manager.Valid numGpuBlocks) (fits : Fits manager operation)
    (applied : apply manager operation = .ok next) : next.Valid numGpuBlocks := by
  cases operation with
  | allocateSlots request arguments lookup =>
    obtain ⟨⟨blocks, next⟩, allocated, returned⟩ := bind_eq_ok.mp applied
    cases returned
    exact valid.allocateSlots (takesHits_of_fits valid fits) allocated
  | free id =>
    cases applied
    exact KVCacheCoordinator.Valid.free valid id
  | cacheBlocks request numComputed => exact valid.cacheBlocks applied
  | removeSkippedBlocks id total =>
    cases applied
    exact valid.removeSkippedBlocks id total
  | evictBlocks blocks =>
    obtain ⟨_, -, returned⟩ := bind_eq_ok.mp applied
    cases returned
    exact KVCacheCoordinator.Valid.withPool valid fun _ _ consistent =>
      consistent.evictBlocks blocks
  | resetPrefixCache =>
    cases applied
    exact KVCacheCoordinator.Valid.withPool valid fun _ _ consistent =>
      consistent.resetPrefixCache

/-- In every run of operations whose hits fit, all reached states are valid. -/
theorem valid_of_run (specs : List KVCacheSpec) (hashBlockSize maxModelLen maxBatched : Nat)
    (enableCaching useEagle : Bool) (flagged : List Nat) (positive : 0 < numGpuBlocks)
    {operations : List ManagerOperation} {final : NativeKVCacheManager}
    (along : Machine.Along apply Fits
      (.init specs numGpuBlocks hashBlockSize maxModelLen maxBatched enableCaching
        useEagle flagged) operations) (reached : Machine.run apply
      (.init specs numGpuBlocks hashBlockSize maxModelLen maxBatched enableCaching
        useEagle flagged) operations = .ok final) : final.Valid numGpuBlocks := by
  refine Machine.invariant_of_run (fun _ _ _ => valid_of_apply) ?_ along reached
  exact KVCacheCoordinator.valid_init specs hashBlockSize enableCaching useEagle
    flagged maxBatched maxModelLen positive

/-- Whenever the hits of all allocations of a run fit, free queue, reference counts,
tables and hashes describe one state at its end. -/
theorem run_keeps_representation
    (specs : List KVCacheSpec) (numGpuBlocks hashBlockSize maxModelLen maxNumBatchedTokens : Nat)
    (enableCaching useEagle : Bool) (flaggedEagleGroupIds : List Nat) (positive : 0 < numGpuBlocks)
    (operations : List ManagerOperation) (final : NativeKVCacheManager)
    (along : Machine.Along apply Fits
      (.init specs numGpuBlocks hashBlockSize maxModelLen maxNumBatchedTokens enableCaching
        useEagle flaggedEagleGroupIds) operations)
    (reached : Machine.run apply
      (.init specs numGpuBlocks hashBlockSize maxModelLen maxNumBatchedTokens enableCaching
        useEagle flaggedEagleGroupIds) operations = .ok final) :
    ∃ free, final.Described free :=
  (valid_of_run specs hashBlockSize maxModelLen maxNumBatchedTokens enableCaching useEagle
    flaggedEagleGroupIds positive along reached).described

/-- In such a run the counter of free blocks counts the blocks that stand in no table, and the
prefix cache can be reset exactly when these are all blocks. -/
theorem run_counts_free_blocks
    (specs : List KVCacheSpec) (numGpuBlocks hashBlockSize maxModelLen maxNumBatchedTokens : Nat)
    (enableCaching useEagle : Bool) (flaggedEagleGroupIds : List Nat) (positive : 0 < numGpuBlocks)
    (operations : List ManagerOperation) (final : NativeKVCacheManager)
    (along : Machine.Along apply Fits
      (.init specs numGpuBlocks hashBlockSize maxModelLen maxNumBatchedTokens enableCaching
        useEagle flaggedEagleGroupIds) operations)
    (reached : Machine.run apply
      (.init specs numGpuBlocks hashBlockSize maxModelLen maxNumBatchedTokens enableCaching
        useEagle flaggedEagleGroupIds) operations = .ok final) :
    let pool := final.coordinator.blockPool
    let unlisted block := tableCount final.coordinator.singleTypeManagers block = 0
    pool.getNumFreeBlocks = pool.others.countP unlisted ∧
      (final.resetPrefixCache.1 = true ↔ ∀ block, block ≠ nullBlock → unlisted block) := by
  obtain ⟨⟨free, coherent⟩, rfl⟩ := valid_of_run specs hashBlockSize maxModelLen
    maxNumBatchedTokens enableCaching useEagle flaggedEagleGroupIds positive along reached
  exact ⟨coherent.pool.getNumFreeBlocks_eq, coherent.pool.resetPrefixCache_iff positive⟩

section UntruncatedHit

/-- Two layouts of full attention and a sliding window of three tokens. -/
def threeGroups : List KVCacheSpec :=
  [{ kind := .fullAttention, blockSize := 2 },
    { kind := .fullAttention, blockSize := 2, layout := 1 },
    { kind := .slidingWindow 3, blockSize := 2 }]

/-- A request of a number of tokens with the first of the given hashes. -/
def hashedRequest (requestId numTokens firstHash : Nat) : Request where
  requestId := requestId
  samplingParams := some { maxTokens := 4 }
  maxTokens := 4
  promptTokenIds := some (List.replicate numTokens 7)
  numPromptTokens := numTokens
  allTokenIds := List.replicate numTokens 7
  blockHashes := (List.range (numTokens / 2)).map (· + firstHash)

/-- A request is computed and freed, and the two cached blocks of the sliding window
behind the first one are evicted. -/
def evictedRun : List ManagerOperation :=
  [.allocateSlots (hashedRequest 1 7 100) { numNewTokens := 7 } true, .free 1,
    .evictBlocks [10, 11]]

/-- The next request with the same tokens and two external ones. -/
def externalAllocation : ManagerOperation :=
  .allocateSlots (hashedRequest 2 7 100)
    { numNewTokens := 1, numExternalComputedTokens := 2 } true

/-- The second full attention group returns three hits for two tokens; the negative
number of blocks that is left to take raises the counter of the free queue. -/
theorem untruncated_hit_breaks_free_count :
    ∃ final, Machine.run apply (.init threeGroups 20 2 64 64 true false [])
        (evictedRun ++ [externalAllocation]) = .ok final ∧
      ¬ ∃ free, final.Described free := by
  have counts : ((Machine.run apply (.init threeGroups 20 2 64 64 true false [])
      (evictedRun ++ [externalAllocation])).toOption.map fun final =>
        (final.getNumFreeBlocks, (final.coordinator.blockPool.freeBlockQueue.getAllFreeBlocks
            final.coordinator.blockPool.numGpuBlocks).length)) = some (12, 11) := by
    decide +kernel
  obtain ⟨final, reached, counted⟩ := Option.map_eq_some_iff.mp counts
  refine ⟨final, ok_of_toOption_eq_some reached, ?_⟩
  rintro ⟨free, described⟩
  rw [described.getAllFreeBlocks, described.count, Prod.mk.injEq] at counted
  omega

/-- Up to that allocation the representation is kept. -/
theorem evictedRun_keeps_representation :
    ((Machine.run apply (.init threeGroups 20 2 64 64 true false []) evictedRun).toOption.map
      NativeKVCacheManager.getNumFreeBlocks) = some 19 ∧
    ∀ final, Machine.run apply (.init threeGroups 20 2 64 64 true false []) evictedRun = .ok final →
      ∃ free, final.Described free := by
  refine ⟨by decide +kernel, fun final reached => ?_⟩
  refine run_keeps_representation threeGroups 20 2 64 64 true false [] (by decide) evictedRun final
    ?_ reached
  exact Machine.along_of_checkAlong apply (by decide +kernel)

/-- While another request holds its blocks, they are the ones that are not free. -/
theorem evictedRun_counts_free_blocks :
    let operations := evictedRun ++ [.allocateSlots (hashedRequest 3 5 200) { numNewTokens := 5 } true]
    ((Machine.run apply (.init threeGroups 20 2 64 64 true false []) operations).toOption.map
      fun final => (final.getNumFreeBlocks, final.resetPrefixCache.1)) = some (10, false) ∧
    ∀ final,
      Machine.run apply (.init threeGroups 20 2 64 64 true false []) operations = .ok final →
      final.getNumFreeBlocks = (final.coordinator.blockPool.others.countP fun block =>
        tableCount final.coordinator.singleTypeManagers block = 0) := by
  refine ⟨by decide +kernel, fun final reached => ?_⟩
  exact (run_counts_free_blocks threeGroups 20 2 64 64 true false [] (by decide) _ final
    (Machine.along_of_checkAlong apply (by decide +kernel)) reached).1

end UntruncatedHit

end ManagerOperation

end TokenCake
