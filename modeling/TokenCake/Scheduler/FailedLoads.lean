import TokenCake.KVCache.Representation
import TokenCake.Scheduler.Output

/-!
# Failed loads

A scan over the running requests marks the invalid blocks it meets.  A request is cut at the
first invalid block that was not marked before, and only the blocks from there on are evicted.
So a request whose invalid blocks are all held by earlier requests keeps its own later blocks
in the cache.  If requests are recomputed instead, every invalid block is computed again by the
request that marked it, before the requests that count it as computed.
-/

namespace TokenCake

open List Option

namespace BlockPool

/-- The cache lists a block under some hash. -/
def IsCached (pool : BlockPool) (block : BlockId) : Prop :=
  ∃ key, block ∈ pool.cachedBlockHashToBlock.blocksUnder key

variable {pool : BlockPool} {block : BlockId}

theorem HashConsistent.isCached_iff (consistent : pool.HashConsistent) :
    pool.IsCached block ↔ pool.blockHash block ≠ none := by
  simp only [IsCached, ← consistent.hash, ne_none_iff_exists']

theorem HashConsistent.isCached_evictBlocks (consistent : pool.HashConsistent)
    (blocks : List BlockId) :
    (pool.evictBlocks blocks).IsCached block ↔ block ∉ blocks ∧ pool.IsCached block := by
  unfold evictBlocks
  induction blocks generalizing pool with
  | nil => simp
  | cons first rest ih =>
    obtain ⟨cache, evicted, later⟩ := consistent.maybeEvictCachedBlock first
    rw [foldl_cons, ih later, later.isCached_iff, consistent.isCached_iff, evicted]
    grind

end BlockPool

variable {scan : InvalidBlockScan}

namespace InvalidBlockScan

/-- The position of the first invalid block that is not marked yet. -/
def firstUnmarked (invalidBlockIds marked blocks : List BlockId) : Option Nat :=
  blocks.findIdx? fun block => decide (block ∈ invalidBlockIds ∧ block ∉ marked)

variable {blockSize : Nat} {invalidIds blockIds blocks : List BlockId} {evictBlocks : Bool}
  {start : InvalidBlockScan}

theorem firstUnmarked_append (marked : List BlockId) (block : BlockId) :
    firstUnmarked invalidIds marked (blocks ++ [block]) =
      (firstUnmarked invalidIds marked blocks).or
        (if block ∈ invalidIds ∧ block ∉ marked then some blocks.length else none) := by
  unfold firstUnmarked
  rw [findIdx?_append]
  by_cases unmarked : block ∈ invalidIds ∧ block ∉ marked <;> simp [unmarked]

theorem firstUnmarked_eq_none {marked : List BlockId} :
    firstUnmarked invalidIds marked blocks = none ↔
      ∀ block ∈ blocks, block ∈ invalidIds → block ∈ marked := by
  simp [firstUnmarked]

/-- What a scan of some blocks of a table has found. -/
structure Scanned (blockSize : Nat) (invalidBlockIds blockIds : List BlockId) (evictBlocks : Bool)
    (start : InvalidBlockScan) (blocks : List BlockId) (scan : InvalidBlockScan) : Prop where
  affected : scan.isAffected = true ↔ ∃ block ∈ blocks, block ∈ invalidBlockIds
  marked : ∀ block, block ∈ scan.markedInvalidBlockIds ↔
    block ∈ start.markedInvalidBlockIds ∨ block ∈ blocks ∧ block ∈ invalidBlockIds
  uncut : firstUnmarked invalidBlockIds start.markedInvalidBlockIds blocks = none →
    scan.markedInvalidBlock = false ∧ scan.numComputedTokens = start.numComputedTokens ∧
      scan.blocksToEvict = start.blocksToEvict
  cut : ∀ index, firstUnmarked invalidBlockIds start.markedInvalidBlockIds blocks = some index →
    scan.markedInvalidBlock = true ∧ scan.numComputedTokens = index * blockSize ∧
      scan.blocksToEvict =
        if evictBlocks then start.blocksToEvict ++ blockIds.drop index else start.blocksToEvict

theorem Scanned.visit
    (scanned : Scanned blockSize invalidIds blockIds evictBlocks start blocks scan)
    (block : BlockId) :
    Scanned blockSize invalidIds blockIds evictBlocks start (blocks ++ [block])
      (visit blockSize invalidIds blockIds evictBlocks scan (block, blocks.length)) := by
  unfold InvalidBlockScan.visit
  split
  · next valid =>
    have same : firstUnmarked invalidIds start.markedInvalidBlockIds (blocks ++ [block]) =
        firstUnmarked invalidIds start.markedInvalidBlockIds blocks := by
      rw [firstUnmarked_append, if_neg fun new => valid new.1, or_none]
    refine ⟨?_, fun other => ?_, by rw [same]; exact scanned.uncut, by rw [same]; exact scanned.cut⟩
    · rw [scanned.affected]
      simp [or_and_right, exists_or, valid]
    · rw [scanned.marked]
      grind
  · next invalid =>
    rw [not_not] at invalid
    have affected : True ↔ ∃ other ∈ blocks ++ [block], other ∈ invalidIds :=
      ⟨fun _ => ⟨block, by simp, invalid⟩, fun _ => trivial⟩
    split
    · next wasMarked =>
      -- The block was marked at the start, or this scan met it already.
      have same : firstUnmarked invalidIds start.markedInvalidBlockIds (blocks ++ [block]) =
            firstUnmarked invalidIds start.markedInvalidBlockIds blocks := by
        rw [firstUnmarked_append]
        rcases (scanned.marked block).mp wasMarked with before | ⟨here, -⟩
        · rw [if_neg fun new => new.2 before, or_none]
        · by_cases before : block ∈ start.markedInvalidBlockIds
          · rw [if_neg fun new => new.2 before, or_none]
          · cases first : firstUnmarked invalidIds start.markedInvalidBlockIds blocks with
            | some index => rfl
            | none => exact absurd (firstUnmarked_eq_none.mp first block here invalid) before
      refine ⟨by simpa using affected, fun other => ?_, by rw [same]; exact scanned.uncut,
        by rw [same]; exact scanned.cut⟩
      rw [scanned.marked]
      have known := (scanned.marked block).mp wasMarked
      grind
    · next unmarked =>
      have marked : ∀ other, other ∈ scan.markedInvalidBlockIds ++ [block] ↔
          other ∈ start.markedInvalidBlockIds ∨ other ∈ blocks ++ [block] ∧ other ∈ invalidIds := by
        intro other
        rw [mem_append, scanned.marked]
        grind
      have new : firstUnmarked invalidIds start.markedInvalidBlockIds (blocks ++ [block]) =
            (firstUnmarked invalidIds start.markedInvalidBlockIds blocks).or
              (some blocks.length) := by
        rw [firstUnmarked_append, if_pos ⟨invalid, fun before =>
          unmarked ((scanned.marked block).mpr (.inl before))⟩]
      cases first : firstUnmarked invalidIds start.markedInvalidBlockIds blocks with
      | none =>
        obtain ⟨uncut, -, evicted⟩ := scanned.uncut first
        rw [first, none_or] at new
        rw [uncut, evicted]
        refine ⟨by simpa using affected, marked, by rw [new]; exact nofun, ?_⟩
        rintro index isIndex
        cases new.symm.trans isIndex
        exact ⟨rfl, rfl, rfl⟩
      | some index =>
        obtain ⟨cut, computed, evicted⟩ := scanned.cut index first
        rw [first, some_or] at new
        rw [cut]
        refine ⟨by simpa using affected, marked, by rw [new]; exact nofun, ?_⟩
        rintro other isIndex
        cases new.symm.trans isIndex
        exact ⟨rfl, computed, evicted⟩

theorem Scanned.visits
    (scanned : Scanned blockSize invalidIds blockIds evictBlocks start blocks scan)
    (rest : List BlockId) :
    Scanned blockSize invalidIds blockIds evictBlocks start (blocks ++ rest)
      ((rest.zipIdx blocks.length).foldl
        (InvalidBlockScan.visit blockSize invalidIds blockIds evictBlocks) scan) := by
  induction rest generalizing blocks scan with
  | nil =>
    rw [append_nil]
    exact scanned
  | cons block rest ih =>
    rw [append_cons, zipIdx_cons, foldl_cons]
    have later := ih (scanned.visit block)
    rwa [length_append, length_singleton] at later

theorem scanned_zipIdx (unaffected : start.isAffected = false)
    (uncut : start.markedInvalidBlock = false) (blocks : List BlockId) :
    Scanned blockSize invalidIds blockIds evictBlocks start blocks
      (blocks.zipIdx.foldl (visit blockSize invalidIds blockIds evictBlocks) start) := by
  have nothing : Scanned blockSize invalidIds blockIds evictBlocks start [] start :=
    ⟨by simp [unaffected], by simp, fun _ => ⟨uncut, rfl, rfl⟩, nofun⟩
  exact nothing.visits blocks

/-- The blocks behind the first unmarked one are those behind any unmarked one. -/
theorem mem_drop_firstUnmarked {marked : List BlockId} {block : BlockId} :
    (∃ index, firstUnmarked invalidIds marked blocks = some index ∧ block ∈ blockIds.drop index) ↔
      ∃ index bad, blocks[index]? = some bad ∧ bad ∈ invalidIds ∧ bad ∉ marked ∧
        block ∈ blockIds.drop index := by
  constructor
  · rintro ⟨index, first, behind⟩
    obtain ⟨short, unmarked, -⟩ := List.findIdx?_eq_some_iff_getElem.mp first
    rw [decide_eq_true_iff] at unmarked
    exact ⟨index, _, List.getElem?_eq_getElem short, unmarked.1, unmarked.2, behind⟩
  · rintro ⟨index, bad, found, invalid, unmarked, behind⟩
    cases first : firstUnmarked invalidIds marked blocks with
    | none =>
      exact absurd (firstUnmarked_eq_none.mp first bad (List.mem_of_getElem? found) invalid)
        unmarked
    | some least =>
      obtain ⟨_, -, earlier⟩ := List.findIdx?_eq_some_iff_getElem.mp first
      refine ⟨least, rfl, (List.drop_sublist_drop_left blockIds ?_).subset behind⟩
      by_contra late
      obtain ⟨short, isBad⟩ := List.getElem?_eq_some_iff.mp found
      refine earlier index (by omega) ?_
      rw [isBad, decide_eq_true_iff]
      exact ⟨invalid, unmarked⟩

end InvalidBlockScan

namespace Scheduler

variable {M E : Type} [KVCacheManager M]

/-- The blocks of a request, with one KV cache group. -/
def blockTable (scheduler : Scheduler M E) (requestId : RequestId) : List BlockId :=
  (KVCacheManager.getBlocks scheduler.kvCacheManager requestId).headD []

/-- The blocks of a request with tokens that were computed before the step. -/
def computedBlocks (scheduler : Scheduler M E) (numScheduledTokens : Dict RequestId Int)
    (requestId : RequestId) : List BlockId :=
  (scheduler.blockTable requestId).take
    (((scheduler.requestOf requestId).numComputedTokens - numScheduledTokens.getD requestId 0 +
      scheduler.config.blockSize - 1) / scheduler.config.blockSize).toNat

variable {invalidIds : List BlockId} {numScheduled : Dict RequestId Int}
  {evictBlocks : Bool} {report : InvalidBlockReport M E} {id : RequestId}

/-- What the scan of one request adds to a report. -/
structure Updated (invalidBlockIds : List BlockId) (numScheduledTokens : Dict RequestId Int)
    (evictBlocks : Bool) (report : InvalidBlockReport M E) (requestId : RequestId)
    (updated : InvalidBlockReport M E) : Prop where
  scheduler : ∃ numComputedTokens, updated.scheduler =
    report.scheduler.modifyRequest requestId fun request =>
      { request with numComputedTokens := numComputedTokens }
  affected : ∀ other, other ∈ updated.affectedReqIds ↔ other ∈ report.affectedReqIds ∨
    other = requestId ∧
      ∃ block ∈ report.scheduler.computedBlocks numScheduledTokens requestId,
        block ∈ invalidBlockIds
  marked : ∀ block, block ∈ updated.markedInvalidBlockIds ↔ block ∈ report.markedInvalidBlockIds ∨
      block ∈ report.scheduler.computedBlocks numScheduledTokens requestId ∧ block ∈ invalidBlockIds
  evicted : ∀ block, block ∈ updated.blocksToEvict ↔ block ∈ report.blocksToEvict ∨
    evictBlocks = true ∧
      ∃ index bad,
        (report.scheduler.computedBlocks numScheduledTokens requestId)[index]? = some bad ∧
          bad ∈ invalidBlockIds ∧ bad ∉ report.markedInvalidBlockIds ∧
          block ∈ (report.scheduler.blockTable requestId).drop index

/-- The scan of the blocks of one request for blocks whose load failed. -/
def invalidBlockScan
    (invalidBlockIds : List BlockId) (numScheduledTokens : Dict RequestId Int) (evictBlocks : Bool)
    (report : InvalidBlockReport M E) (requestId : RequestId) : InvalidBlockScan :=
  (report.scheduler.computedBlocks numScheduledTokens requestId).zipIdx.foldl
    (.visit report.scheduler.config.blockSize invalidBlockIds
      (report.scheduler.blockTable requestId) evictBlocks)
    { markedInvalidBlockIds := report.markedInvalidBlockIds
      numComputedTokens := (report.scheduler.requestOf requestId).numComputedTokens
      blocksToEvict := report.blocksToEvict }

variable {requests : List RequestId} {blockIds : List BlockId} {block : BlockId}

section

variable (invalidIds numScheduled evictBlocks)

/-- The update of a request by what the scan of its table has found. -/
theorem updateRequestWithInvalidBlocks_eq
    (single : KVCacheManager.getBlocks report.scheduler.kvCacheManager id = [blockIds]) :
    ∃ scan, InvalidBlockScan.Scanned report.scheduler.config.blockSize invalidIds
        (report.scheduler.blockTable id) evictBlocks
        { markedInvalidBlockIds := report.markedInvalidBlockIds
          numComputedTokens := (report.scheduler.requestOf id).numComputedTokens
          blocksToEvict := report.blocksToEvict }
        (report.scheduler.computedBlocks numScheduled id) scan ∧
      updateRequestWithInvalidBlocks invalidIds numScheduled evictBlocks report id = .ok
        { scheduler := report.scheduler.modifyRequest id fun request =>
            { request with
              numComputedTokens := if scan.isAffected && !scan.markedInvalidBlock then
                  (report.scheduler.requestOf id).numComputedTokens - numScheduled.getD id 0
                else scan.numComputedTokens }
          affectedReqIds := if scan.isAffected then report.affectedReqIds.insert id
            else report.affectedReqIds
          markedInvalidBlockIds := scan.markedInvalidBlockIds
          blocksToEvict := scan.blocksToEvict } := by
  refine ⟨invalidBlockScan invalidIds numScheduled evictBlocks report id,
    InvalidBlockScan.scanned_zipIdx rfl rfl _, ?_⟩
  unfold invalidBlockScan computedBlocks blockTable updateRequestWithInvalidBlocks
  dsimp only
  rw [single]
  rfl

theorem updateRequestWithInvalidBlocks_updated
    (single : KVCacheManager.getBlocks report.scheduler.kvCacheManager id = [blockIds]) :
    ∃ updated, updateRequestWithInvalidBlocks invalidIds numScheduled evictBlocks report
        id = .ok updated ∧ Updated invalidIds numScheduled evictBlocks report id updated := by
  obtain ⟨scan, ⟨affected, marked, uncut, cut⟩, updates⟩ :=
    updateRequestWithInvalidBlocks_eq invalidIds numScheduled evictBlocks single
  rw [updates]
  refine ⟨_, rfl, ⟨_, rfl⟩, fun other => ?_, marked, fun block => ?_⟩
  · dsimp only
    split
    · next isAffected =>
      rw [mem_insert_iff, or_comm]
      exact or_congr_right (and_iff_left (affected.mp isAffected)).symm
    · next unaffected =>
      rw [← affected]
      simp [unaffected]
  · rw [← InvalidBlockScan.mem_drop_firstUnmarked]
    cases first : InvalidBlockScan.firstUnmarked invalidIds report.markedInvalidBlockIds
        (report.scheduler.computedBlocks numScheduled id) with
    | none =>
      rw [(uncut first).2.2]
      simp
    | some index =>
      rw [(cut index first).2.2]
      cases evictBlocks <;> simp

/-- A request is scanned before all others that have computed tokens in a block. -/
def FirstHolds (computed : RequestId → List BlockId) (requests : List RequestId)
    (requestId : RequestId) (block : BlockId) : Prop :=
  ∃ before after, requests = before ++ requestId :: after ∧
    ∀ other ∈ before, block ∉ computed other

variable {computed : RequestId → List BlockId}

theorem firstHolds_cons {first : RequestId} {rest : List RequestId} :
    FirstHolds computed (first :: rest) id block ↔
      id = first ∨ block ∉ computed first ∧ FirstHolds computed rest id block := by
  constructor
  · rintro ⟨before, after, parts, none_⟩
    obtain _ | ⟨head, before⟩ := before
    · exact .inl (cons.inj parts).1.symm
    · obtain ⟨rfl, parts'⟩ := cons.inj parts
      exact .inr ⟨none_ first mem_cons_self, before, after, parts',
        fun other mem => none_ other (.tail _ mem)⟩
  · rintro (rfl | ⟨absent, before, after, rfl, none_⟩)
    · exact ⟨[], rest, rfl, nofun⟩
    · exact ⟨first :: before, after, rfl, forall_mem_cons.mpr ⟨absent, none_⟩⟩

/-- The requests that are affected, and the blocks that are evicted. -/
theorem updateRequestsWithInvalidBlocks_found
    (report : InvalidBlockReport M E) {table : RequestId → List BlockId}
    (single : ∀ id, ∃ blockIds, KVCacheManager.getBlocks report.scheduler.kvCacheManager id =
      [blockIds])
    (isComputed : ∀ id ∈ requests, report.scheduler.computedBlocks numScheduled id = computed id)
    (isTable : ∀ id, report.scheduler.blockTable id = table id) (nodup : requests.Nodup) :
    ∃ updated, requests.foldlM
        (updateRequestWithInvalidBlocks invalidIds numScheduled evictBlocks) report = .ok updated ∧
      updated.scheduler.kvCacheManager = report.scheduler.kvCacheManager ∧
      (∀ id, id ∈ updated.affectedReqIds ↔ id ∈ report.affectedReqIds ∨
        id ∈ requests ∧ ∃ block ∈ computed id, block ∈ invalidIds) ∧
      ∀ block, block ∈ updated.blocksToEvict ↔ block ∈ report.blocksToEvict ∨
        evictBlocks = true ∧ ∃ id index bad, FirstHolds computed requests id bad ∧
          (computed id)[index]? = some bad ∧ bad ∈ invalidIds ∧
          bad ∉ report.markedInvalidBlockIds ∧ block ∈ (table id).drop index := by
  induction requests generalizing report with
  | nil => exact ⟨report, rfl, rfl, by simp, by simp [FirstHolds]⟩
  | cons first rest ih =>
    obtain ⟨fresh, restNodup⟩ := nodup_cons.mp nodup
    obtain ⟨blockIds, isSingle⟩ := single first
    obtain ⟨next, stepped, ⟨numComputed, changed⟩, affected, marked, evicted⟩ :=
      updateRequestWithInvalidBlocks_updated invalidIds numScheduled evictBlocks isSingle
    rw [isComputed first mem_cons_self] at affected marked evicted
    rw [isTable first] at evicted
    have sameManager : next.scheduler.kvCacheManager = report.scheduler.kvCacheManager := by
      rw [changed]
      rfl
    have sameTable : ∀ id, next.scheduler.blockTable id = report.scheduler.blockTable id := by
      intro id
      rw [blockTable, blockTable, sameManager]
    have laterComputed : ∀ id ∈ rest,
        next.scheduler.computedBlocks numScheduled id = computed id := by
      intro id mem
      have different : id ≠ first := fun same => fresh (same ▸ mem)
      rw [← isComputed id (.tail _ mem), computedBlocks, computedBlocks, sameTable, changed,
        requestOf_modifyRequest_of_ne _ different]
      rfl
    obtain ⟨updated, returned, manager, laterAffected, laterEvicted⟩ :=
      ih next (by rw [sameManager]; exact single) laterComputed
        (fun id => (sameTable id).trans (isTable id)) restNodup
    refine ⟨updated, ?_, manager.trans sameManager, fun id => ?_, fun block => ?_⟩
    · rw [foldlM_cons, stepped]
      exact returned
    · rw [laterAffected, affected, mem_cons]
      grind
    · rw [laterEvicted, evicted]
      constructor
      · rintro ((before | ⟨evicts, index, bad, found, invalid, unmarked, behind⟩) |
          ⟨evicts, id, index, bad, holds, found, invalid, unmarked, behind⟩)
        · exact .inl before
        · exact .inr ⟨evicts, first, index, bad, firstHolds_cons.mpr (.inl rfl), found, invalid,
            unmarked, behind⟩
        · rw [marked, not_or, not_and] at unmarked
          exact .inr ⟨evicts, id, index, bad, firstHolds_cons.mpr
            (.inr ⟨fun held => unmarked.2 held invalid, holds⟩), found, invalid, unmarked.1,
            behind⟩
      · rintro (before | ⟨evicts, id, index, bad, holds, found, invalid, unmarked, behind⟩)
        · exact .inl (.inl before)
        · rcases firstHolds_cons.mp holds with rfl | ⟨absent, holds⟩
          · exact .inl (.inr ⟨evicts, index, bad, found, invalid, unmarked, behind⟩)
          · refine .inr ⟨evicts, id, index, bad, holds, found, invalid, ?_, behind⟩
            rw [marked]
            exact fun known => known.elim unmarked fun held => absent held.1

end

theorem getBlocks_of_single {manager : NativeKVCacheManager} {group : SingleTypeKVCacheManager}
    (single : manager.coordinator.singleTypeManagers = [group]) (id : RequestId) :
    KVCacheManager.getBlocks manager id = [group.blocksOf id] := by
  change manager.coordinator.singleTypeManagers.map _ = _
  rw [single]
  rfl

section Policy

variable (scheduler : Scheduler NativeKVCacheManager E) (invalidBlockIds : List BlockId)
  (numScheduledTokens : Dict RequestId Int) {numGpuBlocks : Nat} {group : SingleTypeKVCacheManager}

/-- A block lies behind an invalid block in the table of the request that is scanned first
among those that hold this invalid block. -/
def ReachedFirst (block : BlockId) : Prop :=
  ∃ first position lost,
    FirstHolds (scheduler.computedBlocks numScheduledTokens) scheduler.running first lost ∧
      (scheduler.computedBlocks numScheduledTokens first)[position]? = some lost ∧
      lost ∈ invalidBlockIds ∧ block ∈ (scheduler.blockTable first).drop position

section

variable (valid : scheduler.kvCacheManager.Valid numGpuBlocks)
  (single : scheduler.kvCacheManager.coordinator.singleTypeManagers = [group])
  (fails : scheduler.config.recomputeKvLoadFailures = false)
  (synchronous : ∀ id ∈ scheduler.skippedWaiting,
    (scheduler.requestOf id).status ≠ .waitingForRemoteKvs) (nodup : scheduler.running.Nodup)

include valid single fails synchronous nodup

/-- The requests that fail, and the blocks that stay cached. -/
theorem handleInvalidBlocks_fails :
    ∃ failed next, scheduler.handleInvalidBlocks invalidBlockIds numScheduledTokens =
        .ok (failed, next) ∧ (∀ id, id ∈ failed ↔ id ∈ scheduler.running ∧
        ∃ block ∈ scheduler.computedBlocks numScheduledTokens id, block ∈ invalidBlockIds) ∧
      ∀ block, next.kvCacheManager.coordinator.blockPool.IsCached block ↔
        ¬ scheduler.ReachedFirst invalidBlockIds numScheduledTokens block ∧
          scheduler.kvCacheManager.coordinator.blockPool.IsCached block := by
  obtain ⟨⟨_, coherent⟩, -⟩ := valid
  have consistent := coherent.pool.toHashConsistent
  obtain ⟨report, scanned, manager, affected, evicted⟩ :=
    updateRequestsWithInvalidBlocks_found invalidBlockIds numScheduledTokens true
      { scheduler := scheduler } (fun id => ⟨_, getBlocks_of_single single id⟩)
      (fun _ _ => rfl) (fun _ => rfl) nodup
  have affected : ∀ id, id ∈ report.affectedReqIds ↔ id ∈ scheduler.running ∧
      ∃ block ∈ scheduler.computedBlocks numScheduledTokens id, block ∈ invalidBlockIds := by
    simpa using affected
  have evicted : ∀ block, block ∈ report.blocksToEvict ↔
      scheduler.ReachedFirst invalidBlockIds numScheduledTokens block := by
    simpa [ReachedFirst] using evicted
  have asyncScan : scheduler.updateRequestsWithInvalidBlocks
      ((RequestQueue.iterate scheduler.config.policy scheduler.lt scheduler.skippedWaiting).filter
        fun id => decide ((scheduler.requestOf id).status = .waitingForRemoteKvs))
      invalidBlockIds numScheduledTokens false = .ok { scheduler := scheduler } := by
    rw [List.filter_eq_nil_iff.mpr fun id mem => ?_]
    · rfl
    · rw [decide_eq_true_iff]
      exact synchronous id ((RequestQueue.iterate_perm ..).mem_iff.mp mem)
  have syncScan : scheduler.updateRequestsWithInvalidBlocks scheduler.running invalidBlockIds
      numScheduledTokens true = .ok report := scanned
  unfold handleInvalidBlocks
  dsimp only
  rw [asyncScan]
  dsimp only [bind, Except.bind]
  rw [syncScan]
  dsimp only
  rw [fails]
  split
  · next nobody =>
    rw [List.isEmpty_nil, Bool.true_and, List.isEmpty_iff] at nobody
    refine ⟨[], report.scheduler, rfl, fun id => by rw [← affected, nobody], fun block => ?_⟩
    rw [manager, iff_and_self]
    rintro - ⟨first, position, lost, holds, found, invalid, -⟩
    obtain ⟨before, after, parts, -⟩ := holds
    have listed := (affected first).mpr
      ⟨by rw [parts]; simp, lost, List.mem_of_getElem? found, invalid⟩
    rw [nobody] at listed
    cases listed
  · refine ⟨_, _, rfl, fun id => ?_, fun block => ?_⟩
    · rw [← affected]
      exact Iff.rfl
    · rw [← evicted]
      split
      · next nothing =>
        rw [List.isEmpty_iff.mp nothing, manager]
        simp
      · rw [manager]
        exact consistent.isCached_evictBlocks report.blocksToEvict

/-- With the policy that fails requests, no block behind an invalid one stays in the cache
exactly if every such block that is cached is reached from the first holder of an invalid
block. -/
theorem handleInvalidBlocks_evicts_iff :
    ∃ failed next, scheduler.handleInvalidBlocks invalidBlockIds numScheduledTokens =
        .ok (failed, next) ∧
      ((∀ id ∈ scheduler.running, ∀ index bad,
          (scheduler.computedBlocks numScheduledTokens id)[index]? = some bad →
          bad ∈ invalidBlockIds → id ∈ failed ∧ ∀ block ∈ (scheduler.blockTable id).drop index,
              ¬ next.kvCacheManager.coordinator.blockPool.IsCached block) ↔
        ∀ id ∈ scheduler.running, ∀ index bad,
          (scheduler.computedBlocks numScheduledTokens id)[index]? = some bad →
          bad ∈ invalidBlockIds → ∀ block ∈ (scheduler.blockTable id).drop index,
              scheduler.kvCacheManager.coordinator.blockPool.IsCached block →
                scheduler.ReachedFirst invalidBlockIds numScheduledTokens block) := by
  obtain ⟨failed, next, handled, affected, cached⟩ :=
    scheduler.handleInvalidBlocks_fails invalidBlockIds numScheduledTokens valid single fails
      synchronous nodup
  refine ⟨failed, next, handled, ?_⟩
  constructor
  · intro clean id running index bad found invalid block behind wasCached
    by_contra missed
    exact (clean id running index bad found invalid).2 block behind
      ((cached block).mpr ⟨missed, wasCached⟩)
  · intro reached id running index bad found invalid
    refine ⟨(affected id).mpr ⟨running, bad, mem_of_getElem? found, invalid⟩, ?_⟩
    intro block behind stays
    obtain ⟨missed, wasCached⟩ := (cached block).mp stays
    exact missed (reached id running index bad found invalid block behind wasCached)

end

/-- A pool of nineteen blocks of two tokens, and two requests of five tokens; the block hashes of
the second one and the number of tokens it computes are given. -/
def sharingManager (blockHashes : List Bytes) (numNewTokens : Int) : NativeKVCacheManager :=
  ((Machine.run ManagerOperation.apply
    (.init [{ kind := .fullAttention, blockSize := 2 }] 20 2 16 8 true false [])
    [.allocateSlots (ManagerOperation.hashedRequest 1 5 100) { numNewTokens := 5 } true,
      .allocateSlots { ManagerOperation.hashedRequest 2 5 100 with blockHashes := blockHashes }
        { numNewTokens := numNewTokens } true]).toOption).getD
    (.init [{ kind := .fullAttention, blockSize := 2 }] 20 2 16 8 true false [])

/-- Both requests run, and requests with failed loads fail. -/
def sharingScheduler (blockHashes : List Bytes) (numNewTokens : Int) :
    Scheduler NativeKVCacheManager EncoderCacheManager where
  config :=
    { maxNumRunningReqs := 4
      maxNumScheduledTokens := 8
      maxModelLen := 16
      blockSize := 2
      hasConnector := true
      recomputeKvLoadFailures := false }
  kvCacheManager := sharingManager blockHashes numNewTokens
  encoderCacheManager := .init 0
  tokencakeScheduling := none
  requestHeap :=
    { object := fun id =>
        { ManagerOperation.hashedRequest id 5 100 with status := .running, numComputedTokens := 5 }
      requestId_object := fun _ => rfl }
  requests := [1, 2]
  waiting := []
  skippedWaiting := []
  running := [1, 2]
  finishedReqIds := []
  finishedRecvingKvReqIds := []
  failedRecvingKvReqIds := []
  prevStepScheduledReqIds := []

/-- The shared first block is invalid, and the second request keeps its second block in the
cache. -/
theorem sharingScheduler_keeps_block :
    let scheduler := sharingScheduler [100, 200] 3
    ((scheduler.handleInvalidBlocks [1] .empty).toOption.map fun result =>
      (result.1, scheduler.blockTable 1, scheduler.blockTable 2,
        ([1, 2, 3, 4, 5].map result.2.kvCacheManager.coordinator.blockPool.blockHash).map
          Option.isSome)) =
      some ([2, 1], [1, 2, 3], [1, 4, 5], [false, false, false, true, false]) := by
  decide +kernel

/-- If the second request shares both full blocks, everything behind the invalid block is
evicted. -/
theorem sharedPrefix_evicts :
    let scheduler := sharingScheduler [100, 101] 1
    (scheduler.blockTable 1 = [1, 2, 3] ∧ scheduler.blockTable 2 = [1, 2, 4]) ∧
    ∃ failed next, scheduler.handleInvalidBlocks [1] .empty = .ok (failed, next) ∧
      ∀ id ∈ scheduler.running, id ∈ failed ∧ ∀ block ∈ scheduler.blockTable id,
        ¬ next.kvCacheManager.coordinator.blockPool.IsCached block := by
  intro scheduler
  have tables : scheduler.blockTable 1 = [1, 2, 3] ∧ scheduler.blockTable 2 = [1, 2, 4] := by
    decide +kernel
  have valid : (sharingManager [100, 101] 1).Valid 20 :=
    ManagerOperation.valid_of_run _ 2 16 8 true false [] (by decide)
      (Machine.along_of_checkAlong ManagerOperation.apply (by decide +kernel))
      (eq_ok_getD_of_isSome _ _ (by decide +kernel))
  obtain ⟨failed, next, handled, clean⟩ := handleInvalidBlocks_evicts_iff
    scheduler [1] .empty valid rfl rfl nofun (by decide)
  have first : ∀ id ∈ scheduler.running,
      (scheduler.computedBlocks .empty id)[0]? = some 1 := by
    decide +kernel
  refine ⟨tables, failed, next, handled, fun id running =>
    clean.mpr ?_ id running 0 1 (first id running) mem_cons_self⟩
  intro other listed index bad found invalid block behind cached
  -- The blocks that are cached stand in the table of the first request.
  have known : block ∈ [1, 2, 3] ∨ block = 4 := by
    rcases (show other = 1 ∨ other = 2 by simpa [scheduler, sharingScheduler] using listed)
      with rfl | rfl
    · exact .inl (tables.1 ▸ mem_of_mem_drop behind)
    · have known : block ∈ [1, 2, 4] := tables.2 ▸ mem_of_mem_drop behind
      exact ((mem_append (s := [1, 2])).mp known).imp (mem_append_left [3]) mem_singleton.mp
  have listed : block ∈ scheduler.blockTable 1 := by
    obtain ⟨⟨_, coherent⟩, -⟩ := valid
    have hashed := coherent.pool.toHashConsistent.isCached_iff.mp cached
    have unhashed : (sharingManager [100, 101] 1).coordinator.blockPool.blockHash 4 = none := by
      decide +kernel
    rw [tables.1]
    exact known.resolve_right fun last => hashed (last ▸ unhashed)
  exact ⟨1, 0, 1, ⟨[], [2], rfl, nofun⟩, first 1 mem_cons_self, mem_cons_self, listed⟩

end Policy

section Recomputation

/-- A request holds a block and computes its tokens again. -/
def ComputesAgain (scheduler : Scheduler M E) (requestId : RequestId) (block : BlockId) : Prop :=
  ∃ position : Nat, (scheduler.blockTable requestId)[position]? = some block ∧
    (scheduler.requestOf requestId).numComputedTokens ≤ position * scheduler.config.blockSize

theorem getElem?_computedBlocks {scheduler : Scheduler M E} (sized : 0 < scheduler.config.blockSize)
    {position : Nat} :
    (scheduler.computedBlocks numScheduled id)[position]? = some block ↔
      (scheduler.blockTable id)[position]? = some block ∧
        (position : Int) * scheduler.config.blockSize < (scheduler.requestOf id).numComputedTokens -
            numScheduled.getD id 0 := by
  have within : position < (((scheduler.requestOf id).numComputedTokens -
      numScheduled.getD id 0 + scheduler.config.blockSize - 1) / scheduler.config.blockSize).toNat ↔
      (position : Int) * scheduler.config.blockSize < (scheduler.requestOf id).numComputedTokens -
          numScheduled.getD id 0 := by
    rw [Int.lt_toNat, Int.lt_iff_add_one_le, Int.le_ediv_iff_mul_le (by omega), add_mul]
    omega
  rw [computedBlocks, getElem?_take, ← within]
  split
  · next inside => exact (and_iff_left inside).symm
  · next outside => exact iff_of_false (by simp) fun found => outside found.2

/-- The scan of a request lowers its computed tokens, if at all, to a point before which
every invalid block was marked before, and behind which it holds what it marks. -/
theorem updateRequestWithInvalidBlocks_truncates (invalidIds : List BlockId) (evictBlocks : Bool)
    (sized : 0 < report.scheduler.config.blockSize) (scheduled : 0 ≤ numScheduled.getD id 0)
    (single : KVCacheManager.getBlocks report.scheduler.kvCacheManager id = [blockIds]) :
    ∃ updated numComputedTokens,
      updateRequestWithInvalidBlocks invalidIds numScheduled evictBlocks report
        id = .ok updated ∧
      Updated invalidIds numScheduled evictBlocks report id updated ∧
      updated.scheduler = report.scheduler.modifyRequest id (fun request =>
        { request with numComputedTokens := numComputedTokens }) ∧
      numComputedTokens ≤ (report.scheduler.requestOf id).numComputedTokens ∧
      ((∀ block ∈ report.scheduler.computedBlocks numScheduled id, block ∉ invalidIds) →
        numComputedTokens = (report.scheduler.requestOf id).numComputedTokens) ∧
      ((∃ block ∈ report.scheduler.computedBlocks numScheduled id, block ∈ invalidIds) →
        ∀ (position : Nat) block, (report.scheduler.blockTable id)[position]? = some block →
          block ∈ invalidIds →
          (position : Int) * report.scheduler.config.blockSize < numComputedTokens →
            block ∈ report.markedInvalidBlockIds) ∧
      ∀ block ∈ updated.markedInvalidBlockIds, block ∉ report.markedInvalidBlockIds →
        updated.scheduler.ComputesAgain id block := by
  obtain ⟨updated, returned, isUpdated⟩ := updateRequestWithInvalidBlocks_updated invalidIds
    numScheduled evictBlocks single
  obtain ⟨scan, ⟨isAffected, -, uncut, cut⟩, updates⟩ :=
    updateRequestWithInvalidBlocks_eq invalidIds numScheduled evictBlocks single
  have shape := returned
  rw [updates, Except.ok.injEq] at shape
  refine ⟨updated, _, returned, isUpdated, (congrArg InvalidBlockReport.scheduler shape).symm, ?_⟩
  have marked_iff := isUpdated.marked
  subst shape
  cases first : InvalidBlockScan.firstUnmarked invalidIds report.markedInvalidBlockIds
      (report.scheduler.computedBlocks numScheduled id) with
  | none =>
    -- Every invalid block was marked before, so the request keeps what was computed
    -- before the step.
    obtain ⟨unmarked, unchanged, -⟩ := uncut first
    have known := InvalidBlockScan.firstUnmarked_eq_none.mp first
    rw [unmarked, unchanged]
    dsimp only
    refine ⟨by split <;> omega, fun valid => if_neg ?_, fun affected position block found invalid
      before => ?_, fun block marked unmarked => ?_⟩
    · rw [Bool.not_false, Bool.and_true, isAffected]
      rintro ⟨block, held, invalid⟩
      exact valid block held invalid
    · rw [isAffected.mpr affected] at before
      exact known block (List.mem_of_getElem?
        ((getElem?_computedBlocks sized).mpr ⟨found, before⟩)) invalid
    · obtain old | ⟨held, invalid⟩ := (marked_iff block).mp marked
      · exact absurd old unmarked
      · exact absurd (known block held invalid) unmarked
  | some index =>
    obtain ⟨marks, truncated, -⟩ := cut index first
    obtain ⟨short, isUnmarked, earlier⟩ := List.findIdx?_eq_some_iff_getElem.mp first
    have atIndex := (getElem?_computedBlocks sized).mp (List.getElem?_eq_getElem short)
    rw [decide_eq_true_iff] at isUnmarked
    rw [marks, truncated]
    simp only [Bool.not_true, Bool.and_false, Bool.false_eq_true, if_false]
    refine ⟨by omega, fun valid => absurd isUnmarked.1 (valid _ (List.getElem_mem short)),
      fun _ position block found invalid before => ?_, fun block marked unmarked => ?_⟩
    · have sooner : position < index := by
        exact_mod_cast lt_of_mul_lt_mul_right before (Int.natCast_nonneg _)
      have computed := (getElem?_computedBlocks sized).mpr ⟨found, before.trans atIndex.2⟩
      obtain ⟨inside, isBlock⟩ := List.getElem?_eq_some_iff.mp computed
      have passed := earlier position sooner
      rw [isBlock, decide_eq_true_iff] at passed
      by_contra new
      exact passed ⟨invalid, new⟩
    · obtain old | ⟨held, invalid⟩ := (marked_iff block).mp marked
      · exact absurd old unmarked
      · obtain ⟨position, inside, isBlock⟩ := List.getElem_of_mem held
        have found := (getElem?_computedBlocks sized).mp
          ((List.getElem?_eq_getElem inside).trans (congrArg some isBlock))
        refine ⟨position, found.1, ?_⟩
        rw [requestOf_modifyRequest_self]
        have later : index ≤ position := by
          by_contra sooner
          refine earlier position (by omega) ?_
          rw [isBlock, decide_eq_true_iff]
          exact ⟨invalid, unmarked⟩
        exact mul_le_mul_of_nonneg_right (Int.ofNat_le.mpr later) (Int.natCast_nonneg _)

/-- What the scan of some requests has done so far. -/
structure Recovers (invalidBlockIds : List BlockId) (numScheduledTokens : Dict RequestId Int)
    (scheduler : Scheduler M E) (scanned : List RequestId)
    (report : InvalidBlockReport M E) : Prop where
  manager : report.scheduler.kvCacheManager = scheduler.kvCacheManager
  config : report.scheduler.config = scheduler.config
  marked : ∀ block ∈ report.markedInvalidBlockIds,
    ∃ holder ∈ scanned, report.scheduler.ComputesAgain holder block
  covered : ∀ id ∈ report.affectedReqIds, ∀ (position : Nat) block,
    (report.scheduler.blockTable id)[position]? = some block → block ∈ invalidBlockIds →
    (position : Int) * report.scheduler.config.blockSize <
      (report.scheduler.requestOf id).numComputedTokens →
      ∃ before after, scanned = before ++ id :: after ∧
        ∃ holder ∈ before, report.scheduler.ComputesAgain holder block
  unchanged : ∀ id, id ∉ report.affectedReqIds →
    report.scheduler.requestOf id = scheduler.requestOf id
  affected : ∀ id ∈ report.affectedReqIds,
    ∃ block ∈ scheduler.computedBlocks numScheduledTokens id, block ∈ invalidBlockIds
  le : ∀ id, (report.scheduler.requestOf id).numComputedTokens ≤
    (scheduler.requestOf id).numComputedTokens

variable {scheduler : Scheduler M E} {scanned : List RequestId}

/-- The scan of one more request. -/
theorem Recovers.update (recovers : Recovers invalidIds numScheduled scheduler scanned report)
    (sized : 0 < scheduler.config.blockSize) (scheduled : ∀ id, 0 ≤ numScheduled.getD id 0)
    (single : KVCacheManager.getBlocks scheduler.kvCacheManager requestId = [blockIds]) :
    ∃ updated, updateRequestWithInvalidBlocks invalidIds numScheduled evictBlocks report
        requestId = .ok updated ∧
      Recovers invalidIds numScheduled scheduler (scanned ++ [requestId]) updated := by
  rw [← recovers.config] at sized
  rw [← recovers.manager] at single
  obtain ⟨updated, numComputed, returned, isUpdated, shape, lowered, kept, before, new⟩ :=
    updateRequestWithInvalidBlocks_truncates invalidIds evictBlocks sized
      (scheduled requestId) single
  have self : (updated.scheduler.requestOf requestId).numComputedTokens = numComputed := by
    rw [shape, requestOf_modifyRequest_self]
  have others : ∀ id, id ≠ requestId →
      updated.scheduler.requestOf id = report.scheduler.requestOf id := by
    intro id different
    rw [shape]
    exact requestOf_modifyRequest_of_ne _ different
  have less : ∀ id, (updated.scheduler.requestOf id).numComputedTokens ≤
      (report.scheduler.requestOf id).numComputedTokens := by
    intro id
    by_cases same : id = requestId
    · rw [same, self]
      exact lowered
    · rw [others id same]
  have tables : updated.scheduler.blockTable = report.scheduler.blockTable := by
    rw [shape]
    rfl
  have sizes : updated.scheduler.config = report.scheduler.config := by
    rw [shape]
    rfl
  have recomputed : ∀ holder block, report.scheduler.ComputesAgain holder block →
      updated.scheduler.ComputesAgain holder block := by
    rintro holder block ⟨position, found, short⟩
    refine ⟨position, by rw [tables]; exact found, ?_⟩
    rw [sizes]
    exact (less holder).trans short
  refine ⟨updated, returned, by rw [shape]; exact recovers.manager, sizes.trans recovers.config,
    fun block marked => ?_, ?_, fun id unaffected => ?_, fun id affected => ?_,
    fun id => (less id).trans (recovers.le id)⟩
  · by_cases old : block ∈ report.markedInvalidBlockIds
    · obtain ⟨holder, mem, holds⟩ := recovers.marked block old
      exact ⟨holder, mem_append_left _ mem, recomputed holder block holds⟩
    · exact ⟨requestId, by simp, new block marked old⟩
  · rw [tables, sizes]
    intro id affected position block found invalid computed
    by_cases rescanned : id = requestId ∧ ∃ block ∈ report.scheduler.computedBlocks
        numScheduled requestId, block ∈ invalidIds
    · obtain ⟨rfl, hit⟩ := rescanned
      rw [self] at computed
      obtain ⟨holder, mem, holds⟩ :=
        recovers.marked block (before hit position block found invalid computed)
      exact ⟨scanned, [], rfl, holder, mem, recomputed holder block holds⟩
    · -- Nothing new was found for this request.
      have old := ((isUpdated.affected id).mp affected).resolve_right rescanned
      obtain ⟨earlier, later, parts, holder, mem, holds⟩ := recovers.covered id old position
        block found invalid (lt_of_lt_of_le computed (less id))
      exact ⟨earlier, later ++ [requestId], by rw [parts]; simp, holder, mem,
        recomputed holder block holds⟩
  · have hidden := (isUpdated.affected id).not.mp unaffected
    rw [not_or, not_and] at hidden
    rw [← recovers.unchanged id hidden.1]
    by_cases same : id = requestId
    · subst same
      have valid := hidden.2 rfl
      push Not at valid
      rw [shape, requestOf_modifyRequest_self, kept valid]
    · exact others id same
  · obtain old | ⟨rfl, block, held, invalid⟩ := (isUpdated.affected id).mp affected
    · exact recovers.affected id old
    · obtain ⟨position, found⟩ := getElem?_of_mem held
      rw [getElem?_computedBlocks sized] at found
      have smaller := recovers.le id
      have original : (scheduler.computedBlocks numScheduled id)[position]? = some block := by
        rw [getElem?_computedBlocks (recovers.config ▸ sized), blockTable, ← recovers.manager,
          ← recovers.config]
        exact ⟨found.1, lt_of_lt_of_le found.2 (by omega)⟩
      exact ⟨block, mem_of_getElem? original, invalid⟩

end Recomputation

/-- After the scan of the running requests, every invalid block that a request still counts as
computed is computed again by a request scanned before it.  Requests without invalid blocks
are unchanged, and no request counts more computed tokens. -/
theorem updateRequestsWithInvalidBlocks_recovers
    (scheduler : Scheduler NativeKVCacheManager E) (invalidBlockIds : List BlockId)
    (numScheduledTokens : Dict RequestId Int) (evictBlocks : Bool)
    {group : SingleTypeKVCacheManager}
    (single : scheduler.kvCacheManager.coordinator.singleTypeManagers = [group])
    (sized : 0 < scheduler.config.blockSize) (scheduled : ∀ id, 0 ≤ numScheduledTokens.getD id 0)
    (running : List RequestId) :
    ∃ report, scheduler.updateRequestsWithInvalidBlocks running invalidBlockIds numScheduledTokens
        evictBlocks = .ok report ∧
      (∀ id ∈ report.affectedReqIds, ∀ (index : Nat) block,
        (scheduler.blockTable id)[index]? = some block → block ∈ invalidBlockIds →
        (index : Int) * scheduler.config.blockSize <
          (report.scheduler.requestOf id).numComputedTokens →
          ∃ before after, running = before ++ id :: after ∧ ∃ holder ∈ before, ∃ position : Nat,
            (scheduler.blockTable holder)[position]? = some block ∧
              (report.scheduler.requestOf holder).numComputedTokens ≤
                position * scheduler.config.blockSize) ∧
      (∀ id, (∀ block ∈ scheduler.computedBlocks numScheduledTokens id, block ∉ invalidBlockIds) →
        report.scheduler.requestOf id = scheduler.requestOf id) ∧
      ∀ id, (report.scheduler.requestOf id).numComputedTokens ≤
        (scheduler.requestOf id).numComputedTokens := by
  have initial : Recovers invalidBlockIds numScheduledTokens scheduler []
      { scheduler := scheduler } :=
    ⟨rfl, rfl, nofun, nofun, fun _ _ => rfl, nofun, fun _ => le_rfl⟩
  obtain ⟨report, returned, recovers⟩ := foldlM_eq_ok_of_prefix
    (fun before report id recovers =>
      recovers.update sized scheduled (getBlocks_of_single single id)) running initial
  refine ⟨report, returned, ?_, fun id valid => recovers.unchanged id fun affected => ?_,
    recovers.le⟩
  · have covered := recovers.covered
    unfold ComputesAgain blockTable at covered
    rw [recovers.manager, recovers.config] at covered
    exact covered
  · obtain ⟨block, held, invalid⟩ := recovers.affected id affected
    exact valid block held invalid

/-- Two requests share their invalid first block: the first one computes it again, and the
second one counts it as computed. -/
theorem sharingScheduler_recovers :
    let scheduler := sharingScheduler [100, 200] 3
    ((scheduler.updateRequestsWithInvalidBlocks [1, 2] [1] .empty true).toOption.map
      fun report => (report.affectedReqIds,
        [1, 2].map fun id => (report.scheduler.requestOf id).numComputedTokens)) =
      some ([2, 1], [0, 5]) ∧
    ∃ report, scheduler.updateRequestsWithInvalidBlocks [1, 2] [1] .empty true = .ok report ∧
      ∀ id, (report.scheduler.requestOf id).numComputedTokens ≤
        (scheduler.requestOf id).numComputedTokens := by
  refine ⟨by decide +kernel, ?_⟩
  obtain ⟨report, returned, -, -, le⟩ := updateRequestsWithInvalidBlocks_recovers
    (sharingScheduler [100, 200] 3) [1] .empty true rfl (by decide) (fun _ => le_rfl) [1, 2]
  exact ⟨report, returned, le⟩

end Scheduler

end TokenCake
