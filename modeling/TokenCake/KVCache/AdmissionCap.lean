import TokenCake.KVCache.Prediction

/-!
# The admission cap of groups with a window

A request of such a group is admitted if the pool has blocks for a window and one
batch of tokens.  This bounds the blocks that the request really holds, as long as
lookahead tokens count as tokens of the batch and chunks consist of whole blocks.
-/

namespace TokenCake

open List SingleTypeKVCacheManager KVCacheCoordinator

variable {cap : Int} (specs : List KVCacheSpec) {numComputed total : Int}

namespace KVCacheSpec

/-- A call asks for no more tokens than the cap of the group foresees: lookahead tokens
count, and chunks consist of whole blocks. -/
def SlotsFit (spec : KVCacheSpec) (maxNumBatchedTokens : Nat) (numNewTokens : Int)
    (numLookaheadTokens : Nat) : Prop :=
  match spec.kind with
  | .fullAttention => True
  | .slidingWindow _ => numNewTokens + numLookaheadTokens ≤ maxNumBatchedTokens + 1
  | .chunkedLocalAttention chunk =>
    0 < chunk ∧ spec.blockSize ∣ chunk ∧ numNewTokens + numLookaheadTokens ≤ maxNumBatchedTokens + 1

instance (spec : KVCacheSpec) (maxNumBatchedTokens : Nat) (numNewTokens : Int)
    (numLookaheadTokens : Nat) :
    Decidable (spec.SlotsFit maxNumBatchedTokens numNewTokens numLookaheadTokens) := by
  unfold SlotsFit
  split <;> infer_instance

variable {maxBatched maxModelLen : Nat} {spec : KVCacheSpec}

/-- The blocks of all slots are at most the skipped ones and the cap. -/
theorem cdiv_le_skipped_add_cap
    (capEq : spec.maxAdmissionBlocksPerRequest maxBatched maxModelLen = some cap)
    {numNewTokens : Int} {numLookaheadTokens : Nat}
    (fit : spec.SlotsFit maxBatched numNewTokens numLookaheadTokens) (nonnegative : 0 ≤ total) :
    cdiv (min (total + numNewTokens + numLookaheadTokens) maxModelLen) spec.blockSize ≤
      (spec.getNumSkippedTokens total / spec.blockSize).toNat + cap := by
  rcases Nat.eq_zero_or_pos spec.blockSize with empty | positive
  · have nothing : ∀ tokens : Int, cdiv tokens 0 = 0 := fun tokens => by simp [cdiv]
    unfold maxAdmissionBlocksPerRequest at capEq
    rw [empty] at capEq ⊢
    simp only [nothing] at capEq ⊢
    have capNonnegative : 0 ≤ cap := by
      split at capEq <;> cases capEq <;> omega
    omega
  · unfold maxAdmissionBlocksPerRequest at capEq
    unfold SlotsFit at fit
    unfold getNumSkippedTokens
    rw [cdiv_le_iff positive, add_mul]
    cases kind : spec.kind with
    | fullAttention =>
      rw [kind] at capEq
      cases capEq
    | slidingWindow window =>
      rw [kind] at capEq fit
      cases capEq
      set tokens := min ((window : Int) - 1 + maxBatched) (maxModelLen : Int)
      have enough := le_cdiv_mul tokens positive
      set skipped := max 0 (total - window + 1)
      have floor : skipped < (skipped / spec.blockSize + 1) * spec.blockSize :=
        Int.lt_ediv_add_one_mul_self skipped (Int.natCast_pos.mpr positive)
      have quotient : 0 ≤ skipped / (spec.blockSize : Int) :=
        Int.ediv_nonneg (by omega) (Int.natCast_nonneg _)
      rw [Int.toNat_of_nonneg quotient, add_mul]
      rw [add_mul] at floor
      omega
    | chunkedLocalAttention chunk =>
      rw [kind] at capEq fit
      cases capEq
      obtain ⟨chunkPositive, whole, short⟩ := fit
      set tokens := min ((chunk : Int) + maxBatched) (maxModelLen : Int)
      have enough := le_cdiv_mul tokens positive
      have divides : (spec.blockSize : Int) ∣ total / chunk * chunk :=
        (Int.natCast_dvd_natCast.mpr whole).mul_left _
      have chunks : 0 ≤ total / (chunk : Int) * chunk :=
        Int.mul_nonneg (Int.ediv_nonneg nonnegative (Int.natCast_nonneg _)) (Int.natCast_nonneg _)
      have quotient : 0 ≤ total / (chunk : Int) * chunk / (spec.blockSize : Int) :=
        Int.ediv_nonneg chunks (Int.natCast_nonneg _)
      have floor := Int.lt_ediv_add_one_mul_self total (Int.natCast_pos.mpr chunkPositive)
      rw [Int.toNat_of_nonneg quotient, Int.ediv_mul_cancel divides]
      rw [add_mul] at floor
      omega

/-- The cap leaves room for an empty table. -/
theorem cap_nonneg (capEq : spec.maxAdmissionBlocksPerRequest maxBatched maxModelLen = some cap) :
    0 ≤ cap := by
  unfold maxAdmissionBlocksPerRequest at capEq
  cases kind : spec.kind with
  | fullAttention =>
    rw [kind] at capEq
    cases capEq
  | slidingWindow window =>
    rw [kind] at capEq
    cases capEq
    have monotone := cdiv_le_cdiv
      (show -1 ≤ min ((window : Int) - 1 + maxBatched) maxModelLen by omega)
      spec.blockSize
    have least : -1 ≤ cdiv (-1) spec.blockSize := by
      unfold cdiv
      have bound := Int.ediv_le_self spec.blockSize (show (0 : Int) ≤ 1 by decide)
      rw [neg_neg]
      omega
    omega
  | chunkedLocalAttention chunk =>
    rw [kind] at capEq
    cases capEq
    have monotone := cdiv_le_cdiv
      (show 0 ≤ min ((chunk : Int) + maxBatched) maxModelLen by omega) spec.blockSize
    rwa [show cdiv 0 spec.blockSize = 0 by simp [cdiv]] at monotone

end KVCacheSpec

namespace SingleTypeKVCacheManager

/-- Tables are padded and hold at most as many blocks as the cap of the group says. -/
structure WithinCap (maxNumBatchedTokens maxModelLen : Nat)
    (manager : SingleTypeKVCacheManager) : Prop where
  cap : manager.maxAdmissionBlocksPerRequest =
    manager.kvCacheSpec.maxAdmissionBlocksPerRequest maxNumBatchedTokens maxModelLen
  tables : ∀ cap, manager.maxAdmissionBlocksPerRequest = some cap → ∀ requestId,
    Padded (manager.blocksOf requestId) ∧
      ((nonNull (manager.blocksOf requestId)).length : Int) ≤ cap

/-- The blocks in front of the window are given back. -/
def Trimmed (manager : SingleTypeKVCacheManager) (requestId : RequestId)
    (totalComputedTokens : Int) : Prop :=
  ∀ cap, manager.maxAdmissionBlocksPerRequest = some cap →
    (nonNull (manager.blocksOf requestId)).length + manager.skippedBlocks totalComputedTokens ≤
      (manager.blocksOf requestId).length

variable {maxBatched maxModelLen : Nat} {manager changed : SingleTypeKVCacheManager}
  {pool next : BlockPool} {id : RequestId} (within : manager.WithinCap maxBatched maxModelLen)

include within in
/-- Another table of one request, with the same cap and group. -/
theorem WithinCap.replace (same : SameGroup manager changed)
    (others : ∀ other, other ≠ id → changed.blocksOf other = manager.blocksOf other)
    (table : ∀ cap, manager.maxAdmissionBlocksPerRequest = some cap → Padded (changed.blocksOf id) ∧
        ((nonNull (changed.blocksOf id)).length : Int) ≤ cap) :
    changed.WithinCap maxBatched maxModelLen := by
  refine ⟨?_, fun cap capped other => ?_⟩
  · rw [same.maxAdmissionBlocksPerRequest, same.kvCacheSpec]
    exact within.cap
  · rw [same.maxAdmissionBlocksPerRequest] at capped
    by_cases isRequest : other = id
    · rw [isRequest]
      exact table cap capped
    · rw [others other isRequest]
      exact within.tables cap capped other

theorem removeSkippedBlocks_sameGroup
    (manager : SingleTypeKVCacheManager) (pool : BlockPool) (id : RequestId) (total : Int) :
    SameGroup manager (manager.removeSkippedBlocks pool id total).1 ∧
      (manager.removeSkippedBlocks pool id total).1.numCachedBlock = manager.numCachedBlock := by
  unfold removeSkippedBlocks
  dsimp only
  split <;> exact ⟨⟨rfl, rfl, rfl, rfl⟩, rfl⟩

include within in
/-- Giving blocks back keeps the tables within the cap; a table that reaches to the
window is trimmed. -/
theorem WithinCap.removeSkippedBlocks (pool : BlockPool) (id : RequestId) (total : Int) :
    (manager.removeSkippedBlocks pool id total).1.WithinCap maxBatched maxModelLen ∧
      (manager.skippedBlocks total ≤ (manager.blocksOf id).length →
        (manager.removeSkippedBlocks pool id total).1.Trimmed id total) := by
  have same := (manager.removeSkippedBlocks_sameGroup pool id total).1
  obtain ⟨table, others⟩ :=
    manager.blocksOf_removeSkippedBlocks pool id total
  have spec := fun cap capped => trimmedTable_spec (within.tables cap capped id).1
    (Nat.min_le_right (manager.skippedBlocks total) _)
  refine ⟨within.replace same others fun cap capped => ?_, fun reaches cap capped => ?_⟩
  · obtain ⟨padded, -, fewer, -⟩ := spec cap capped
    have bound := (within.tables cap capped id).2
    rw [table]
    exact ⟨padded, by omega⟩
  · rw [same.maxAdmissionBlocksPerRequest] at capped
    obtain ⟨-, length, -, behind⟩ := spec cap capped
    have sameSkipped : skippedBlocks
        (manager.removeSkippedBlocks pool id total).1 total = manager.skippedBlocks total := by
      unfold skippedBlocks blockSize
      rw [same.kvCacheSpec]
    rw [sameSkipped, table, length]
    omega

variable {numExternal numLocal numTokens : Int} {blocks : List BlockId} {other : RequestId}

theorem blocksOf_extendBlocks_of_ne (manager : SingleTypeKVCacheManager)
    (different : other ≠ id) (blocks : List BlockId) :
    (manager.extendBlocks id blocks).blocksOf other = manager.blocksOf other :=
  manager.blocksOf_withTable_of_ne _ _ different

/-- A freed request has an empty table. -/
theorem blocksOf_free
    (manager : SingleTypeKVCacheManager) (pool : BlockPool) (id other : RequestId) :
    (manager.free pool id).1.blocksOf other =
      if other = id then [] else manager.blocksOf other := by
  unfold free blocksOf Dict.getD
  rw [Dict.get?_erase]
  split <;> rfl

/-- Blocks for computed tokens go to the table of their request. -/
theorem blocksOf_allocateNewComputedBlocks_of_ne
    (returned : manager.allocateNewComputedBlocks pool id blocks numLocal
      numExternal = .ok (changed, next))
    (different : other ≠ id) : changed.blocksOf other = manager.blocksOf other := by
  rw [allocateNewComputedBlocks_eq] at returned
  split at returned
  · obtain ⟨_, -, returned⟩ := bind_eq_ok.mp returned
    cases returned
    rfl
  · obtain ⟨_, -, returned⟩ := bind_eq_ok.mp returned
    obtain ⟨_, -, returned⟩ := bind_eq_ok.mp returned
    split at returned
    · obtain ⟨_, -, returned⟩ := bind_eq_ok.mp returned
      cases returned
      exact (blocksOf_extendBlocks_of_ne _ different _).trans
        (blocksOf_extendBlocks_of_ne manager different _)
    · cases returned
      exact blocksOf_extendBlocks_of_ne manager different _

/-- New blocks go to the table of their request. -/
theorem blocksOf_allocateNewBlocks_of_ne
    (returned : manager.allocateNewBlocks pool id numTokens = .ok (blocks, changed, next))
    (different : other ≠ id) : changed.blocksOf other = manager.blocksOf other := by
  unfold allocateNewBlocks at returned
  dsimp only at returned
  split at returned
  · cases returned
    rfl
  · obtain ⟨_, -, returned⟩ := bind_eq_ok.mp returned
    cases returned
    exact blocksOf_extendBlocks_of_ne manager different _

/-- Caching leaves the tables. -/
theorem cacheBlocks_sameTables
    (stored : manager.cacheBlocks pool request numTokens alignmentTokens = .ok (changed, next)) :
    SameGroup manager changed ∧ changed.reqToBlocks = manager.reqToBlocks := by
  unfold cacheBlocks at stored
  dsimp only at stored
  split at stored
  · cases stored
    exact ⟨.refl _, rfl⟩
  · obtain ⟨cached, -, stored⟩ := bind_eq_ok.mp stored
    cases stored
    exact ⟨⟨rfl, rfl, rfl, rfl⟩, rfl⟩

include within in
theorem WithinCap.congr
    (same : SameGroup manager changed) (tables : changed.reqToBlocks = manager.reqToBlocks) :
    changed.WithinCap maxBatched maxModelLen := by
  have blocks : ∀ id, changed.blocksOf id = manager.blocksOf id := by
    intro id
    unfold blocksOf
    rw [tables]
  refine ⟨?_, fun cap capped id => ?_⟩
  · rw [same.maxAdmissionBlocksPerRequest, same.kvCacheSpec]
    exact within.cap
  · rw [blocks]
    exact within.tables cap (same.maxAdmissionBlocksPerRequest ▸ capped) id

section Ownership

variable {queue : List BlockId} {others : BlockId → Nat} (owns : manager.Owns pool queue others)

include owns in
theorem Owns.nullBlock_notMem : nullBlock ∉ queue :=
  fun mem => ((owns.pool.mem_free nullBlock).mp mem).1 rfl

variable {hits : List BlockId}

include owns in
/-- The table of a new request: null blocks up to the window, at most the blocks of the
computed tokens behind them. -/
theorem Owns.newTable (takes : manager.TakesHits pool.numGpuBlocks id hits numLocal numExternal)
    (returned : manager.allocateNewComputedBlocks pool id hits numLocal
      numExternal = .ok (changed, next)) (unrecorded : id ∉ manager.numCachedBlock)
    (short : (hits.length : Int) ≤ cdiv (numLocal + numExternal) manager.blockSize) :
    (Padded hits → Padded (changed.blocksOf id)) ∧ (nonNull (changed.blocksOf id)).length +
          manager.skippedBlocks (numLocal + numExternal) ≤ (changed.blocksOf id).length ∧
      ((changed.blocksOf id).length : Int) ≤
        max (manager.skippedBlocks (numLocal + numExternal) : Int)
          (cdiv (numLocal + numExternal) manager.blockSize) := by
  obtain ⟨queue', -, -, -, -, new⟩ := owns.allocateNewComputedBlocks takes returned
  obtain ⟨-, length, -, external, table, taken⟩ := new unrecorded
  set total := numLocal + numExternal
  have externalHeld : nullBlock ∉ external := fun mem => owns.nullBlock_notMem (taken mem)
  refine ⟨?_, ?_, ?_⟩
  · intro padded
    rw [table]
    exact (padded.replaceFront _).append externalHeld
  · have fewer := length_filter_le (fun block => !decide (block = nullBlock))
      (hits.drop (manager.skippedBlocks total))
    change (nonNull _).length ≤ _ at fewer
    rw [table, paddedHits, nonNull_append, nonNull_append, nonNull_replicate, nil_append,
      nonNull_eq_self externalHeld, length_append, length_append, length_append,
      length_replicate]
    omega
  · have padding := manager.length_paddedHits hits total
    have externalCount : manager.externalBlocks hits numLocal numExternal =
        if manager.externalTokens numLocal numExternal > 0 then
          cdiv total manager.blockSize - (manager.paddedHits hits total).length
        else 0 := rfl
    rw [length, externalCount]
    split <;> omega

include within owns in
/-- The table of a new request is trimmed and within the cap, if the blocks of its
computed tokens are at most the skipped ones and the cap. -/
theorem WithinCap.allocateNewComputedBlocks
    (takes : manager.TakesHits pool.numGpuBlocks id hits numLocal numExternal)
    (returned : manager.allocateNewComputedBlocks pool id hits numLocal
      numExternal = .ok (changed, next)) (unrecorded : id ∉ manager.numCachedBlock)
    (window : ∀ cap, manager.maxAdmissionBlocksPerRequest = some cap → Padded hits ∧
      (hits.length : Int) ≤ cdiv (numLocal + numExternal) manager.blockSize ∧
      cdiv (numLocal + numExternal) manager.blockSize ≤
        manager.skippedBlocks (numLocal + numExternal) + cap) :
    changed.WithinCap maxBatched maxModelLen ∧ changed.Trimmed id (numLocal + numExternal) := by
  obtain ⟨-, -, -, same, -⟩ := owns.allocateNewComputedBlocks takes returned
  refine ⟨within.replace same
    (fun other different => blocksOf_allocateNewComputedBlocks_of_ne returned different)
    fun cap capped => ?_, fun cap capped => ?_⟩
  · obtain ⟨padded, short, bound⟩ := window cap capped
    obtain ⟨tablePadded, behind, length⟩ := owns.newTable takes returned unrecorded short
    have capPositive := KVCacheSpec.cap_nonneg (within.cap ▸ capped)
    exact ⟨tablePadded padded, by omega⟩
  · rw [same.maxAdmissionBlocksPerRequest] at capped
    obtain ⟨-, short, -⟩ := window cap capped
    obtain ⟨-, behind, -⟩ := owns.newTable takes returned unrecorded short
    unfold skippedBlocks blockSize at behind ⊢
    rw [same.kvCacheSpec]
    exact behind

include within owns in
/-- New blocks keep a trimmed table within the cap, if the blocks of all slots are at most
the skipped ones and the cap. -/
theorem WithinCap.allocateNewBlocks (trimmed : manager.Trimmed id total)
    (bound : ∀ cap, manager.maxAdmissionBlocksPerRequest = some cap →
      cdiv numTokens manager.blockSize ≤ manager.skippedBlocks total + cap)
    (returned : manager.allocateNewBlocks pool id numTokens = .ok (blocks, changed, next)) :
    changed.WithinCap maxBatched maxModelLen := by
  obtain ⟨-, enough, table, taken, -, same⟩ := owns.allocateNewBlocks returned
  have held : nullBlock ∉ blocks := by
    rw [taken]
    exact fun mem => owns.nullBlock_notMem (mem_of_mem_take mem)
  refine within.replace same
    (fun other different => blocksOf_allocateNewBlocks_of_ne returned different)
    fun cap capped => ?_
  obtain ⟨padded, heldBefore⟩ := within.tables cap capped id
  have capBound := bound cap capped
  have behind := trimmed cap capped
  have count := congrArg length taken
  rw [length_take] at count
  unfold missingBlocks at enough count
  rw [table]
  refine ⟨padded.append held, ?_⟩
  rw [nonNull_append, nonNull_eq_self held, length_append]
  omega

end Ownership

end SingleTypeKVCacheManager

namespace NativeKVCacheManager

/-- No group holds more blocks for a request than its admission cap. -/
structure WithinCaps (maxNumBatchedTokens : Nat) (manager : NativeKVCacheManager) : Prop where
  groups : ∀ group ∈ manager.coordinator.singleTypeManagers,
    group.WithinCap maxNumBatchedTokens manager.maxModelLen

/-- A call that the caps foresee: its computed tokens are within the model length, every
group has room for its tokens, and a group with a window gets hits that are padded and
no longer than the computed tokens, or has a table that reaches to the window. -/
def AdmitsSlots (maxNumBatchedTokens : Nat) (manager : NativeKVCacheManager) (request : Request)
    (arguments : AllocateArguments) : Prop :=
  0 ≤ totalComputedTokens request arguments ∧
  totalComputedTokens request arguments ≤ manager.maxModelLen ∧
  0 ≤ arguments.numNewTokens ∧
  ∀ entry ∈ manager.coordinator.singleTypeManagers.zipIdx,
    entry.1.kvCacheSpec.SlotsFit maxNumBatchedTokens arguments.numNewTokens
      arguments.numLookaheadTokens ∧
    (entry.1.kvCacheSpec.kind ≠ .fullAttention →
      if manager.addsComputed arguments = true ∧ request.requestId ∉ entry.1.numCachedBlock then
        Padded ((manager.computedBlocks arguments).getD entry.2 []) ∧
          (((manager.computedBlocks arguments).getD entry.2 []).length : Int) ≤
            cdiv (totalComputedTokens request arguments) entry.1.blockSize
      else entry.1.skippedBlocks (totalComputedTokens request arguments) ≤
        (entry.1.blocksOf request.requestId).length)

instance (maxNumBatchedTokens : Nat) (manager : NativeKVCacheManager) (request : Request)
    (arguments : AllocateArguments) :
    Decidable (manager.AdmitsSlots maxNumBatchedTokens request arguments) := by
  unfold AdmitsSlots
  infer_instance

/-- A group before the computed tokens of a call get their blocks. -/
structure Prepared (maxNumBatchedTokens : Nat) (manager : NativeKVCacheManager) (request : Request)
    (arguments : AllocateArguments) (group : SingleTypeKVCacheManager) (index : Nat) : Prop where
  within : group.WithinCap maxNumBatchedTokens manager.maxModelLen
  fit : group.kvCacheSpec.SlotsFit maxNumBatchedTokens arguments.numNewTokens
    arguments.numLookaheadTokens
  new : manager.addsComputed arguments = true → request.requestId ∉ group.numCachedBlock →
    ∀ cap, group.maxAdmissionBlocksPerRequest = some cap →
      Padded ((manager.computedBlocks arguments).getD index []) ∧
        (((manager.computedBlocks arguments).getD index []).length : Int) ≤
          cdiv (totalComputedTokens request arguments) group.blockSize
  trimmed : (manager.addsComputed arguments = true → request.requestId ∈ group.numCachedBlock) →
    group.Trimmed request.requestId (totalComputedTokens request arguments)

/-- A group whose table of a request is trimmed and that has room for the tokens of a
call. -/
structure Ready (maxNumBatchedTokens : Nat) (manager : NativeKVCacheManager) (request : Request)
    (arguments : AllocateArguments) (group : SingleTypeKVCacheManager) : Prop where
  within : group.WithinCap maxNumBatchedTokens manager.maxModelLen
  fit : group.kvCacheSpec.SlotsFit maxNumBatchedTokens arguments.numNewTokens
    arguments.numLookaheadTokens
  trimmed : group.Trimmed request.requestId (totalComputedTokens request arguments)

section Operations

variable {maxBatched numGpuBlocks : Nat} {manager next : NativeKVCacheManager} {request : Request}
  {arguments : AllocateArguments} {group : SingleTypeKVCacheManager}

theorem kind_ne_of_cap {maxModelLen : Nat} (within : group.WithinCap maxBatched maxModelLen)
    (capped : group.maxAdmissionBlocksPerRequest = some cap) :
    group.kvCacheSpec.kind ≠ .fullAttention := by
  intro full
  rw [within.cap, KVCacheSpec.maxAdmissionBlocksPerRequest, full] at capped
  cases capped

/-- Whether a call brings hits depends on its arguments only. -/
theorem addsComputed_removeSkippedBlocks (manager : NativeKVCacheManager) (id : RequestId)
    (total : Int) (arguments : AllocateArguments) :
    (manager.removeSkippedBlocks id total).addsComputed arguments =
      manager.addsComputed arguments := by
  unfold addsComputed computedBlocks emptyKvCacheBlocks
  cases arguments.newComputedBlocks with
  | some blocks => rfl
  | none => simp

section

variable (within : manager.WithinCaps maxBatched)

include within

/-- Trimming the tables prepares all groups of an admitted call. -/
theorem WithinCaps.prepared (admits : manager.AdmitsSlots maxBatched request arguments) :
    ∀ entry ∈ (manager.removeSkippedBlocks request.requestId
        (totalComputedTokens request arguments)).coordinator.singleTypeManagers.zipIdx,
      Prepared maxBatched
        (manager.removeSkippedBlocks request.requestId (totalComputedTokens request arguments))
        request arguments entry.1 entry.2 := by
  set total := totalComputedTokens request arguments
  have kept : Forall₂ (fun group changed => SameGroup group changed ∧
        changed.numCachedBlock = group.numCachedBlock ∧
        (group.WithinCap maxBatched manager.maxModelLen →
          changed.WithinCap maxBatched manager.maxModelLen ∧
          (group.skippedBlocks total ≤ (group.blocksOf request.requestId).length →
            changed.Trimmed request.requestId total)))
      manager.coordinator.singleTypeManagers
      (manager.removeSkippedBlocks request.requestId total).coordinator.singleTypeManagers := by
    refine forall₂_mapManagers fun group pool => ?_
    obtain ⟨same, recorded⟩ := group.removeSkippedBlocks_sameGroup pool request.requestId total
    exact ⟨same, recorded, fun within =>
      within.removeSkippedBlocks pool request.requestId total⟩
  rintro ⟨changed, index⟩ found
  obtain ⟨group, found', same, recorded, trims⟩ :=
    exists_getElem?_of_forall₂ kept (mem_zipIdx_iff_getElem?.mp found)
  have groupWithin := within.groups group (mem_of_getElem? found')
  obtain ⟨changedWithin, trimmed⟩ := trims groupWithin
  obtain ⟨-, -, -, each⟩ := admits
  obtain ⟨fit, table⟩ := each (group, index) (mem_zipIdx_iff_getElem?.mpr found')
  refine ⟨changedWithin, same.kvCacheSpec ▸ fit, ?_, ?_⟩
  · rw [addsComputed_removeSkippedBlocks, recorded]
    intro adds unrecorded cap capped
    rw [same.maxAdmissionBlocksPerRequest] at capped
    have window := table (kind_ne_of_cap groupWithin capped)
    rw [if_pos ⟨adds, unrecorded⟩] at window
    rw [computedBlocks_getD] at window ⊢
    rw [blockSize, same.kvCacheSpec]
    exact window
  · rw [addsComputed_removeSkippedBlocks, recorded]
    intro notNew cap capped
    have window := table (kind_ne_of_cap groupWithin (same.maxAdmissionBlocksPerRequest ▸ capped))
    rw [if_neg fun isNew => isNew.2 (notNew isNew.1)] at window
    exact trimmed window cap capped

/-- What keeps every group within its cap keeps all of them. -/
theorem WithinCaps.of_forall₂ (length : next.maxModelLen = manager.maxModelLen)
    (kept : List.Forall₂ (fun group changed => group.WithinCap maxBatched manager.maxModelLen →
        changed.WithinCap maxBatched manager.maxModelLen)
      manager.coordinator.singleTypeManagers next.coordinator.singleTypeManagers) :
    next.WithinCaps maxBatched := by
  refine ⟨fun changed mem => ?_⟩
  obtain ⟨index, found⟩ := getElem?_of_mem mem
  obtain ⟨group, found', keeps⟩ := exists_getElem?_of_forall₂ kept found
  rw [length]
  exact keeps (within.groups group (mem_of_getElem? found'))

omit within in
/-- Caching leaves the tables and the model length. -/
theorem cacheBlocks_sameTables (returned : manager.cacheBlocks request numComputed = .ok next) :
    next.maxModelLen = manager.maxModelLen ∧ List.Forall₂
      (fun group changed => SingleTypeKVCacheManager.SameGroup group changed ∧
        changed.reqToBlocks = group.reqToBlocks)
      manager.coordinator.singleTypeManagers next.coordinator.singleTypeManagers := by
  unfold NativeKVCacheManager.cacheBlocks at returned
  split at returned
  · obtain ⟨coordinator, cached, returned⟩ := bind_eq_ok.mp returned
    cases returned
    obtain ⟨⟨_, managers, pool⟩, done, cached⟩ := bind_eq_ok.mp cached
    cases cached
    refine ⟨rfl, forall₂_eachManager (fun _ group pool _ changed next stepped => ?_) done⟩
    obtain ⟨⟨changed, next⟩, stored, stepped⟩ := bind_eq_ok.mp stepped
    cases stepped
    exact cacheBlocks_sameTables stored
  · cases returned
    exact ⟨rfl, forall₂_same.mpr fun group _ => ⟨.refl group, rfl⟩⟩

theorem WithinCaps.cacheBlocks (returned : manager.cacheBlocks request numComputed = .ok next) :
    next.WithinCaps maxBatched := by
  obtain ⟨length, groups⟩ := cacheBlocks_sameTables returned
  exact within.of_forall₂ length
    (groups.imp fun group changed same groupWithin => groupWithin.congr same.1 same.2)

end

/-- The slots of a call within the model length. -/
theorem slotTokens_eq (inside : totalComputedTokens request arguments ≤ manager.maxModelLen) :
    manager.slotTokens request arguments =
      min (totalComputedTokens request arguments + arguments.numNewTokens +
        arguments.numLookaheadTokens) manager.maxModelLen := by
  unfold slotTokens mainModelTokens
  rw [min_eq_left inside]

/-- The slots of a call take at most the skipped blocks and the cap. -/
theorem cdiv_slotTokens_le (nonnegative : 0 ≤ totalComputedTokens request arguments)
    (inside : totalComputedTokens request arguments ≤ manager.maxModelLen)
    (within : group.WithinCap maxBatched manager.maxModelLen)
    (fit : group.kvCacheSpec.SlotsFit maxBatched arguments.numNewTokens
      arguments.numLookaheadTokens) (capped : group.maxAdmissionBlocksPerRequest = some cap) :
    cdiv (manager.slotTokens request arguments) group.blockSize ≤
      group.skippedBlocks (totalComputedTokens request arguments) + cap := by
  rw [slotTokens_eq inside]
  exact KVCacheSpec.cdiv_le_skipped_add_cap (within.cap ▸ capped) fit nonnegative

section

variable (valid : manager.Valid numGpuBlocks)
  (takes : manager.TakesHits numGpuBlocks request arguments)
  (nonnegative : 0 ≤ totalComputedTokens request arguments)
  (inside : totalComputedTokens request arguments ≤ manager.maxModelLen)
  (newTokens : 0 ≤ arguments.numNewTokens)
  (prepared : ∀ entry ∈ manager.coordinator.singleTypeManagers.zipIdx, Prepared maxBatched
    manager request arguments entry.1 entry.2)

include valid takes nonnegative inside newTokens prepared

/-- The blocks of computed tokens make prepared groups ready. -/
theorem ready_addComputedBlocks {added : KVCacheCoordinator}
    (returned : manager.addComputedBlocks request arguments = .ok added) :
    added.Valid numGpuBlocks ∧ ∀ group ∈ added.singleTypeManagers,
      Ready maxBatched manager request arguments group := by
  unfold addComputedBlocks at returned
  dsimp only at returned
  split at returned
  · next adds =>
    obtain ⟨⟨_, managers, pool⟩, done, returned⟩ := bind_eq_ok.mp returned
    cases returned
    refine (eachManager_forall₂
      (fun group index => Prepared maxBatched manager request arguments group index ∧
        group.TakesHits numGpuBlocks request.requestId
          ((manager.computedBlocks arguments).getD index [])
          (request.numComputedTokens + arguments.numNewComputedTokens)
          arguments.numExternalComputedTokens)
      (fun _ => Ready maxBatched manager request arguments)
      done valid (fun entry mem => ⟨prepared entry mem, takes entry mem⟩) ?_).imp_right
        forall_of_forall₂
    rintro group index pool queue others owns rfl ⟨prep, takes⟩ _ replaced next stepped
    obtain ⟨⟨replaced, next⟩, stepped, stepReturned⟩ := bind_eq_ok.mp stepped
    cases stepReturned
    obtain ⟨queue', owned, shape, same, whenRecorded, -⟩ :=
      owns.allocateNewComputedBlocks takes stepped
    refine ⟨⟨queue', owned⟩, shape.numGpuBlocks, ?_⟩
    by_cases recorded : request.requestId ∈ group.numCachedBlock
    · obtain ⟨rfl, -⟩ := whenRecorded recorded
      exact ⟨prep.within, prep.fit, prep.trimmed fun _ => recorded⟩
    · have window : ∀ cap, group.maxAdmissionBlocksPerRequest = some cap →
          Padded ((manager.computedBlocks arguments).getD index []) ∧
          (((manager.computedBlocks arguments).getD index []).length : Int) ≤
            cdiv (totalComputedTokens request arguments) group.blockSize ∧
          cdiv (totalComputedTokens request arguments) group.blockSize ≤
            group.skippedBlocks (totalComputedTokens request arguments) + cap := by
        intro cap capped
        obtain ⟨padded, short⟩ := prep.new adds recorded cap capped
        have slots := cdiv_slotTokens_le nonnegative inside prep.within prep.fit capped
        refine ⟨padded, short, (cdiv_le_cdiv ?_ _).trans slots⟩
        rw [slotTokens_eq inside]
        omega
      obtain ⟨within, trimmed⟩ :=
        prep.within.allocateNewComputedBlocks owns takes stepped recorded window
      exact ⟨within, same.kvCacheSpec ▸ prep.fit, trimmed⟩
  · next noAdds =>
    cases returned
    refine ⟨valid, fun group mem => ?_⟩
    obtain ⟨index, found⟩ := getElem?_of_mem mem
    have prep := prepared (group, index) (mem_zipIdx_iff_getElem?.mpr found)
    exact ⟨prep.within, prep.fit, prep.trimmed fun adds => absurd adds noAdds⟩

/-- Taking the blocks of a call whose groups are prepared. -/
theorem WithinCaps.takeSlots {blocks : KVCacheBlocks}
    (returned : manager.takeSlots request arguments = .ok (blocks, next)) :
    next.WithinCaps maxBatched := by
  obtain ⟨added, allocated, addedComputed, taken, stored⟩ := takeSlots_eq_ok returned
  obtain ⟨addedValid, ready⟩ := ready_addComputedBlocks valid takes nonnegative inside newTokens
    prepared addedComputed
  obtain ⟨⟨newBlocks', managers, pool⟩, done, taken⟩ := bind_eq_ok.mp taken
  cases taken
  have within := (eachManager_forall₂
    (fun group _ => Ready maxBatched manager request arguments group)
    (fun _ group => group.WithinCap maxBatched manager.maxModelLen)
    done addedValid (fun entry mem => ready entry.1 (fst_mem_of_mem_zipIdx mem))
    fun group index pool queue others owns size ready _ replaced next stepped => by
        obtain ⟨owned, -, -, -, shape, -⟩ := owns.allocateNewBlocks stepped
        refine ⟨⟨_, owned⟩, shape.numGpuBlocks.trans size, ?_⟩
        exact ready.within.allocateNewBlocks owns ready.trimmed (fun cap capped =>
            cdiv_slotTokens_le nonnegative inside ready.within ready.fit capped) stepped).2
  have allocatedWithin : WithinCaps maxBatched
      { manager with coordinator := added.withManagers managers pool } :=
    ⟨forall_of_forall₂ within⟩
  rcases stored with rfl | ⟨_, stored⟩
  · exact allocatedWithin
  · exact allocatedWithin.cacheBlocks stored

end

section

variable (within : manager.WithinCaps maxBatched)

include within

/-- Releasing skipped blocks keeps the tables within the caps. -/
theorem WithinCaps.removeSkippedBlocks (id : RequestId) (total : Int) :
    (manager.removeSkippedBlocks id total).WithinCaps maxBatched :=
  within.of_forall₂ rfl (forall₂_mapManagers fun _ pool within =>
    (within.removeSkippedBlocks pool id total).1)

/-- Freeing a request keeps the tables within the caps. -/
theorem WithinCaps.free (id : RequestId) : (manager.free id).WithinCaps maxBatched := by
  refine within.of_forall₂ rfl (forall₂_mapManagers fun group pool within => ?_)
  have tables := group.blocksOf_free pool id
  refine within.replace ⟨rfl, rfl, rfl, rfl⟩
    (fun other different => (tables other).trans (if_neg different)) fun cap capped => ?_
  rw [tables, if_pos rfl]
  exact ⟨padded_nil, KVCacheSpec.cap_nonneg (within.cap ▸ capped)⟩

/-- An admitted call keeps the tables within the caps. -/
theorem WithinCaps.allocateSlots (valid : manager.Valid numGpuBlocks)
    (takes : ¬ manager.Refuses request arguments →
      manager.TakesHits numGpuBlocks request arguments)
    (admits : manager.AdmitsSlots maxBatched request arguments) {blocks : Option KVCacheBlocks}
    (returned : manager.allocateSlots request arguments = .ok (blocks, next)) :
    next.WithinCaps maxBatched := by
  have prepared := within.prepared admits
  obtain ⟨nonnegative, inside, newTokens, -⟩ := admits
  cases blocks with
  | none =>
    rcases allocateSlots_eq_none returned with rfl | rfl
    · exact within
    · exact within.removeSkippedBlocks _ _
  | some blocks =>
    obtain ⟨granted, taken⟩ := allocateSlots_eq_some returned
    unfold trimmed at taken
    rw [min_eq_left inside] at taken
    exact takeSlots (valid.removeSkippedBlocks _ _) ((takes granted).removeSkippedBlocks _ _)
      nonnegative inside newTokens prepared taken

end

/-- The tables of a new engine are empty. -/
theorem withinCaps_init (numGpuBlocks hashBlockSize maxModelLen maxBatched : Nat)
    (enableCaching useEagle : Bool) (flagged : List Nat) :
    (init specs numGpuBlocks hashBlockSize maxModelLen maxBatched enableCaching useEagle
      flagged).WithinCaps maxBatched := by
  refine ⟨fun group mem => ?_⟩
  obtain ⟨entry, -, rfl⟩ := mem_map.mp mem
  exact ⟨rfl, fun cap capped id => ⟨padded_nil, KVCacheSpec.cap_nonneg capped⟩⟩

end Operations

end NativeKVCacheManager

namespace ManagerOperation

/-- The caps foresee the calls of `allocateSlots`. -/
def Admitted (maxNumBatchedTokens : Nat) (manager : NativeKVCacheManager) :
    ManagerOperation → Prop
  | allocateSlots request arguments lookup =>
    manager.AdmitsSlots maxNumBatchedTokens request
      (allocateArguments manager request arguments lookup)
  | _ => True

instance (maxNumBatchedTokens : Nat) (manager : NativeKVCacheManager)
    (operation : ManagerOperation) : Decidable (Admitted maxNumBatchedTokens manager operation) :=
  match operation with
  | allocateSlots _ _ _ => inferInstanceAs (Decidable (NativeKVCacheManager.AdmitsSlots _ _ _ _))
  | free _ | cacheBlocks _ _ | removeSkippedBlocks _ _ | evictBlocks _ | resetPrefixCache =>
    inferInstanceAs (Decidable True)

variable {manager next : NativeKVCacheManager} {numGpuBlocks : Nat}
  {operation : ManagerOperation} {maxBatched : Nat} {request : Request}

theorem maxModelLen_takeSlots (taken : manager.takeSlots request arguments = .ok (blocks, next)) :
    next.maxModelLen = manager.maxModelLen := by
  obtain ⟨_, _, -, -, rfl | ⟨_, stored⟩⟩ := NativeKVCacheManager.takeSlots_eq_ok taken
  · rfl
  · have kept := (NativeKVCacheManager.cacheBlocks_sameTables stored).1
    exact kept

/-- No operation changes the model length. -/
theorem maxModelLen_of_apply
    (applied : apply manager operation = .ok next) : next.maxModelLen = manager.maxModelLen := by
  cases operation with
  | allocateSlots request arguments lookup =>
    obtain ⟨⟨blocks, next⟩, allocated, returned⟩ := bind_eq_ok.mp applied
    cases returned
    cases blocks with
    | none =>
      rcases NativeKVCacheManager.allocateSlots_eq_none allocated with rfl | rfl <;> rfl
    | some blocks =>
      have kept := maxModelLen_takeSlots (NativeKVCacheManager.allocateSlots_eq_some allocated).2
      exact kept
  | free id | removeSkippedBlocks id total | resetPrefixCache =>
    cases applied
    rfl
  | cacheBlocks request numComputed =>
    exact (NativeKVCacheManager.cacheBlocks_sameTables applied).1
  | evictBlocks blocks =>
    obtain ⟨_, -, returned⟩ := bind_eq_ok.mp applied
    cases returned
    rfl

theorem withinCaps_of_apply (within : manager.WithinCaps maxBatched)
    (valid : manager.Valid numGpuBlocks)
    (fits : Fits manager operation) (admitted : Admitted maxBatched manager operation)
    (applied : apply manager operation = .ok next) : next.WithinCaps maxBatched := by
  cases operation with
  | allocateSlots request arguments lookup =>
    obtain ⟨⟨blocks, next⟩, allocated, returned⟩ := bind_eq_ok.mp applied
    cases returned
    exact within.allocateSlots valid (takesHits_of_fits valid fits) admitted allocated
  | free id =>
    cases applied
    exact within.free id
  | cacheBlocks request numComputed => exact within.cacheBlocks applied
  | removeSkippedBlocks id total =>
    cases applied
    exact within.removeSkippedBlocks id total
  | evictBlocks blocks =>
    obtain ⟨_, -, returned⟩ := bind_eq_ok.mp applied
    cases returned
    exact ⟨within.groups⟩
  | resetPrefixCache =>
    cases applied
    exact ⟨within.groups⟩

/-- What every run of operations that the caps foresee keeps. -/
structure Foreseen (maxNumBatchedTokens maxModelLen numGpuBlocks : Nat)
    (manager : NativeKVCacheManager) : Prop where
  within : manager.WithinCaps maxNumBatchedTokens
  valid : manager.Valid numGpuBlocks
  length : manager.maxModelLen = maxModelLen

/-- Runs that the caps foresee stay within the caps. -/
theorem Foreseen.run (foreseen : Foreseen maxBatched maxModelLen numGpuBlocks manager)
    {operations : List ManagerOperation} (along : Machine.Along apply (fun manager operation =>
        Fits manager operation ∧ Admitted maxBatched manager operation) manager operations)
    (reached : Machine.run apply manager operations = .ok final) :
    Foreseen maxBatched maxModelLen numGpuBlocks final := by
  refine Machine.invariant_of_run ?_ foreseen along reached
  rintro manager operation next ⟨within, valid, length⟩ ⟨fits, admitted⟩ applied
  exact ⟨withinCaps_of_apply within valid fits admitted applied,
    valid_of_apply valid fits applied, (maxModelLen_of_apply applied).trans length⟩

theorem foreseen_init (hashBlockSize maxModelLen maxBatched : Nat) (enableCaching useEagle : Bool)
    (flagged : List Nat) (positive : 0 < numGpuBlocks) :
    Foreseen maxBatched maxModelLen numGpuBlocks
      (.init specs numGpuBlocks hashBlockSize maxModelLen maxBatched enableCaching
        useEagle flagged) :=
  ⟨NativeKVCacheManager.withinCaps_init _ _ _ _ _ _ _ _,
    valid_init specs hashBlockSize enableCaching useEagle
      flagged maxBatched maxModelLen positive, rfl⟩

/-- In every run of operations that the caps foresee, a request holds at most as many
blocks of a group with a window as the cap of the group. -/
theorem held_le_cap_of_run
    (specs : List KVCacheSpec) (numGpuBlocks hashBlockSize maxModelLen maxNumBatchedTokens : Nat)
    (enableCaching useEagle : Bool) (flaggedEagleGroupIds : List Nat) (positive : 0 < numGpuBlocks)
    (operations : List ManagerOperation) (final : NativeKVCacheManager)
    (along : Machine.Along apply (fun manager operation =>
        Fits manager operation ∧ Admitted maxNumBatchedTokens manager operation)
      (.init specs numGpuBlocks hashBlockSize maxModelLen maxNumBatchedTokens enableCaching
        useEagle flaggedEagleGroupIds) operations)
    (reached : Machine.run apply
      (.init specs numGpuBlocks hashBlockSize maxModelLen maxNumBatchedTokens enableCaching
        useEagle flaggedEagleGroupIds) operations = .ok final)
    (group : SingleTypeKVCacheManager) (member : group ∈ final.coordinator.singleTypeManagers)
    (cap : Int)
    (capped : group.kvCacheSpec.maxAdmissionBlocksPerRequest maxNumBatchedTokens maxModelLen =
      some cap)
    (requestId : RequestId) : ((nonNull (group.blocksOf requestId)).length : Int) ≤ cap := by
  have foreseen := (foreseen_init specs hashBlockSize maxModelLen maxNumBatchedTokens
    enableCaching useEagle flaggedEagleGroupIds positive).run along reached
  have within := foreseen.within.groups group member
  rw [foreseen.length] at within
  exact (within.tables cap (within.cap.trans capped) requestId).2

section Lookahead

/-- A decode step that asks for lookahead slots. -/
def lookaheadCall : ManagerOperation :=
  .allocateSlots (hashedRequest 1 8 100)
    { numNewTokens := 1, numLookaheadTokens := 5 } false

/-- The next chunk of a long prompt. -/
def chunkCall (numComputedTokens : Nat) (numNewTokens : Int) : ManagerOperation :=
  .allocateSlots { hashedRequest 1 13 100 with numComputedTokens := numComputedTokens }
    { numNewTokens := numNewTokens } false

/-- The number of blocks that request 1 holds in the first group, and the cap. -/
def heldAndCap (manager : NativeKVCacheManager) : Option (Nat × Option Int) :=
  manager.coordinator.singleTypeManagers.head?.map fun group =>
    ((nonNull (group.blocksOf 1)).length, group.maxAdmissionBlocksPerRequest)

/-- Lookahead tokens are not part of the cap of a sliding window, and a chunk that ends
inside a block needs one block more than the cap of its group. -/
theorem held_exceeds_cap :
    ((Machine.run apply (.init [{ kind := .slidingWindow 4, blockSize := 1 }] 20 1 64 1 false false
        []) [lookaheadCall]).toOption.bind heldAndCap) = some (6, some 5) ∧
    ((Machine.run apply (.init [{ kind := .chunkedLocalAttention 6, blockSize := 4 }] 20 4 64 2
        false false []) [chunkCall 0 1, chunkCall 1 2, chunkCall 3 2, chunkCall 5 2, chunkCall 7 2,
          chunkCall 9 2, chunkCall 11 2]).toOption.bind heldAndCap) = some (3, some 2) := by
  decide +kernel

/-- A request is computed in two steps and freed, and the next one starts from its hits. -/
def prefixHitRun : List ManagerOperation :=
  [.allocateSlots (hashedRequest 1 8 100) { numNewTokens := 5 } true,
    .allocateSlots { hashedRequest 1 8 100 with numComputedTokens := 5 }
      { numNewTokens := 3, numLookaheadTokens := 1 } false,
    .free 1,
    .allocateSlots (hashedRequest 2 8 100) { numNewTokens := 2 } true]

/-- In this run every group with a window stays within its cap. -/
theorem prefixHitRun_held_le_cap :
    ((Machine.run apply (.init threeGroups 20 2 64 5 true false []) prefixHitRun).toOption.map
      fun final => final.coordinator.singleTypeManagers.map fun group =>
        ((nonNull (group.blocksOf 2)).length, group.maxAdmissionBlocksPerRequest)) =
      some [(4, none), (4, none), (2, some 5)] ∧
    ∀ final,
      Machine.run apply (.init threeGroups 20 2 64 5 true false []) prefixHitRun = .ok final →
      ∀ group ∈ final.coordinator.singleTypeManagers, ∀ cap,
        group.kvCacheSpec.maxAdmissionBlocksPerRequest 5 64 = some cap →
          ((nonNull (group.blocksOf 2)).length : Int) ≤ cap := by
  refine ⟨by decide +kernel, fun final reached group member cap capped => ?_⟩
  exact held_le_cap_of_run threeGroups 20 2 64 5 true false [] (by decide) prefixHitRun final
    (Machine.along_of_checkAlong apply (by decide +kernel)) reached group member cap capped 2

end Lookahead

end ManagerOperation

end TokenCake
