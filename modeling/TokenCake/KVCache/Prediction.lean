import Mathlib.Algebra.BigOperators.Ring.Finset
import TokenCake.KVCache.Representation
import TokenCake.Library.Withdrawal

/-!
# The predicted demand of an allocation

Before an allocation takes blocks, the number of blocks it needs is computed and
compared with the number of free blocks.  The prediction is exact as long as the
external tokens of one group do not take a hit of a later group from the front of
the free queue.
-/

namespace TokenCake

open List SingleTypeKVCacheManager KVCacheCoordinator Withdrawal Bool

namespace BlockPool

theorem avoids_cacheBlocksFrom
    (groupId : Nat) (blocks : List (BlockId × Bool)) (hashes : List (List Bytes))
    (pool : BlockPool) : Avoids (· = .valueError) (cacheBlocksFrom groupId blocks hashes pool) := by
  induction blocks generalizing hashes pool with
  | nil => exact .ok _
  | cons entry rest ih =>
    unfold cacheBlocksFrom
    split
    · exact ih _ _
    · split
      · exact .error nofun
      · refine Avoids.bind ((Avoids.ensure nofun).bind fun _ _ => .ok _) fun _ _ => ?_
        exact ih _ _

theorem avoids_cacheFullBlocks (pool : BlockPool) (blockHashes : List Bytes) (blocks : List BlockId)
    (numCachedBlocks numFullBlocks blockSize groupId : Nat) (blockMask : Option (List Bool)) :
    Avoids (· = .valueError) (pool.cacheFullBlocks blockHashes blocks numCachedBlocks
      numFullBlocks blockSize groupId blockMask) := by
  unfold cacheFullBlocks
  split
  · exact .ok _
  · refine (Avoids.ensure nofun).bind fun _ _ => ?_
    refine (Avoids.ensure nofun).bind fun _ _ => ?_
    refine (Avoids.ensure nofun).bind fun _ _ => ?_
    exact avoids_cacheBlocksFrom _ _ _ _

end BlockPool

namespace SingleTypeKVCacheManager

/-- What a request without blocks withdraws from the free queue for its computed
tokens: its hits inside the window, and blocks for external tokens. -/
def withdrawal (manager : SingleTypeKVCacheManager) (requestId : RequestId) (blocks : List BlockId)
    (numLocalComputedTokens numExternalComputedTokens : Int) : List BlockId × Nat :=
  if requestId ∈ manager.numCachedBlock ∨ manager.blocksOf requestId ≠ [] then ([], 0)
  else
    (blocks.drop (manager.skippedBlocks (numLocalComputedTokens + numExternalComputedTokens)),
      (manager.externalBlocks blocks numLocalComputedTokens numExternalComputedTokens).toNat)

/-- Blocks that are missing after the blocks for computed tokens are added. -/
def missingAfter
    (manager : SingleTypeKVCacheManager) (requestId : RequestId) (blocks : List BlockId)
    (numLocalComputedTokens numExternalComputedTokens numTokens : Int) : Int :=
  if requestId ∈ manager.numCachedBlock then manager.missingBlocks requestId numTokens
  else
    max (cdiv numTokens manager.blockSize - ((manager.paddedHits blocks
          (numLocalComputedTokens + numExternalComputedTokens)).length +
        manager.externalBlocks blocks numLocalComputedTokens numExternalComputedTokens)) 0

section Demand

variable {manager : SingleTypeKVCacheManager} {pool : BlockPool} {queue : List BlockId}
  {held : BlockId → Nat} {requestId : RequestId} {blocks : List BlockId}
  {numLocal numExternal numTokens : Int}

theorem length_paddedHits
    (manager : SingleTypeKVCacheManager) (blocks : List BlockId) (total : Int) :
    (manager.paddedHits blocks total).length = max (manager.skippedBlocks total) blocks.length := by
  unfold paddedHits
  rw [length_append, length_replicate, length_drop]
  omega

/-- The evictable hits are those in the free queue. -/
theorem getNumEvictableBlocks_eq (consistent : pool.Consistent queue held)
    (inPool : ∀ block ∈ blocks, block ≠ nullBlock → block < pool.numGpuBlocks) :
    getNumEvictableBlocks pool blocks = blocks.countP fun block => decide (block ∈ queue) := by
  refine countP_congr fun block mem => ?_
  rw [and_eq_true, decide_eq_true_iff, not_eq_true', decide_eq_false_iff_not,
    decide_eq_true_iff, consistent.mem_free]
  constructor
  · rintro ⟨unreferenced, inside⟩
    rw [consistent.refCnt block inside] at unreferenced
    exact ⟨inside, inPool block mem inside, by omega⟩
  · rintro ⟨inside, -, unreferenced⟩
    rw [consistent.refCnt block inside, unreferenced]
    exact ⟨rfl, inside⟩

theorem getNumBlocksToAllocate_nonneg (total : Int) (applyAdmissionCap : Bool) :
    0 ≤ manager.getNumBlocksToAllocate pool requestId numTokens blocks total applyAdmissionCap := by
  unfold getNumBlocksToAllocate
  dsimp only
  split <;> omega

theorem externalBlocks_le (manager : SingleTypeKVCacheManager)
    (within : 0 < numExternal → numLocal + numExternal ≤ numTokens) (blocks : List BlockId) :
    manager.externalBlocks blocks numLocal numExternal ≤
      max (cdiv numTokens manager.blockSize - (manager.paddedHits blocks
          (numLocal + numExternal)).length) 0 := by
  unfold externalBlocks
  dsimp only
  split
  · next external =>
    have positive : 0 < numExternal := by
      unfold externalTokens at external
      dsimp only at external
      split at external <;> omega
    have monotone := cdiv_le_cdiv (within positive) manager.blockSize
    omega
  · exact le_max_right _ _

/-- The demand of a request that is recorded is what it misses. -/
theorem getNumBlocksToAllocate_of_recorded (recorded : requestId ∈ manager.numCachedBlock)
    (total : Int) :
    manager.getNumBlocksToAllocate pool requestId numTokens blocks total false =
      manager.missingBlocks requestId numTokens := by
  unfold getNumBlocksToAllocate missingBlocks
  rw [if_pos recorded]

section

variable (unrecorded : requestId ∉ manager.numCachedBlock)

include unrecorded

/-- The demand of a request without blocks covers its hits, its external blocks and
what it misses then. -/
theorem getNumBlocksToAllocate_of_new
    (empty : manager.blocksOf requestId = []) (consistent : pool.Consistent queue held)
    (takes : manager.TakesHits pool.numGpuBlocks requestId blocks numLocal numExternal)
    (within : 0 < numExternal → numLocal + numExternal ≤ numTokens) :
    manager.getNumBlocksToAllocate pool requestId numTokens blocks (numLocal + numExternal) false =
      (blocks.drop (manager.skippedBlocks (numLocal + numExternal))).countP
        (fun block => decide (block ∈ queue)) + manager.externalBlocks blocks numLocal numExternal +
      manager.missingAfter requestId blocks numLocal numExternal numTokens := by
  have part := manager.externalBlocks_le within blocks
  have padded := manager.length_paddedHits blocks (numLocal + numExternal)
  have fits := takes.fits unrecorded
  have skipped : (manager.skippedBlocks (numLocal + numExternal)) =
    (max 0 (manager.kvCacheSpec.getNumSkippedTokens
      (numLocal + numExternal) / manager.blockSize - 0)).toNat := by
    unfold skippedBlocks
    omega
  rw [← getNumEvictableBlocks_eq consistent (takes.drop _).1]
  unfold getNumBlocksToAllocate missingAfter
  dsimp only
  rw [if_neg unrecorded, if_neg unrecorded, empty, length_nil, Nat.cast_zero, ← skipped]
  omega

/-- The demand of a request whose table reaches to the window is what it misses. -/
theorem getNumBlocksToAllocate_of_covered
    (covered : manager.skippedBlocks total ≤ (manager.blocksOf requestId).length ∨
      cdiv numTokens manager.blockSize ≤ (manager.blocksOf requestId).length) :
    manager.getNumBlocksToAllocate pool requestId numTokens [] total false =
      manager.missingBlocks requestId numTokens := by
  unfold skippedBlocks at covered
  unfold getNumBlocksToAllocate missingBlocks getNumEvictableBlocks
  dsimp only
  rw [if_neg unrecorded, drop_nil, countP_nil, length_nil]
  omega

theorem withdrawal_of_new (empty : manager.blocksOf requestId = []) :
    manager.withdrawal requestId blocks numLocal numExternal =
      (blocks.drop (manager.skippedBlocks (numLocal + numExternal)),
        (manager.externalBlocks blocks numLocal numExternal).toNat) :=
  if_neg (not_or.mpr ⟨unrecorded, not_not.mpr empty⟩)

end

section

variable (consistent : pool.Consistent queue held)
  (takes : manager.TakesHits pool.numGpuBlocks requestId blocks numLocal
    numExternal)

include consistent takes

/-- The demand covers what is withdrawn. -/
theorem withdrawal_le_getNumBlocksToAllocate
    (within : 0 < numExternal → numLocal + numExternal ≤ numTokens) :
    (cost queue [manager.withdrawal requestId blocks numLocal numExternal] : Int) ≤
      manager.getNumBlocksToAllocate pool requestId numTokens blocks
        (numLocal + numExternal) false := by
  rw [cost_cons, cost_nil]
  unfold withdrawal
  split
  · exact getNumBlocksToAllocate_nonneg _ _
  · next isNew =>
    obtain ⟨unrecorded, empty⟩ := not_or.mp isNew
    replace empty := not_ne_iff.mp empty
    have whole := getNumBlocksToAllocate_of_new unrecorded empty consistent takes within
    have nonnegative : 0 ≤ manager.missingAfter requestId blocks numLocal
        numExternal numTokens := by
      unfold missingAfter
      rw [if_neg unrecorded]
      exact le_max_right _ _
    have counted := takes.fits unrecorded
    rw [whole]
    push_cast
    omega

/-- The demand is what is withdrawn and what is missing afterwards. -/
theorem getNumBlocksToAllocate_eq_withdrawal
    (empty : requestId ∉ manager.numCachedBlock → manager.blocksOf requestId = [])
    (within : 0 < numExternal → numLocal + numExternal ≤ numTokens) :
    manager.getNumBlocksToAllocate pool requestId numTokens blocks (numLocal + numExternal) false =
      cost queue [manager.withdrawal requestId blocks numLocal numExternal] +
        manager.missingAfter requestId blocks numLocal numExternal numTokens := by
  rw [cost_cons, cost_nil]
  by_cases recorded : requestId ∈ manager.numCachedBlock
  · unfold withdrawal missingAfter
    rw [if_pos (.inl recorded), getNumBlocksToAllocate_of_recorded recorded, if_pos recorded]
    simp
  · have counted := takes.fits recorded
    rw [withdrawal_of_new recorded (empty recorded),
      getNumBlocksToAllocate_of_new recorded (empty recorded) consistent takes within]
    push_cast
    omega

end

theorem avoids_cacheBlocks (manager : SingleTypeKVCacheManager) (pool : BlockPool)
    (request : Request) (numTokens : Int) (alignmentTokens : Option Nat) :
    Avoids (· = .valueError) (manager.cacheBlocks pool request numTokens alignmentTokens) := by
  unfold cacheBlocks
  dsimp only
  split
  · exact .ok _
  · refine Avoids.bind ?_ fun _ _ => .ok _
    exact BlockPool.avoids_cacheFullBlocks _ _ _ _ _ _ _ _

end Demand

end SingleTypeKVCacheManager

namespace KVCacheCoordinator

section Withdraw

variable (requestId : RequestId) (blocks : KVCacheBlocks)
  (numLocalComputedTokens numExternalComputedTokens numTokens : Int)

/-- What a request withdraws in a group. -/
def withdrawalOf (entry : SingleTypeKVCacheManager × Nat) : List BlockId × Nat :=
  entry.1.withdrawal requestId (blocks.getD entry.2 []) numLocalComputedTokens
    numExternalComputedTokens

/-- What a request misses in a group after its withdrawal. -/
def missingAfterOf (entry : SingleTypeKVCacheManager × Nat) : Int :=
  entry.1.missingAfter requestId (blocks.getD entry.2 []) numLocalComputedTokens
    numExternalComputedTokens numTokens

/-- Some managers have withdrawn their blocks, and the queue holds what the others
need and some spare blocks. -/
structure Withdrawing (entries : List (SingleTypeKVCacheManager × Nat)) (numGpuBlocks : Nat)
    (spare missing : Int) (done : List SingleTypeKVCacheManager)
    (rest : List (SingleTypeKVCacheManager × Nat)) (pool : BlockPool) : Prop where
  size : pool.numGpuBlocks = numGpuBlocks
  queue : ∃ queue, Coherent (done ++ rest.map Prod.fst) pool queue ∧ Withdrawal.Admissible queue
      (rest.map (withdrawalOf requestId blocks numLocalComputedTokens numExternalComputedTokens)) ∧
    (queue.length : Int) = Withdrawal.cost queue
      (rest.map (withdrawalOf requestId blocks numLocalComputedTokens
        numExternalComputedTokens)) + spare
  missing :
    (done.map fun manager => manager.missingBlocks requestId numTokens).sum +
      (rest.map (missingAfterOf requestId blocks numLocalComputedTokens
        numExternalComputedTokens numTokens)).sum = missing
  remaining : ∀ entry ∈ rest, entry ∈ entries
  empty : ∀ entry ∈ entries,
    entry ∈ rest ∨ (requestId ∉ entry.1.numCachedBlock → entry.1.blocksOf requestId = [])

variable {requestId blocks numTokens}
  {entries : List (SingleTypeKVCacheManager × Nat)} {numGpuBlocks : Nat} {spare missing : Int}
  {done : List SingleTypeKVCacheManager} {rest : List (SingleTypeKVCacheManager × Nat)}
  {manager replaced : SingleTypeKVCacheManager} {index : Nat} {pool next : BlockPool}

theorem Withdrawing.step (withdrawing : Withdrawing requestId blocks numLocal numExternal
      numTokens entries numGpuBlocks spare missing done ((manager, index) :: rest) pool)
    (nonnegative : 0 ≤ spare)
    (takes : manager.TakesHits numGpuBlocks requestId (blocks.getD index []) numLocal numExternal) :
    Returns (· = .valueError) (fun result => Withdrawing requestId blocks numLocal
        numExternal numTokens entries numGpuBlocks spare missing (done ++ [result.1]) rest result.2)
      (manager.allocateNewComputedBlocks pool requestId (blocks.getD index [])
        numLocal numExternal) := by
  obtain ⟨queue, coherent, admissible, length⟩ := withdrawing.queue
  have missed := withdrawing.missing
  rw [map_cons] at admissible length coherent missed
  rw [sum_cons] at missed
  rw [← withdrawing.size] at takes
  have covered := admissible.count_le (by omega)
  refine ⟨coherent.owns.avoids_allocateNewComputedBlocks takes fun unrecorded empty => ?_,
    fun ⟨replaced, next⟩ returned => ?_⟩
  · simp only [withdrawalOf, withdrawal_of_new unrecorded empty] at covered
    dsimp only
    omega
  obtain ⟨queue', owns, shape, group, whenRecorded, whenNew⟩ :=
    coherent.owns.allocateNewComputedBlocks takes returned
  have replacedCoherent := coherent.replace owns
  have lengths := admissible.length_leftover (by omega)
  have emptied : requestId ∉ manager.numCachedBlock → manager.blocksOf requestId = [] :=
    fun unrecorded => (whenNew unrecorded).1
  -- The queue is what the withdrawal leaves, and the table what the prediction says.
  have taken : queue' = leftover queue
      (withdrawalOf requestId blocks numLocal numExternal (manager, index)) ∧
      replaced.missingBlocks requestId numTokens =
        missingAfterOf requestId blocks numLocal numExternal
          numTokens (manager, index) := by
    unfold withdrawalOf missingAfterOf missingAfter
    by_cases recorded : requestId ∈ manager.numCachedBlock
    · obtain ⟨rfl, rfl⟩ := whenRecorded recorded
      unfold withdrawal
      rw [if_pos (.inl recorded), if_pos recorded]
      exact ⟨rfl, rfl⟩
    · obtain ⟨empty, tableLength, rfl, -⟩ := whenNew recorded
      rw [withdrawal_of_new recorded empty, if_neg recorded]
      refine ⟨rfl, ?_⟩
      unfold missingBlocks blockSize
      rw [tableLength, group.kvCacheSpec]
  obtain ⟨rfl, missingEq⟩ := taken
  refine ⟨shape.numGpuBlocks.trans withdrawing.size, ⟨_, ?_, admissible.tail, by omega⟩, ?_, ?_, ?_⟩
  · rw [append_assoc]
    exact replacedCoherent
  · rw [map_append, map_singleton, sum_append, sum_singleton, missingEq]
    omega
  · exact fun entry mem => withdrawing.remaining entry (mem_cons_of_mem _ mem)
  · intro entry mem
    rcases withdrawing.empty entry mem with inRest | empty
    · rcases mem_cons.mp inRest with rfl | inRest
      · exact .inr emptied
      · exact .inl inRest
    · exact .inr empty

theorem allocateNewComputedBlocks_withdraws {coordinator : KVCacheCoordinator}
    (coherent : Coherent coordinator.singleTypeManagers coordinator.blockPool queue)
    (takes : ∀ entry ∈ coordinator.singleTypeManagers.zipIdx,
      entry.1.TakesHits coordinator.blockPool.numGpuBlocks requestId (blocks.getD entry.2 [])
        numLocal numExternal)
    (admissible : Withdrawal.Admissible queue (coordinator.singleTypeManagers.zipIdx.map
      (withdrawalOf requestId blocks numLocal numExternal)))
    (enough : Withdrawal.cost queue (coordinator.singleTypeManagers.zipIdx.map
      (withdrawalOf requestId blocks numLocal numExternal)) ≤ queue.length) (numTokens : Int) :
    Returns (· = .valueError) (fun next =>
        (∃ queue', Coherent next.singleTypeManagers next.blockPool queue' ∧
          queue'.length + Withdrawal.cost queue (coordinator.singleTypeManagers.zipIdx.map
            (withdrawalOf requestId blocks numLocal numExternal)) = queue.length) ∧
        (next.singleTypeManagers.map fun manager =>
            manager.missingBlocks requestId numTokens).sum =
          (coordinator.singleTypeManagers.zipIdx.map (missingAfterOf requestId blocks
            numLocal numExternal numTokens)).sum ∧ ∀ entry ∈ coordinator.singleTypeManagers.zipIdx,
          requestId ∉ entry.1.numCachedBlock → entry.1.blocksOf requestId = [])
      (coordinator.allocateNewComputedBlocks requestId blocks numLocal numExternal) := by
  set cost := cost queue (coordinator.singleTypeManagers.zipIdx.map
    (withdrawalOf requestId blocks numLocal numExternal))
  set missing := (coordinator.singleTypeManagers.zipIdx.map (missingAfterOf requestId blocks
    numLocal numExternal numTokens)).sum
  have spare : (0 : Int) ≤ queue.length - cost := by omega
  refine (eachManager_rule _ _ (Withdrawing requestId blocks numLocal numExternal numTokens
    coordinator.singleTypeManagers.zipIdx coordinator.blockPool.numGpuBlocks
    (queue.length - cost) missing) (fun done manager index rest pool withdrawing => ?_) []
    ?_).bind fun result finished => .ok ?_
  · have entry := withdrawing.remaining _ mem_cons_self
    exact (withdrawing.step spare (takes _ entry)).bind fun _ stepped => .ok stepped
  · refine ⟨rfl, ⟨queue, ?_, admissible, by omega⟩, zero_add _, fun _ => id, fun _ => .inl⟩
    rw [nil_append, zipIdx_map_fst]
    exact coherent
  · obtain ⟨-, ⟨queue', coherent', -, length⟩, missing, -, empty⟩ := finished
    rw [map_nil, append_nil] at coherent'
    rw [map_nil, cost_nil] at length
    refine ⟨⟨queue', coherent', by omega⟩, ?_, ?_⟩
    · rw [map_nil, sum_nil, add_zero] at missing
      exact missing
    · exact fun entry mem => (empty entry mem).resolve_left not_mem_nil

end Withdraw

section Complete

variable {requestId : RequestId} {numTokens : Int} {coordinator : KVCacheCoordinator}
  {queue : List BlockId}

/-- All managers take their missing blocks if there are enough. -/
theorem allocateNewBlocks_takes
    (coherent : Coherent coordinator.singleTypeManagers coordinator.blockPool queue)
    (enough : (coordinator.singleTypeManagers.map fun manager =>
      manager.missingBlocks requestId numTokens).sum ≤ queue.length) :
    Returns (· = .valueError) (fun result => ∃ queue',
        Coherent result.2.singleTypeManagers result.2.blockPool queue' ∧
          (queue'.length : Int) + (coordinator.singleTypeManagers.map fun manager =>
            manager.missingBlocks requestId numTokens).sum = queue.length)
      (coordinator.allocateNewBlocks requestId numTokens) := by
  set spare : Int := queue.length - (coordinator.singleTypeManagers.map fun manager =>
    manager.missingBlocks requestId numTokens).sum with spareEq
  refine (eachManager_rule _ _
    (fun done rest pool => ∃ queue', Coherent (done ++ rest.map Prod.fst) pool queue' ∧
      (queue'.length : Int) = ((rest.map Prod.fst).map fun manager =>
          manager.missingBlocks requestId numTokens).sum + spare)
    ?_ [] ?_).bind fun result finished => .ok ?_
  · rintro done manager index rest pool ⟨between, coherent', length⟩
    rw [map_cons] at coherent' length
    rw [map_cons, sum_cons] at length
    have others : 0 ≤ ((rest.map Prod.fst).map fun manager =>
        manager.missingBlocks requestId numTokens).sum := by
      refine sum_nonneg fun count mem => ?_
      obtain ⟨_, -, rfl⟩ := mem_map.mp mem
      exact le_max_right _ _
    refine ⟨coherent'.owns.avoids_allocateNewBlocks (by omega), ?_⟩
    rintro ⟨result, replaced, next⟩ stepped
    obtain ⟨owns, available, -⟩ := coherent'.owns.allocateNewBlocks stepped
    refine ⟨between.drop (manager.missingBlocks requestId numTokens).toNat, ?_, ?_⟩
    · rw [append_assoc]
      exact coherent'.replace owns
    · have own : 0 ≤ manager.missingBlocks requestId numTokens := le_max_right _ _
      dsimp only at length available
      rw [length_drop]
      omega
  · rw [nil_append, zipIdx_map_fst]
    exact ⟨queue, coherent, by omega⟩
  · obtain ⟨queue', coherent', length⟩ := finished
    rw [map_nil, append_nil] at coherent'
    rw [map_nil, map_nil, sum_nil] at length
    exact ⟨queue', coherent', by omega⟩

theorem cacheBlocks_keeps_queue
    (coherent : Coherent coordinator.singleTypeManagers coordinator.blockPool queue)
    (request : Request) (numComputed : Int) :
    Returns (· = .valueError)
      (fun next : KVCacheCoordinator => Coherent next.singleTypeManagers next.blockPool queue)
      (coordinator.cacheBlocks request numComputed) := by
  refine (eachManager_rule _ _
    (fun done rest pool => Coherent (done ++ rest.map Prod.fst) pool queue) ?_ []
    ?_).bind fun result finished => .ok ?_
  · intro done manager index rest pool coherent
    refine Returns.bind ⟨manager.avoids_cacheBlocks pool request _ _, fun _ => id⟩
      fun _ stored => .ok ?_
    rw [append_assoc]
    exact coherent.replace (coherent.owns.cacheBlocks stored).1
  · rw [nil_append, zipIdx_map_fst]
    exact coherent
  · rw [map_nil, append_nil] at finished
    exact finished

end Complete

end KVCacheCoordinator

namespace NativeKVCacheManager

section

variable (manager : NativeKVCacheManager)

/-- Whether an allocation brings hits or external tokens. -/
def addsComputed (arguments : AllocateArguments) : Bool :=
  (manager.computedBlocks arguments).any (fun group => !group.isEmpty) ||
    decide (arguments.numExternalComputedTokens > 0)

/-- What an allocation withdraws for its computed tokens. -/
def withdrawals (request : Request) (arguments : AllocateArguments) : List (List BlockId × Nat) :=
  manager.coordinator.singleTypeManagers.zipIdx.map
    (KVCacheCoordinator.withdrawalOf request.requestId (manager.computedBlocks arguments)
      (request.numComputedTokens + arguments.numNewComputedTokens)
      arguments.numExternalComputedTokens)

/-- In every group that has not recorded the request, its table reaches to the
attention window, or has all slots already. -/
def Covers (request : Request) (arguments : AllocateArguments) : Prop :=
  ∀ group ∈ manager.coordinator.singleTypeManagers, request.requestId ∉ group.numCachedBlock →
    group.skippedBlocks (totalComputedTokens request arguments) ≤
        (group.blocksOf request.requestId).length ∨
      cdiv (manager.slotTokens request arguments) group.blockSize ≤
        (group.blocksOf request.requestId).length

/-- The external tokens of an allocation lie within its slots, no hits are longer
than the computed tokens, external tokens take no hit of a later group from the free
queue, and a request without hits has its blocks. -/
def Predictable (request : Request) (arguments : AllocateArguments) : Prop :=
  manager.HitsFit request arguments ∧ (0 < arguments.numExternalComputedTokens →
      totalComputedTokens request arguments ≤ manager.slotTokens request arguments) ∧
    Withdrawal.Spared (manager.coordinator.blockPool.freeBlockQueue.getAllFreeBlocks
        manager.coordinator.blockPool.numGpuBlocks) (manager.withdrawals request arguments) ∧
    (manager.addsComputed arguments = false → manager.Covers request arguments)

end

instance (manager : NativeKVCacheManager) (request : Request) (arguments : AllocateArguments) :
    Decidable (manager.Predictable request arguments) := by
  unfold Predictable Covers
  infer_instance

section Slots

variable {manager : NativeKVCacheManager} {request : Request} {arguments : AllocateArguments}
  {queue : List BlockId}

/-- The demand without hits and external tokens is what the groups miss. -/
theorem slotDemand_of_covers (noHits : manager.addsComputed arguments = false)
    (covers : manager.Covers request arguments) :
    manager.slotDemand request arguments = (manager.coordinator.singleTypeManagers.map fun group =>
        group.missingBlocks request.requestId (manager.slotTokens request arguments)).sum := by
  have empty : ∀ index, (manager.computedBlocks arguments).getD index [] = [] := by
    intro index
    rw [List.getD_eq_getElem?_getD]
    cases found : (manager.computedBlocks arguments)[index]? with
    | none => rfl
    | some blocks =>
      have noBlocks := (or_eq_false_iff.mp noHits).1
      rw [List.any_eq_false] at noBlocks
      have isEmpty := noBlocks blocks (List.mem_of_getElem? found)
      rw [not_eq_true, not_eq_false', List.isEmpty_iff] at isEmpty
      exact isEmpty
  unfold slotDemand KVCacheCoordinator.getNumBlocksToAllocate
  have each : ∀ entry ∈ manager.coordinator.singleTypeManagers.zipIdx,
      entry.1.getNumBlocksToAllocate manager.coordinator.blockPool request.requestId
        (manager.slotTokens request arguments)
        ((manager.computedBlocks arguments).getD entry.2 [])
        (totalComputedTokens request arguments) false =
      entry.1.missingBlocks request.requestId (manager.slotTokens request arguments) := by
    intro entry mem
    rw [empty]
    by_cases recorded : request.requestId ∈ entry.1.numCachedBlock
    · exact getNumBlocksToAllocate_of_recorded recorded _
    · exact getNumBlocksToAllocate_of_covered recorded
        (covers entry.1 (List.fst_mem_of_mem_zipIdx mem) recorded)
  rw [List.map_congr_left each]
  conv_rhs => rw [← manager.coordinator.singleTypeManagers.zipIdx_map_fst 0, List.map_map]
  rfl

/-- The hits of an allocation are distinct blocks, each in one group. -/
structure HitsDistinct (manager : NativeKVCacheManager) (arguments : AllocateArguments) : Prop where
  inPool : ∀ index, ∀ block ∈ (manager.computedBlocks arguments).getD index [],
    block ≠ nullBlock → block < manager.coordinator.blockPool.numGpuBlocks
  nodup : ∀ index, (nonNull ((manager.computedBlocks arguments).getD index [])).Nodup
  disjoint : ∀ first second, first ≠ second →
    ∀ block ∈ (manager.computedBlocks arguments).getD first [],
      block ∈ (manager.computedBlocks arguments).getD second [] → block = nullBlock

variable (distinct : manager.HitsDistinct arguments)

include distinct in
theorem HitsDistinct.takesHits (fits : manager.HitsFit request arguments) :
    manager.TakesHits manager.coordinator.blockPool.numGpuBlocks request arguments :=
  fun entry mem => ⟨distinct.inPool entry.2, distinct.nodup entry.2, fits entry mem⟩

/-- Each withdrawal names hits of its group. -/
theorem withdrawalOf_subset (entry : SingleTypeKVCacheManager × Nat) :
    ((KVCacheCoordinator.withdrawalOf requestId blocks numLocal
      numExternal entry).1).Sublist (blocks.getD entry.2 []) := by
  unfold withdrawalOf withdrawal
  split
  · exact nil_sublist _
  · exact drop_sublist _ _

variable
  (coherent : Coherent manager.coordinator.singleTypeManagers manager.coordinator.blockPool queue)

include coherent distinct in
/-- What an allocation withdraws is admissible. -/
theorem HitsDistinct.admissible
    (spared : Withdrawal.Spared queue (manager.withdrawals request arguments)) :
    Withdrawal.Admissible queue (manager.withdrawals request arguments) := by
  have nonNull : ∀ block ∈ queue, block ≠ nullBlock := fun block mem =>
    ((coherent.pool.mem_free block).mp mem).1
  refine ⟨coherent.pool.queue.links.nodup, ?_, ?_, spared⟩
  · intro withdrawal mem block free
    obtain ⟨entry, -, rfl⟩ := mem_map.mp mem
    refine Nat.le_trans ((withdrawalOf_subset entry).count_le block) ?_
    exact nonNull_nodup_iff.mp (distinct.nodup entry.2) block (nonNull block free)
  · refine pairwise_map.mpr ?_
    have indices : (manager.coordinator.singleTypeManagers.zipIdx.map Prod.snd).Nodup := by
      rw [zipIdx_map_snd]
      exact nodup_range'
    refine (pairwise_map.mp indices).imp ?_
    intro first second different block free inFirst inSecond
    exact nonNull block free (distinct.disjoint first.2 second.2 different block
      ((withdrawalOf_subset first).subset inFirst) ((withdrawalOf_subset second).subset inSecond))

/-- The cost of the withdrawals as a sum over the groups. -/
theorem cost_withdrawals (queue : List BlockId) :
    (Withdrawal.cost queue (manager.withdrawals request arguments) : Int) =
      (manager.coordinator.singleTypeManagers.zipIdx.map fun entry =>
        (cost queue [KVCacheCoordinator.withdrawalOf request.requestId
          (manager.computedBlocks arguments)
          (request.numComputedTokens + arguments.numNewComputedTokens)
          arguments.numExternalComputedTokens entry] : Int)).sum := by
  unfold cost withdrawals
  rw [map_map, Nat.cast_list_sum, map_map]
  rfl

section

variable (takes : manager.TakesHits manager.coordinator.blockPool.numGpuBlocks request arguments)
  (within : 0 < arguments.numExternalComputedTokens → totalComputedTokens request arguments ≤
    manager.slotTokens request arguments)

include coherent takes within

theorem cost_le_slotDemand :
    (Withdrawal.cost queue (manager.withdrawals request arguments) : Int) ≤
      manager.slotDemand request arguments := by
  rw [cost_withdrawals]
  refine sum_le_sum fun entry mem => ?_
  exact withdrawal_le_getNumBlocksToAllocate coherent.pool (takes entry mem) within

/-- The demand is what is withdrawn and what is missing then. -/
theorem slotDemand_eq_cost_add (empty : ∀ entry ∈ manager.coordinator.singleTypeManagers.zipIdx,
      request.requestId ∉ entry.1.numCachedBlock → entry.1.blocksOf request.requestId = []) :
    manager.slotDemand request arguments =
      Withdrawal.cost queue (manager.withdrawals request arguments) +
        (manager.coordinator.singleTypeManagers.zipIdx.map
          (KVCacheCoordinator.missingAfterOf request.requestId (manager.computedBlocks arguments)
            (request.numComputedTokens + arguments.numNewComputedTokens)
            arguments.numExternalComputedTokens (manager.slotTokens request arguments))).sum := by
  rw [cost_withdrawals, ← sum_map_add]
  unfold slotDemand KVCacheCoordinator.getNumBlocksToAllocate
  refine congrArg sum (map_congr_left fun entry mem => ?_)
  exact getNumBlocksToAllocate_eq_withdrawal coherent.pool
    (takes entry mem) (empty entry mem) within

end

include distinct coherent in
/-- Adding computed blocks leaves enough blocks for what is missing then. -/
theorem addComputedBlocks_predicts (predictable : manager.Predictable request arguments)
    (enough : manager.slotDemand request arguments ≤ queue.length) :
    Returns (· = .valueError)
      (fun next => ∃ queue', Coherent next.singleTypeManagers next.blockPool queue' ∧
        (queue'.length : Int) - (next.singleTypeManagers.map fun group =>
          group.missingBlocks request.requestId (manager.slotTokens request arguments)).sum =
            queue.length - manager.slotDemand request arguments)
      (manager.addComputedBlocks request arguments) := by
  obtain ⟨fits, within, spared, covers⟩ := predictable
  rw [getAllFreeBlocks_eq coherent.pool.queue fun block mem =>
    ((coherent.pool.mem_free block).mp mem).2.1] at spared
  unfold addComputedBlocks
  dsimp only
  split
  · have takes := distinct.takesHits fits
    have cost := cost_le_slotDemand coherent takes within
    unfold withdrawals at cost
    refine (allocateNewComputedBlocks_withdraws coherent takes
      (distinct.admissible coherent spared) (by omega)
      (manager.slotTokens request arguments)).imp fun next finished => ?_
    obtain ⟨⟨queue', coherent', length⟩, missing, empty⟩ := finished
    have demand := slotDemand_eq_cost_add coherent takes within empty
    refine ⟨queue', coherent', ?_⟩
    rw [missing, demand]
    unfold withdrawals
    omega
  · next none =>
    rw [slotDemand_of_covers (not_eq_true _ ▸ none) (covers (not_eq_true _ ▸ none))]
    exact .ok ⟨queue, coherent, rfl⟩

include coherent in
theorem cacheBlocks_keeps_queue (numComputed : Int) :
    Returns (· = .valueError)
      (fun next : NativeKVCacheManager => next.getNumFreeBlocks = (queue.length : Int))
      (manager.cacheBlocks request numComputed) := by
  unfold NativeKVCacheManager.cacheBlocks
  split
  · exact (KVCacheCoordinator.cacheBlocks_keeps_queue coherent request _).bind
      fun _ kept => .ok kept.pool.queue.count
  · exact .ok coherent.pool.queue.count

include distinct coherent in
/-- Taking the slots of an allocation needs exactly the predicted blocks. -/
theorem takeSlots_predicts (predictable : manager.Predictable request arguments)
    (enough : manager.slotDemand request arguments ≤ manager.getNumFreeBlocks) :
    Returns (· = .valueError) (fun result => result.2.getNumFreeBlocks =
        manager.getNumFreeBlocks - manager.slotDemand request arguments)
      (manager.takeSlots request arguments) := by
  have count : manager.getNumFreeBlocks = queue.length := coherent.pool.queue.count
  rw [count] at enough ⊢
  refine (addComputedBlocks_predicts distinct coherent predictable enough).bind
    fun coordinator ⟨queue', coherent', balance⟩ => ?_
  refine (allocateNewBlocks_takes coherent' (by omega)).bind
    fun ⟨newBlocks, allocated⟩ ⟨queue'', coherent'', length⟩ => ?_
  have allocatedCount : (queue''.length : Int) =
      queue.length - manager.slotDemand request arguments := by
    omega
  rw [← allocatedCount]
  dsimp only
  split
  · exact .ok coherent''.pool.queue.count
  · refine Returns.bind (cacheBlocks_keeps_queue ?_ _) fun _ kept => .ok kept
    exact coherent''

/-- Only taking slots can run out of blocks. -/
theorem allocateSlots_eq_valueError
    (failed : manager.allocateSlots request arguments = .error .valueError) :
    (arguments.numNewTokens = 0 ∧ arguments.numExternalComputedTokens = 0) ∨
      ((manager.trimmed request arguments).slotDemand request arguments ≤
          (manager.trimmed request arguments).getNumFreeBlocks ∧
        (manager.trimmed request arguments).takeSlots request arguments = .error .valueError) := by
  unfold allocateSlots at failed
  split at failed
  · next nothing => exact .inl nothing
  · rcases bind_eq_error.mp failed with refused | ⟨_, -, failed⟩
    · exact absurd rfl (Avoids.ensure nofun _ refused)
    · split at failed
      · cases failed
      · dsimp only at failed
        split at failed
        · cases failed
        · next enough =>
          rcases bind_eq_error.mp failed with failed | ⟨_, -, failed⟩
          · exact .inr ⟨not_lt.mp enough, failed⟩
          · cases failed

variable {numGpuBlocks : Nat}

include distinct in
theorem HitsDistinct.trimmed (valid : manager.Valid numGpuBlocks) :
    (manager.trimmed request arguments).HitsDistinct arguments := by
  have trimmedValid : (manager.trimmed request arguments).Valid numGpuBlocks :=
    valid.removeSkippedBlocks _ _
  obtain ⟨inPool, nodup, disjoint⟩ := distinct
  simp only [computedBlocks_getD] at inPool nodup disjoint
  refine ⟨?_, ?_, ?_⟩ <;> simp only [computedBlocks_getD]
  · rw [trimmedValid.size, ← valid.size]
    exact inPool
  · exact nodup
  · exact disjoint

include distinct in
/-- A granted allocation takes exactly the predicted blocks. -/
theorem Valid.allocateSlots_predicts (valid : manager.Valid numGpuBlocks)
    (predictable : (manager.trimmed request arguments).Predictable request arguments) :
    (∀ blocks next, manager.allocateSlots request arguments = .ok (some blocks, next) →
      next.getNumFreeBlocks = (manager.trimmed request arguments).getNumFreeBlocks -
        (manager.trimmed request arguments).slotDemand request arguments) ∧
    (manager.allocateSlots request arguments = .error .valueError →
      arguments.numNewTokens = 0 ∧ arguments.numExternalComputedTokens = 0) := by
  have trimmedValid : (manager.trimmed request arguments).Valid numGpuBlocks :=
    valid.removeSkippedBlocks _ _
  obtain ⟨queue, coherent⟩ := trimmedValid.coherent
  have trimmedDistinct : (manager.trimmed request arguments).HitsDistinct arguments :=
    distinct.trimmed valid
  refine ⟨fun blocks next returned => ?_, fun failed => ?_⟩
  · obtain ⟨granted, taken⟩ := allocateSlots_eq_some returned
    have enough := not_lt.mp (not_or.mp granted).2
    exact (takeSlots_predicts trimmedDistinct coherent predictable enough).good _ taken
  · rcases allocateSlots_eq_valueError failed with nothing | ⟨enough, failed⟩
    · exact nothing
    · exact absurd rfl
        ((takeSlots_predicts trimmedDistinct coherent predictable enough).avoids _ failed)

end Slots

end NativeKVCacheManager

namespace ManagerOperation

/-- The hits of an allocation are distinct blocks, each in one group. -/
theorem hitsDistinct_allocateArguments {manager : NativeKVCacheManager}
    (valid : manager.Valid numGpuBlocks) {request : Request} (arguments : AllocateArguments)
    {lookup : Bool} (distinct : lookup = true → request.blockHashes.Nodup) :
    manager.HitsDistinct (allocateArguments manager request arguments lookup) := by
  have hits := hits_allocateArguments valid arguments distinct
  refine ⟨?_, fun index => (hits index).2, ?_⟩
  · rw [valid.size]
    exact fun index => (hits index).1
  · intro first second different block
    rw [NativeKVCacheManager.computedBlocks_getD, NativeKVCacheManager.computedBlocks_getD]
    cases lookup with
    | true => exact valid.hits_disjoint different
    | false => exact nofun

/-- In every state that a run of operations whose hits fit reaches, an allocation whose
prediction is not overtaken takes exactly the blocks it predicts and never runs out of blocks,
and an allocation that is refused releases skipped blocks at most. -/
theorem allocateSlots_predicts_of_run
    (specs : List KVCacheSpec) (numGpuBlocks hashBlockSize maxModelLen maxNumBatchedTokens : Nat)
    (enableCaching useEagle : Bool) (flaggedEagleGroupIds : List Nat) (positive : 0 < numGpuBlocks)
    (operations : List ManagerOperation) (manager : NativeKVCacheManager)
    (along : Machine.Along apply Fits
      (.init specs numGpuBlocks hashBlockSize maxModelLen maxNumBatchedTokens enableCaching
        useEagle flaggedEagleGroupIds) operations)
    (reached : Machine.run apply
      (.init specs numGpuBlocks hashBlockSize maxModelLen maxNumBatchedTokens enableCaching
        useEagle flaggedEagleGroupIds) operations = .ok manager)
    (request : Request) (arguments : AllocateArguments) (lookup : Bool) :
    let hits := allocateArguments manager request arguments lookup
    let trimmed := manager.trimmed request hits
    ((lookup = true → request.blockHashes.Nodup) → trimmed.Predictable request hits →
      (∀ blocks next, manager.allocateSlots request hits = .ok (some blocks, next) →
        next.getNumFreeBlocks = trimmed.getNumFreeBlocks - trimmed.slotDemand request hits) ∧
      (manager.allocateSlots request hits = .error .valueError →
        arguments.numNewTokens = 0 ∧ arguments.numExternalComputedTokens = 0)) ∧
    ∀ next, manager.allocateSlots request hits = .ok (none, next) →
      next = manager ∨ next = trimmed := by
  have valid := valid_of_run specs hashBlockSize maxModelLen maxNumBatchedTokens enableCaching
    useEagle flaggedEagleGroupIds positive along reached
  refine ⟨fun distinct predictable => ?_,
    fun next => NativeKVCacheManager.allocateSlots_eq_none⟩
  obtain ⟨granted, failed⟩ := valid.allocateSlots_predicts
    (hitsDistinct_allocateArguments valid arguments distinct) predictable
  refine ⟨granted, fun valueError => ?_⟩
  cases lookup with
  | true | false => exact failed valueError

section OvertakenHit

/-- Full attention and a sliding window of nine tokens on six usable blocks. -/
def sixBlocks : NativeKVCacheManager :=
  .init [{ kind := .fullAttention, blockSize := 2 }, { kind := .slidingWindow 9, blockSize := 2 }]
    7 2 64 64 true false []

/-- Two requests are computed and freed; the blocks of the first are the oldest. -/
def freedRun : List ManagerOperation :=
  [.allocateSlots (hashedRequest 1 3 100) { numNewTokens := 2 } true,
    .allocateSlots (hashedRequest 3 4 500) { numNewTokens := 4 } true, .free 1, .free 3]

/-- The arguments of a request with the hash of the first one. -/
def hitArguments (numExternalComputedTokens : Int) : AllocateArguments :=
  { numNewTokens := 1, numExternalComputedTokens := numExternalComputedTokens }

/-- Free blocks after the run, the prediction for the next request, and the free
blocks after its allocation. -/
def predictedAndTaken (numExternalComputedTokens : Int) : Option (Int × Int × Int) := do
  let manager ← (Machine.run apply sixBlocks freedRun).toOption
  let hits := allocateArguments manager (hashedRequest 2 7 100)
    (hitArguments numExternalComputedTokens) true
  let (some _, next) ← (manager.allocateSlots (hashedRequest 2 7 100) hits).toOption | none
  let trimmed := manager.trimmed (hashedRequest 2 7 100) hits
  return (trimmed.getNumFreeBlocks, trimmed.slotDemand (hashedRequest 2 7 100) hits,
    next.getNumFreeBlocks)

/-- The external block of the full attention group is the hit of the sliding window
group, so six blocks are predicted and five are taken. -/
theorem external_block_overtakes_hit :
    ∃ free predicted left, predictedAndTaken 2 = some (free, predicted, left) ∧
      left ≠ free - predicted :=
  ⟨6, 6, 1, by decide +kernel, by decide⟩

/-- Without external tokens the prediction is exact. -/
theorem freedRun_predicts :
    predictedAndTaken 0 = some (6, 4, 2) ∧
    ∀ manager, Machine.run apply sixBlocks freedRun = .ok manager →
      let hits := allocateArguments manager (hashedRequest 2 7 100) (hitArguments 0) true
      let trimmed := manager.trimmed (hashedRequest 2 7 100) hits
      ∀ blocks next, manager.allocateSlots (hashedRequest 2 7 100) hits = .ok (some blocks, next) →
        next.getNumFreeBlocks =
          trimmed.getNumFreeBlocks - trimmed.slotDemand (hashedRequest 2 7 100) hits := by
  refine ⟨by decide +kernel, fun manager reached => ?_⟩
  have predictable : ((Machine.run apply sixBlocks freedRun).toOption.map fun manager =>
      decide ((manager.trimmed (hashedRequest 2 7 100)
        (allocateArguments manager (hashedRequest 2 7 100) (hitArguments 0) true)).Predictable
          (hashedRequest 2 7 100)
          (allocateArguments manager (hashedRequest 2 7 100) (hitArguments 0) true))) =
      some true := by
    decide +kernel
  rw [reached] at predictable
  exact ((allocateSlots_predicts_of_run _ 7 2 64 64 true false [] (by decide) freedRun manager
    (Machine.along_of_checkAlong apply (by decide +kernel)) reached (hashedRequest 2 7 100)
    (hitArguments 0) true).1 (fun _ => by decide)
      (of_decide_eq_true (Option.some.inj predictable))).1

end OvertakenHit

end ManagerOperation

end TokenCake
