import TokenCake.KVCache.AdmissionCap

/-!
# How the table of a request grows

A request takes blocks for its tokens and gives blocks in front of the window back, and
null blocks keep their places.  So over any run the blocks it holds grow by no more
than the slots of its table.
-/

namespace TokenCake

open SingleTypeKVCacheManager KVCacheCoordinator
open List hiding after

theorem length_nonNull_le (blocks : List BlockId) : (nonNull blocks).length ≤ blocks.length :=
  length_filter_le _ _

/-- A table that grew from an earlier one in calls that end within a number of blocks.
`kept` says that the request was not freed in between. -/
structure Grown (kept : Prop) (limit : Int) (base table : List BlockId) : Prop where
  bounded : ((nonNull table).length : Int) ≤ max (base.length : Int) limit
  longer : kept → base.length ≤ table.length
  taken : kept → (nonNull table).length + base.length ≤ (nonNull base).length + table.length
  held : kept → ((nonNull table).length : Int) ≤ (nonNull base).length + max 0 (limit - base.length)

variable {blocks : List BlockId} {skipped : Nat}

namespace Grown

variable {kept : Prop} {limit : Int} {base table : List BlockId}

theorem refl (kept : Prop) (limit : Int) (table : List BlockId) : Grown kept limit table table := by
  have short := length_nonNull_le table
  exact ⟨by omega, fun _ => le_rfl, fun _ => le_rfl, fun _ => by omega⟩

/-- Blocks are given back. -/
theorem trim (grown : Grown kept limit base table) {trimmed : List BlockId}
    (length : trimmed.length = table.length)
    (fewer : (nonNull trimmed).length ≤ (nonNull table).length) :
    Grown kept limit base trimmed := by
  obtain ⟨bounded, longer, taken, held⟩ := grown
  refine ⟨by omega, fun isKept => ?_, fun isKept => ?_, fun isKept => ?_⟩
  · rw [length]
    exact longer isKept
  · have before := taken isKept
    omega
  · have before := held isKept
    omega

variable {need : Int}

/-- The blocks of slots that the table does not have yet. -/
theorem append (grown : Grown kept limit base table)
    (noNull : nullBlock ∉ blocks) (count : (blocks.length : Int) ≤ max (need - table.length) 0)
    (fits : need ≤ limit) : Grown kept limit base (table ++ blocks) := by
  obtain ⟨bounded, longer, taken, held⟩ := grown
  have short := length_nonNull_le table
  have total : (nonNull (table ++ blocks)).length = (nonNull table).length + blocks.length := by
    rw [nonNull_append, nonNull_eq_self noNull, length_append]
  refine ⟨?_, fun isKept => ?_, fun isKept => ?_, fun isKept => ?_⟩
  · rw [total]
    omega
  · have before := longer isKept
    rw [length_append]
    omega
  · have before := taken isKept
    rw [total, length_append]
    omega
  · have before := taken isKept
    have bound := held isKept
    rw [total]
    omega

/-- The table of a request that had none. -/
theorem start (grown : Grown kept limit base [])
    (behind : (nonNull table).length + skipped ≤ table.length)
    (length : (table.length : Int) ≤ max (skipped : Int) need)
    (fits : need ≤ limit) : Grown kept limit base table := by
  refine ⟨by omega, fun isKept => ?_, fun isKept => ?_, fun isKept => ?_⟩ <;>
  · have empty : base.length = 0 := Nat.le_zero.mp (grown.longer isKept)
    omega

/-- A freed request has an empty table. -/
theorem free (freed : ¬ kept) : Grown kept limit base [] :=
  ⟨by simp [nonNull], fun isKept => absurd isKept freed, fun isKept => absurd isKept freed,
    fun isKept => absurd isKept freed⟩

end Grown

namespace SingleTypeKVCacheManager

/-- Trimming keeps the length of a table and adds no blocks. -/
theorem length_trimmedTable (blocks : List BlockId) (within : skipped ≤ blocks.length) :
    (trimmedTable blocks skipped).length = blocks.length ∧
      (nonNull (trimmedTable blocks skipped)).length ≤ (nonNull blocks).length := by
  have run : (skippedRun blocks skipped).length ≤ skipped := by
    unfold skippedRun
    have short := (takeWhile_sublist (fun block => !decide (block = nullBlock))
      (l := (blocks.take skipped).reverse)).length_le
    rw [length_reverse, length_take] at short
    omega
  have front : (nonNull (blocks.take (skipped - (skippedRun blocks skipped).length))).length ≤
      (nonNull (blocks.take skipped)).length :=
    ((take_sublist_take_left (Nat.sub_le _ _)).filter _).length_le
  have whole := congrArg (fun table => (nonNull table).length) (take_append_drop skipped blocks)
  rw [nonNull_append, length_append] at whole
  unfold trimmedTable
  rw [nonNull_append, nonNull_append, nonNull_replicate, append_nil, length_append,
    length_append, length_append, length_replicate, length_take,
    length_drop]
  omega

/-- The table of a request in a group changes as calls within a number of tokens change
it. -/
structure Extends (kept : Prop) (numTokens : Int) (requestId : RequestId)
    (group changed : SingleTypeKVCacheManager) : Prop where
  same : SameGroup group changed
  grown : ∀ base, Grown kept (cdiv numTokens group.blockSize) base (group.blocksOf requestId) →
    Grown kept (cdiv numTokens group.blockSize) base (changed.blocksOf requestId)

namespace Extends

variable {kept : Prop} {numTokens : Int} {id other : RequestId}
  {group changed last : SingleTypeKVCacheManager} {pool next : BlockPool}

theorem of_blocksOf_eq (same : SameGroup group changed)
    (table : changed.blocksOf id = group.blocksOf id) :
    Extends kept numTokens id group changed := by
  refine ⟨same, fun base grown => ?_⟩
  rw [table]
  exact grown

theorem refl (group : SingleTypeKVCacheManager) : Extends kept numTokens id group group :=
  of_blocksOf_eq (.refl _) rfl

theorem trans (first : Extends kept numTokens id group changed)
    (second : Extends kept numTokens id changed last) : Extends kept numTokens id group last := by
  refine ⟨first.same.trans second.same, fun base grown => ?_⟩
  have later := second.grown base
  unfold blockSize at later
  rw [first.same.kvCacheSpec] at later
  exact later (first.grown base grown)

theorem removeSkippedBlocks
    (group : SingleTypeKVCacheManager) (pool : BlockPool) (other : RequestId) (total : Int) :
    Extends kept numTokens id group (group.removeSkippedBlocks pool other total).1 := by
  have same := (group.removeSkippedBlocks_sameGroup pool other total).1
  obtain ⟨table, others⟩ := group.blocksOf_removeSkippedBlocks pool other total
  by_cases isRequest : id = other
  · subst isRequest
    refine ⟨same, fun base grown => ?_⟩
    obtain ⟨length, fewer⟩ := length_trimmedTable (group.blocksOf id)
      (Nat.min_le_right (group.skippedBlocks total) _)
    rw [table]
    exact grown.trim length fewer
  · exact of_blocksOf_eq same (others id isRequest)

theorem free (group : SingleTypeKVCacheManager) (pool : BlockPool) (mayFree : kept → id ≠ other) :
    Extends kept numTokens id group (group.free pool other).1 := by
  refine ⟨⟨rfl, rfl, rfl, rfl⟩, fun base grown => ?_⟩
  rw [blocksOf_free]
  split
  · next isRequest => exact .free fun isKept => mayFree isKept isRequest
  · exact grown

section Ownership

variable {queue : List BlockId} {others : BlockId → Nat}

theorem allocateNewComputedBlocks (owns : group.Owns pool queue others)
    {hits : List BlockId} {numLocal numExternal : Int}
    (takes : group.TakesHits pool.numGpuBlocks other hits numLocal numExternal)
    (within : id = other → numLocal + numExternal ≤ numTokens ∧ (hits.length : Int) ≤
          cdiv (numLocal + numExternal) group.blockSize)
    (returned : group.allocateNewComputedBlocks pool other hits numLocal
      numExternal = .ok (changed, next)) : Extends kept numTokens id group changed := by
  obtain ⟨_, -, -, same, whenRecorded, whenNew⟩ := owns.allocateNewComputedBlocks takes returned
  by_cases isRequest : id = other
  · subst isRequest
    by_cases recorded : id ∈ group.numCachedBlock
    · obtain ⟨rfl, -⟩ := whenRecorded recorded
      exact refl changed
    · obtain ⟨inside, short⟩ := within rfl
      obtain ⟨-, behind, length⟩ := owns.newTable takes returned recorded short
      refine ⟨same, fun base grown => ?_⟩
      rw [(whenNew recorded).1] at grown
      exact grown.start behind length (cdiv_le_cdiv inside _)
  · exact of_blocksOf_eq same (blocksOf_allocateNewComputedBlocks_of_ne returned isRequest)

theorem allocateNewBlocks (owns : group.Owns pool queue others) {slots : Int}
    (within : id = other → slots ≤ numTokens)
    (returned : group.allocateNewBlocks pool other slots = .ok (blocks, changed, next)) :
    Extends kept numTokens id group changed := by
  obtain ⟨-, -, table, taken, -, same⟩ := owns.allocateNewBlocks returned
  by_cases isRequest : id = other
  · subst isRequest
    have noNull : nullBlock ∉ blocks := by
      rw [taken]
      exact fun mem => owns.nullBlock_notMem (mem_of_mem_take mem)
    have count := congrArg length taken
    rw [length_take] at count
    unfold missingBlocks at count
    refine ⟨same, fun base grown => ?_⟩
    rw [table]
    exact grown.append noNull (by omega) (cdiv_le_cdiv (within rfl) _)
  · exact of_blocksOf_eq same (blocksOf_allocateNewBlocks_of_ne returned isRequest)

end Ownership

end Extends

end SingleTypeKVCacheManager

theorem forall₂_trans (first : List.Forall₂ relation before between)
    (second : List.Forall₂ relation between after) (transitive : ∀ left middle right,
      relation left middle → relation middle right → relation left right) :
    List.Forall₂ relation before after := by
  induction first generalizing after with
  | nil => exact second
  | cons head tail ih =>
    cases second with
    | cons head' tail' => exact .cons (transitive _ _ _ head head') (ih tail')

namespace NativeKVCacheManager

/-- The tables of a request change as calls within a number of tokens change them. -/
def ExtendsTables (kept : Prop) (numTokens : Int) (requestId : RequestId)
    (manager next : NativeKVCacheManager) : Prop :=
  List.Forall₂ (SingleTypeKVCacheManager.Extends kept numTokens requestId)
    manager.coordinator.singleTypeManagers next.coordinator.singleTypeManagers

/-- A call whose hits and slots end within a number of tokens. -/
def EndsWithin (numTokens : Int) (manager : NativeKVCacheManager) (request : Request)
    (arguments : AllocateArguments) : Prop :=
  0 ≤ arguments.numNewTokens ∧
  totalComputedTokens request arguments + arguments.numNewTokens + arguments.numLookaheadTokens ≤
    numTokens ∧
  ∀ entry ∈ manager.coordinator.singleTypeManagers.zipIdx,
    (((manager.computedBlocks arguments).getD entry.2 []).length : Int) ≤
      cdiv (totalComputedTokens request arguments) entry.1.blockSize

instance (numTokens : Int) (manager : NativeKVCacheManager) (request : Request)
    (arguments : AllocateArguments) : Decidable (EndsWithin numTokens manager request arguments) := by
  unfold EndsWithin
  infer_instance

namespace ExtendsTables

variable {kept : Prop} {numTokens : Int} {id other : RequestId} {numGpuBlocks : Nat}
  {manager next last : NativeKVCacheManager} {request : Request} {arguments : AllocateArguments}

theorem refl (manager : NativeKVCacheManager) : ExtendsTables kept numTokens id manager manager :=
  forall₂_same.mpr fun group _ => .refl group

theorem trans (first : ExtendsTables kept numTokens id manager next)
    (second : ExtendsTables kept numTokens id next last) :
    ExtendsTables kept numTokens id manager last :=
  forall₂_trans first second fun _ _ _ => Extends.trans

theorem removeSkippedBlocks (manager : NativeKVCacheManager) (other : RequestId) (total : Int) :
    ExtendsTables kept numTokens id manager (manager.removeSkippedBlocks other total) :=
  forall₂_mapManagers fun group pool =>
    .removeSkippedBlocks group pool other total

theorem free (manager : NativeKVCacheManager) (mayFree : kept → id ≠ other) :
    ExtendsTables kept numTokens id manager (manager.free other) :=
  forall₂_mapManagers fun group pool => .free group pool mayFree

theorem cacheBlocks (returned : manager.cacheBlocks request numComputed = .ok next) :
    ExtendsTables kept numTokens id manager next :=
  (cacheBlocks_sameTables returned).2.imp fun _ _ ⟨same, tables⟩ =>
    .of_blocksOf_eq same (congrArg (Dict.getD · _ _) tables)

section

variable (valid : manager.Valid numGpuBlocks)
  (takes : manager.TakesHits numGpuBlocks request arguments)
  (within : id = request.requestId → EndsWithin numTokens manager request arguments)

include valid takes within

theorem addComputedBlocks {added : KVCacheCoordinator}
    (returned : manager.addComputedBlocks request arguments = .ok added) :
    added.Valid numGpuBlocks ∧ List.Forall₂ (SingleTypeKVCacheManager.Extends kept numTokens id)
        manager.coordinator.singleTypeManagers added.singleTypeManagers := by
  unfold NativeKVCacheManager.addComputedBlocks at returned
  dsimp only at returned
  split at returned
  · obtain ⟨⟨_, managers, pool⟩, done, returned⟩ := bind_eq_ok.mp returned
    cases returned
    refine eachManager_forall₂ (fun group index =>
        group.TakesHits numGpuBlocks request.requestId
          ((manager.computedBlocks arguments).getD index [])
          (request.numComputedTokens + arguments.numNewComputedTokens)
          arguments.numExternalComputedTokens ∧
        (id = request.requestId → totalComputedTokens request arguments ≤ numTokens ∧
            (((manager.computedBlocks arguments).getD index []).length : Int) ≤
              cdiv (totalComputedTokens request arguments) group.blockSize))
      _ done valid (fun entry mem => ⟨takes entry mem, fun isRequest => ?_⟩) ?_
    · obtain ⟨nonnegative, inside, short⟩ := within isRequest
      exact ⟨by omega, short entry mem⟩
    · rintro group index pool queue others owns rfl ⟨takes, inside⟩ _ replaced next stepped
      obtain ⟨⟨replaced, next⟩, stepped, stepReturned⟩ := bind_eq_ok.mp stepped
      cases stepReturned
      obtain ⟨queue', owned, shape, -⟩ := owns.allocateNewComputedBlocks takes stepped
      exact ⟨⟨queue', owned⟩, shape.numGpuBlocks,
        .allocateNewComputedBlocks owns takes inside stepped⟩
  · cases returned
    exact ⟨valid, refl manager⟩

theorem takeSlots {blocks : KVCacheBlocks}
    (returned : manager.takeSlots request arguments = .ok (blocks, next)) :
    ExtendsTables kept numTokens id manager next := by
  obtain ⟨added, allocated, addedComputed, taken, stored⟩ := takeSlots_eq_ok returned
  obtain ⟨addedValid, computed⟩ : added.Valid numGpuBlocks ∧
      List.Forall₂ (Extends kept numTokens id)
        manager.coordinator.singleTypeManagers added.singleTypeManagers :=
    addComputedBlocks valid takes within addedComputed
  obtain ⟨⟨newBlocks', managers, pool⟩, done, taken⟩ := bind_eq_ok.mp taken
  cases taken
  have slots : id = request.requestId → manager.slotTokens request arguments ≤ numTokens := by
    intro isRequest
    obtain ⟨-, inside, -⟩ := within isRequest
    unfold slotTokens mainModelTokens
    omega
  have new := (eachManager_forall₂ (fun _ _ => True) (Extends kept numTokens id) done addedValid
    (fun _ _ => trivial) fun group index pool queue others owns size _ _ replaced next stepped => by
      obtain ⟨owned, -, -, -, shape, -⟩ := owns.allocateNewBlocks stepped
      exact ⟨⟨_, owned⟩, shape.numGpuBlocks.trans size, .allocateNewBlocks owns slots stepped⟩).2
  have both : ExtendsTables kept numTokens id manager
      { manager with coordinator := added.withManagers managers pool } :=
    forall₂_trans computed new fun _ _ _ => Extends.trans
  rcases stored with rfl | ⟨_, stored⟩
  · exact both
  · exact both.trans (cacheBlocks stored)

omit takes in
/-- A call of `allocateSlots`. -/
theorem allocateSlots {blocks : Option KVCacheBlocks}
    (takes : ¬ manager.Refuses request arguments →
      manager.TakesHits numGpuBlocks request arguments)
    (returned : manager.allocateSlots request arguments = .ok (blocks, next)) :
    ExtendsTables kept numTokens id manager next := by
  cases blocks with
  | none =>
    rcases allocateSlots_eq_none returned with rfl | rfl
    · exact refl next
    · exact removeSkippedBlocks manager _ _
  | some blocks =>
    obtain ⟨granted, taken⟩ := allocateSlots_eq_some returned
    refine (removeSkippedBlocks manager _ _).trans (takeSlots (valid.removeSkippedBlocks _ _)
      ((takes granted).removeSkippedBlocks _ _) (fun isRequest => ?_) taken)
    obtain ⟨nonnegative, inside, short⟩ := within isRequest
    refine ⟨nonnegative, inside, ?_⟩
    rintro ⟨changed, index⟩ found
    obtain ⟨group, found', same, -⟩ := exists_getElem?_of_forall₂
      (manager.coordinator.forall₂_removeSkippedBlocks request.requestId _)
      (mem_zipIdx_iff_getElem?.mp found)
    have groupShort := short (group, index) (mem_zipIdx_iff_getElem?.mpr found')
    rw [computedBlocks_getD] at groupShort ⊢
    unfold blockSize
    rw [same.kvCacheSpec]
    exact groupShort

end

end ExtendsTables

end NativeKVCacheManager

namespace ManagerOperation

/-- An operation whose calls for a request end within a number of tokens, and that frees
the request only if it need not be kept. -/
def Grants (kept : Prop) (numTokens : Int) (requestId : RequestId)
    (manager : NativeKVCacheManager) : ManagerOperation → Prop
  | allocateSlots request arguments lookup => requestId = request.requestId →
      manager.EndsWithin numTokens request (allocateArguments manager request arguments lookup)
  | free other => kept → requestId ≠ other
  | _ => True

instance (kept : Prop) [Decidable kept] (numTokens : Int) (requestId : RequestId)
    (manager : NativeKVCacheManager) (operation : ManagerOperation) :
    Decidable (Grants kept numTokens requestId manager operation) :=
  match operation with
  | allocateSlots _ _ _ | free _ => inferInstanceAs (Decidable (_ → _))
  | cacheBlocks _ _ | removeSkippedBlocks _ _ | evictBlocks _ | resetPrefixCache =>
    inferInstanceAs (Decidable True)

variable {manager next : NativeKVCacheManager} {id : RequestId} {numGpuBlocks : Nat}
  {numTokens : Int} {kept : Prop}

theorem extendsTables_of_apply (valid : manager.Valid numGpuBlocks)
    (fits : Fits manager operation) (grants : Grants kept numTokens id manager operation)
    (applied : apply manager operation = .ok next) :
    manager.ExtendsTables kept numTokens id next := by
  cases operation with
  | allocateSlots request arguments lookup =>
    obtain ⟨⟨blocks, next⟩, allocated, returned⟩ := bind_eq_ok.mp applied
    cases returned
    exact .allocateSlots valid grants (takesHits_of_fits valid fits) allocated
  | free other =>
    cases applied
    exact .free manager grants
  | cacheBlocks request numComputed => exact .cacheBlocks applied
  | removeSkippedBlocks other total =>
    cases applied
    exact .removeSkippedBlocks manager other total
  | evictBlocks blocks =>
    obtain ⟨_, -, returned⟩ := bind_eq_ok.mp applied
    cases returned
    exact .refl _
  | resetPrefixCache =>
    cases applied
    exact .refl _

theorem extendsTables_of_run (valid : manager.Valid numGpuBlocks)
    (along : Machine.Along apply (fun manager operation =>
        Fits manager operation ∧ Grants kept numTokens id manager operation) manager operations)
    (reached : Machine.run apply manager operations = .ok final) :
    manager.ExtendsTables kept numTokens id final := by
  induction operations generalizing manager with
  | nil =>
    cases reached
    exact .refl _
  | cons operation rest ih =>
    obtain ⟨next, applied, reached⟩ := bind_eq_ok.mp reached
    obtain ⟨⟨fits, grants⟩, along⟩ := along
    exact (extendsTables_of_apply valid fits grants applied).trans
      (ih (valid_of_apply valid fits applied) (along next applied) reached)

end ManagerOperation

end TokenCake
