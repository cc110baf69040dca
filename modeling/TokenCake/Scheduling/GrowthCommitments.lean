import TokenCake.KVCache.TableGrowth
import TokenCake.Scheduling.Step

/-!
# Committed growth

When a request is admitted the controller records how many blocks it may still take.
The record subtracts the slots of the table from the capped requirement, null slots
included, so it covers the later blocks of the request unless the cap cuts the
requirement of a table whose first blocks were given back.
-/

namespace TokenCake

open List SingleTypeKVCacheManager ManagerOperation

variable {maxBatched : Nat} {kept : Prop}

namespace SingleTypeKVCacheManager

/-- Slots that the table of a request lacks of the capped requirement. -/
def lackingSlots (group : SingleTypeKVCacheManager) (numTokens : Int)
    (requestId : RequestId) : Int :=
  match group.maxAdmissionBlocksPerRequest with
  | some cap =>
    max (min (cdiv numTokens group.blockSize) cap - (group.blocksOf requestId).length) 0
  | none => max (cdiv numTokens group.blockSize - (group.blocksOf requestId).length) 0

/-- The table has the blocks of the computed tokens, and those in front of the window. -/
def Covers (group : SingleTypeKVCacheManager) (requestId : RequestId)
    (numComputedTokens : Int) : Prop :=
  group.skippedBlocks numComputedTokens ≤ (group.blocksOf requestId).length ∧
    cdiv numComputedTokens group.blockSize ≤ (group.blocksOf requestId).length

instance (group : SingleTypeKVCacheManager) (requestId : RequestId) (numComputedTokens : Int) :
    Decidable (group.Covers requestId numComputedTokens) :=
  inferInstanceAs (Decidable (_ ∧ _))

/-- The cap does not cut the requirement of a table whose first blocks were given back. -/
def Uncut (group : SingleTypeKVCacheManager) (numTokens : Int) (requestId : RequestId) : Prop :=
  nullBlock ∉ group.blocksOf requestId ∨
    ∀ cap ∈ group.maxAdmissionBlocksPerRequest,
      cdiv numTokens group.blockSize ≤ max cap (group.blocksOf requestId).length

instance (group : SingleTypeKVCacheManager) (numTokens : Int) (requestId : RequestId) :
    Decidable (group.Uncut numTokens requestId) :=
  inferInstanceAs (Decidable (_ ∨ _))

variable {group changed : SingleTypeKVCacheManager} {id : RequestId} {numTokens : Int}
  {numComputed : Int}

/-- A covered table lacks what an allocation without hits would take. -/
theorem getNumBlocksToAllocate_eq_lackingSlots (pool : BlockPool)
    (covers : group.Covers id numComputed) :
    group.getNumBlocksToAllocate pool id numTokens [] numComputed true =
      group.lackingSlots numTokens id := by
  have reaches := covers.1
  unfold skippedBlocks at reaches
  have none : ∀ count, getNumEvictableBlocks pool (drop count []) = 0 := fun count => by
    rw [drop_nil]
    rfl
  unfold getNumBlocksToAllocate lackingSlots
  dsimp only
  rw [none, length_nil]
  cases group.maxAdmissionBlocksPerRequest <;> dsimp only <;> split <;> omega

theorem lackingSlots_eq_zero (covers : group.Covers id numComputed)
    (done : numTokens ≤ numComputed) : group.lackingSlots numTokens id = 0 := by
  have computed := covers.2
  have required := cdiv_le_cdiv done group.blockSize
  unfold lackingSlots
  cases group.maxAdmissionBlocksPerRequest <;> dsimp only <;> omega

/-- A table that is not shorter lacks no more slots. -/
theorem lackingSlots_le (same : SameGroup group changed)
    (longer : (group.blocksOf id).length ≤ (changed.blocksOf id).length) :
    changed.lackingSlots numTokens id ≤ group.lackingSlots numTokens id := by
  unfold lackingSlots blockSize
  rw [same.maxAdmissionBlocksPerRequest, same.kvCacheSpec]
  cases group.maxAdmissionBlocksPerRequest <;> dsimp only <;> omega

/-- The blocks a request holds later are those it holds now and the lacking slots. -/
theorem held_le_add_lackingSlots (extended : Extends kept numTokens id group changed)
    (within : changed.WithinCap maxBatched maxModelLen)
    (uncut : nullBlock ∉ group.blocksOf id ∨ kept ∧ group.Uncut numTokens id) :
    ((nonNull (changed.blocksOf id)).length : Int) ≤
      (nonNull (group.blocksOf id)).length + group.lackingSlots numTokens id := by
  have grown := extended.grown _ (.refl kept _ (group.blocksOf id))
  have capped := fun cap isCap => (within.tables cap
    (extended.same.maxAdmissionBlocksPerRequest.trans isCap) id).2
  by_cases noNull : nullBlock ∉ group.blocksOf id
  · have bounded := grown.bounded
    rw [nonNull_eq_self noNull]
    unfold lackingSlots
    cases isCap : group.maxAdmissionBlocksPerRequest with
    | none =>
      dsimp only
      omega
    | some cap =>
      have bound := capped cap isCap
      dsimp only
      omega
  · obtain ⟨isKept, notCut⟩ := uncut.resolve_left noNull
    have held := grown.held isKept
    have fits := notCut.resolve_left noNull
    unfold lackingSlots
    cases isCap : group.maxAdmissionBlocksPerRequest with
    | none =>
      dsimp only
      omega
    | some cap =>
      have bound := fits cap isCap
      dsimp only
      omega

end SingleTypeKVCacheManager

/-- Number of blocks that a request holds. -/
def NativeKVCacheManager.heldBlocks (manager : NativeKVCacheManager)
    (requestId : RequestId) : Int :=
  (manager.coordinator.singleTypeManagers.map fun group =>
    ((nonNull (group.blocksOf requestId)).length : Int)).sum

/-- Number of slots that a request lacks for some tokens in its tables. -/
def NativeKVCacheManager.lackingSlots (manager : NativeKVCacheManager) (numTokens : Int)
    (requestId : RequestId) : Int :=
  (manager.coordinator.singleTypeManagers.map fun group =>
    group.lackingSlots numTokens requestId).sum

namespace NativeKVCacheManager

variable {manager next : NativeKVCacheManager} {id : RequestId} {numTokens : Int}

/-- Tables that were kept lack no more slots than before. -/
theorem lackingSlots_le_of_extendsTables (extended : manager.ExtendsTables True numTokens id next) :
    next.lackingSlots numTokens id ≤ manager.lackingSlots numTokens id := by
  refine Forall₂.sum_le_sum ?_
  rw [forall₂_map_left_iff, forall₂_map_right_iff]
  refine Forall₂.flip (extended.imp fun group changed step => ?_)
  exact lackingSlots_le step.same ((step.grown _ (.refl True _ _)).longer trivial)

/-- The blocks a request holds later are those it holds now and the lacking slots. -/
theorem heldBlocks_le_add_lackingSlots (extended : manager.ExtendsTables kept numTokens id next)
    (within : next.WithinCaps maxBatched) (uncut : ∀ group ∈ manager.coordinator.singleTypeManagers,
      nullBlock ∉ group.blocksOf id ∨ kept ∧ group.Uncut numTokens id) :
    next.heldBlocks id ≤ manager.heldBlocks id + manager.lackingSlots numTokens id := by
  unfold heldBlocks lackingSlots
  rw [← sum_map_add]
  refine Forall₂.sum_le_sum ?_
  rw [forall₂_map_left_iff, forall₂_map_right_iff]
  refine Forall₂.flip (forall₂_iff_get.mpr ⟨extended.length_eq, ?_⟩)
  intro index inManager inNext
  exact held_le_add_lackingSlots (extended.get inManager inNext)
    (within.groups _ (get_mem ..)) (uncut _ (get_mem ..))

end NativeKVCacheManager

namespace SchedulingController

open NativeKVCacheManager

section Books

variable {M : Type} [KVCacheManager M]

/-- Charging writes the charges and what is available. -/
theorem chargeUsage_eq (returned : chargeUsage usage blocks controller = .ok charged) :
    ∃ charges used shared reserved, charged = { controller with
        charges := charges
        used := used
        sharedAvailable := shared
        reservedAvailable := reserved } := by
  induction usage generalizing blocks controller with
  | nil =>
    cases returned
    exact ⟨_, _, _, _, rfl⟩
  | cons entry rest ih =>
    obtain ⟨owner, count⟩ := entry
    cases owner with
    | none =>
      obtain ⟨charges, used, shared, reserved, books⟩ := ih returned
      exact ⟨charges, used, shared, reserved, books⟩
    | some key =>
      simp only [chargeUsage] at returned
      split at returned
      · obtain ⟨charges, used, shared, reserved, books⟩ := ih returned
        exact ⟨charges, used, shared, reserved, books⟩
      · cases returned

variable (controller : SchedulingController) (manager : M)

theorem growthCommitments_recordStart (id : RequestId) :
    (controller.recordStart id).growthCommitments = controller.growthCommitments := by
  unfold recordStart
  split
  · rfl
  · next metadata _ =>
    obtain ⟨history, touched⟩ := controller.touchAgent_eq (some metadata)
      fun metadata => some metadata.importance
    rw [touched]

theorem growthCommitments_release :
    (controller.release manager).growthCommitments = controller.growthCommitments := by
  unfold release
  split <;> rfl

theorem growthCommitments_adoptCharges (requests : List Request) :
    (controller.adoptCharges manager requests).growthCommitments =
      controller.growthCommitments := by
  unfold adoptCharges
  split <;> rfl

theorem adopted_eq (running : List Request) (controller : SchedulingController) :
    ∃ admitted limits, running.foldl (fun controller request =>
          { controller with
            admitted := if request.requestId ∈ controller.admitted then controller.admitted
              else controller.admitted.set request.requestId 0
            prefillLimits :=
              if request.requestId ∈ controller.prefillLimits then controller.prefillLimits
              else controller.prefillLimits.set request.requestId request.numTokens })
        controller = { controller with admitted := admitted, prefillLimits := limits } := by
  induction running generalizing controller with
  | nil => exact ⟨_, _, rfl⟩
  | cons request rest ih =>
    obtain ⟨admitted, limits, books⟩ := ih _
    exact ⟨admitted, limits, books⟩

theorem growthCommitments_beginStep (env : StepEnvironment) (waiting running : List Request) :
    (controller.beginStep manager env waiting running).2.growthCommitments = .empty ∨
      (controller.beginStep manager env waiting running).2.growthCommitments =
        (refreshCommitments { controller with reservationDeferred := [], waitingScores := .empty }
          manager (waiting ++ running) running).growthCommitments := by
  unfold beginStep
  dsimp only
  split
  · exact .inl rfl
  · refine .inr ?_
    rw [growthCommitments_release]
    -- scores, charges and the plan are other fields
    split <;> exact growthCommitments_adoptCharges _ manager (waiting ++ running)

end Books

variable {growth : Int}

/-- An entry of a dictionary that is filled from a list comes from one of its members. -/
theorem exists_mem_of_get?_foldl_set
    {requests : List Request} {value : Request → Int} {start : Dict RequestId Int} {id : RequestId}
    (found : (requests.foldl (fun dict request => dict.set request.requestId (value request))
      start).get? id = some growth) :
    start.get? id = some growth ∨
      ∃ request ∈ requests, request.requestId = id ∧ value request = growth := by
  induction requests generalizing start with
  | nil => exact .inl found
  | cons head rest ih =>
    rcases ih found with atHead | ⟨request, mem, same, entry⟩
    · rw [Dict.get?_set] at atHead
      split at atHead
      · next same =>
        cases atHead
        exact .inr ⟨head, mem_cons_self, same.symm, rfl⟩
      · exact .inl atHead
    · exact .inr ⟨request, mem_cons_of_mem _ mem, same, entry⟩

/-- A controller records the growth of a request: when it commits an allocation of the
request, or when a step begins. -/
inductive Records (manager : NativeKVCacheManager) (request : Request)
    (controller : SchedulingController) : SchedulingController → Prop
  | commit {next : SchedulingController} (running : Bool) (numEncoderTokens : Nat)
      (newBlocks : Option KVCacheBlocks) (borrowReserved : Bool)
      (committed : controller.commit manager request running numEncoderTokens newBlocks
        borrowReserved = .ok next) : Records manager request controller next
  | beginStep (environment : StepEnvironment) (waiting running : List Request)
      (unique : ∀ other ∈ waiting ++ running,
        other.requestId = request.requestId → other = request) :
      Records manager request controller
        (controller.beginStep manager environment waiting running).2

section Recorded

variable {manager : NativeKVCacheManager} {request : Request}
  {controller next : SchedulingController}

/-- Growth depends on the settings and the tables only. -/
theorem remainingGrowth_congr (settings : next.settings = controller.settings)
    (lookahead : next.numLookaheadTokens = controller.numLookaheadTokens) :
    next.remainingGrowth manager request false =
      controller.remainingGrowth manager request false := by
  unfold remainingGrowth growthLimit admissionTokens
  rw [settings, lookahead]
  rfl

/-- The entry of a request is its remaining growth. -/
theorem Records.growth_eq (records : Records manager request controller next)
    (entry : next.growthCommitments.get? request.requestId = some growth) :
    growth = controller.remainingGrowth manager request false := by
  cases records with
  | commit running numEncoderTokens newBlocks borrowReserved committed =>
    obtain ⟨usage, -, committed⟩ := bind_eq_ok.mp committed
    obtain ⟨charged, chargedUsage, committed⟩ := bind_eq_ok.mp committed
    cases committed
    obtain ⟨charges, used, shared, reserved, rfl⟩ := chargeUsage_eq chargedUsage
    rw [growthCommitments_recordStart] at entry
    change Dict.get? (Dict.set _ request.requestId _) request.requestId = some growth at entry
    rw [Dict.get?_set_self, Option.some_inj] at entry
    rw [← entry]
    exact remainingGrowth_congr rfl rfl
  | beginStep env waiting running unique =>
    rcases growthCommitments_beginStep controller manager env waiting running with
      inactive | refreshed
    · rw [inactive, Dict.get?_empty] at entry
      cases entry
    · rw [refreshed] at entry
      unfold refreshCommitments at entry
      rcases exists_mem_of_get?_foldl_set entry with none | ⟨other, mem, same, grows⟩
      · cases Dict.get?_empty.symm.trans none
      · rw [unique other (mem_of_mem_filter mem) same] at grows
        obtain ⟨admitted, limits, adopted⟩ := adopted_eq running
          { controller with reservationDeferred := [], waitingScores := .empty }
        rw [← grows, adopted]
        exact remainingGrowth_congr rfl rfl

/-- The growth of a request without lookahead is what its tables lack. -/
theorem remainingGrowth_eq_lackingSlots (lookahead : controller.numLookaheadTokens = 0)
    (covers : ∀ group ∈ manager.coordinator.singleTypeManagers,
      group.Covers request.requestId request.numComputedTokens) :
    controller.remainingGrowth manager request false =
      manager.lackingSlots (controller.admissionTokens manager request) request.requestId := by
  unfold remainingGrowth
  dsimp only
  split
  · next done =>
    symm
    refine sum_eq_zero fun lacking mem => ?_
    obtain ⟨group, groupMember, rfl⟩ := mem_map.mp mem
    exact lackingSlots_eq_zero (covers group groupMember) done
  · have tokens : min (((controller.admissionTokens manager request : Nat) : Int) +
        controller.numLookaheadTokens) (KVCacheManager.maxModelLen manager : Nat) =
          controller.admissionTokens manager request := by
      have short : controller.admissionTokens manager request ≤
          KVCacheManager.maxModelLen manager := Nat.min_le_right ..
      rw [lookahead]
      omega
    have limit : controller.growthLimit manager request false =
        controller.admissionTokens manager request := rfl
    rw [limit, tokens]
    change (map _ manager.coordinator.singleTypeManagers.zipIdx).sum = sum _
    have groups : manager.coordinator.singleTypeManagers =
        manager.coordinator.singleTypeManagers.zipIdx.map Prod.fst :=
      (zipIdx_map_fst ..).symm
    conv_rhs => rw [groups, map_map]
    refine congrArg sum (map_congr_left fun entry mem => ?_)
    have noHits : (KVCacheManager.emptyKvCacheBlocks manager).getD entry.2 [] = [] :=
      manager.computedBlocks_getD { numNewTokens := 0 } entry.2
    rw [noHits]
    exact getNumBlocksToAllocate_eq_lackingSlots _ (covers entry.1 (fst_mem_of_mem_zipIdx mem))

end Recorded

/-- Calls that the caps foresee and that end within the tokens of a request. -/
def Foresees (maxNumBatchedTokens : Nat) (kept : Prop) (numTokens : Int) (requestId : RequestId)
    (manager : NativeKVCacheManager) (operation : ManagerOperation) : Prop :=
  (operation.Fits manager ∧ operation.Admitted maxNumBatchedTokens manager) ∧
    operation.Grants kept numTokens requestId manager

instance (maxNumBatchedTokens : Nat) (kept : Prop) [Decidable kept] (numTokens : Int)
    (requestId : RequestId) (manager : NativeKVCacheManager) (operation : ManagerOperation) :
    Decidable (Foresees maxNumBatchedTokens kept numTokens requestId manager operation) :=
  inferInstanceAs (Decidable (_ ∧ _))

/-- In every run whose calls the caps foresee: the blocks a request holds now and the growth
recorded for it cover the blocks it holds later, if no first blocks were given back, or if
the caps cut nothing and the request is kept. -/
theorem heldBlocks_le_add_growth
    (specs : List KVCacheSpec) (numGpuBlocks hashBlockSize maxModelLen maxNumBatchedTokens : Nat)
    (enableCaching useEagle : Bool) (flaggedEagleGroupIds : List Nat) (positive : 0 < numGpuBlocks)
    (before between after : List ManagerOperation) (recorded now later : NativeKVCacheManager)
    (controller next : SchedulingController) (request : Request) (growth : Int) (kept : Prop)
    (beforeAlong : Machine.Along ManagerOperation.apply (fun manager operation =>
        operation.Fits manager ∧ operation.Admitted maxNumBatchedTokens manager)
      (.init specs numGpuBlocks hashBlockSize maxModelLen maxNumBatchedTokens enableCaching
        useEagle flaggedEagleGroupIds) before)
    (reachedRecorded : Machine.run ManagerOperation.apply
      (.init specs numGpuBlocks hashBlockSize maxModelLen maxNumBatchedTokens enableCaching
        useEagle flaggedEagleGroupIds) before = .ok recorded)
    (lookahead : controller.numLookaheadTokens = 0)
    (covers : ∀ group ∈ recorded.coordinator.singleTypeManagers,
      group.Covers request.requestId request.numComputedTokens)
    (records : Records recorded request controller next)
    (entry : next.growthCommitments.get? request.requestId = some growth)
    (betweenAlong : Machine.Along ManagerOperation.apply
      (Foresees maxNumBatchedTokens True (controller.admissionTokens recorded request)
        request.requestId) recorded between)
    (reachedNow : Machine.run ManagerOperation.apply recorded between = .ok now)
    (afterAlong : Machine.Along ManagerOperation.apply
      (Foresees maxNumBatchedTokens kept (controller.admissionTokens recorded request)
        request.requestId) now after)
    (reachedLater : Machine.run ManagerOperation.apply now after = .ok later)
    (uncut : ∀ group ∈ now.coordinator.singleTypeManagers,
      nullBlock ∉ group.blocksOf request.requestId ∨
        kept ∧ group.Uncut (controller.admissionTokens recorded request) request.requestId) :
    later.heldBlocks request.requestId ≤ now.heldBlocks request.requestId + growth := by
  set numTokens : Int := ((controller.admissionTokens recorded request : Nat) : Int)
  have atRecorded := (foreseen_init specs hashBlockSize maxModelLen
    maxNumBatchedTokens enableCaching useEagle flaggedEagleGroupIds positive).run beforeAlong
      reachedRecorded
  have atNow := atRecorded.run (betweenAlong.imp fun _ _ foresees => foresees.1) reachedNow
  have atLater := atNow.run (afterAlong.imp fun _ _ foresees => foresees.1) reachedLater
  have sinceRecorded : recorded.ExtendsTables True numTokens request.requestId now :=
    extendsTables_of_run atRecorded.valid
      (betweenAlong.imp fun _ _ foresees => ⟨foresees.1.1, foresees.2⟩) reachedNow
  have sinceNow : now.ExtendsTables kept numTokens request.requestId later :=
    extendsTables_of_run atNow.valid
      (afterAlong.imp fun _ _ foresees => ⟨foresees.1.1, foresees.2⟩) reachedLater
  rw [records.growth_eq entry, remainingGrowth_eq_lackingSlots lookahead covers]
  calc later.heldBlocks request.requestId
      ≤ now.heldBlocks request.requestId + now.lackingSlots numTokens request.requestId :=
        heldBlocks_le_add_lackingSlots sinceNow atLater.within uncut
    _ ≤ _ := Int.add_le_add_left (lackingSlots_le_of_extendsTables sinceRecorded) _

section Recycled

/-- Full attention and a window of two tokens, with blocks of one token and batches of up to
eight tokens. -/
def windowManager : NativeKVCacheManager :=
  .init [{ kind := .fullAttention, blockSize := 1 }, { kind := .slidingWindow 2, blockSize := 1 }]
    64 1 64 8 false false []

/-- A request of eighteen tokens that generates one more. -/
def longRequest (numComputedTokens : Nat) : Request :=
  { ManagerOperation.hashedRequest 1 18 100 with
    maxTokens := 1
    numComputedTokens := numComputedTokens }

/-- The policy before the request is admitted. -/
def windowController : SchedulingController :=
  (SchedulingController.init {} windowManager 0).associate 1 { agentType := 7 }

/-- A step that schedules a chunk of the request: it begins, allocates and commits. -/
def scheduleChunk (state : SchedulingController × NativeKVCacheManager)
    (chunk : Bool × Nat × Int) : Option (SchedulingController × NativeKVCacheManager) := do
  let (running, numComputedTokens, numNewTokens) := chunk
  let request := longRequest numComputedTokens
  let begun := (state.1.beginStep state.2 .quiet (if running then [] else [request])
    (if running then [request] else [])).2
  let (blocks, manager) ←
    (state.2.allocateSlots request { numNewTokens := numNewTokens }).toOption
  let committed ← (begun.commit manager request running 0 blocks true).toOption
  return (committed, manager)

/-- After chunks of 8, 1 and 1 tokens the request holds ten blocks and two of the window, and
nine blocks are recorded; with a chunk of eight tokens it holds 27 blocks. -/
theorem growth_misses_recycled_slots :
    (([(false, 0, 8), (true, 8, 1), (true, 9, 1)].foldlM scheduleChunk
        (windowController, windowManager)).map fun now =>
      (now.2.heldBlocks 1, now.1.growthCommitments.get? 1,
        (scheduleChunk now (true, 10, 8)).map fun later => later.2.heldBlocks 1)) =
      some (12, some 9, some 27) := by
  decide +kernel

/-- A request of nine tokens that generates one more: as many as the cap of the window. -/
def shortRequest (numComputedTokens : Nat) : Request :=
  { ManagerOperation.hashedRequest 1 9 100 with
    maxTokens := 1
    numComputedTokens := numComputedTokens }

/-- A chunk of the short request. -/
def shortChunk (numComputedTokens : Nat) (numNewTokens : Int) : ManagerOperation :=
  .allocateSlots (shortRequest numComputedTokens) { numNewTokens := numNewTokens } false

/-- The managers when the growth of the short request is recorded, after its first blocks
were given back, and after its next chunk. -/
def recordedManager : NativeKVCacheManager :=
  (Machine.run ManagerOperation.apply windowManager [shortChunk 0 4, shortChunk 4 1]).toOption.getD
    windowManager

/-- The manager after blocks in front of the window were freed. -/
def trimmedManager : NativeKVCacheManager :=
  (Machine.run ManagerOperation.apply recordedManager
    [.removeSkippedBlocks 1 5]).toOption.getD windowManager

/-- The manager after the next chunk. -/
def grownManager : NativeKVCacheManager :=
  (Machine.run ManagerOperation.apply trimmedManager [shortChunk 5 4]).toOption.getD windowManager

/-- The policy after the request was admitted. -/
def recordedController : SchedulingController :=
  (windowController.commit recordedManager (shortRequest 4) true 0 none true).toOption.getD
    windowController

/-- The record covers the short request although blocks of the window were given back. -/
theorem shortRequest_heldBlocks_le_add_growth :
    trimmedManager.heldBlocks 1 = 6 ∧ recordedController.growthCommitments.get? 1 = some 10 ∧
      grownManager.heldBlocks 1 = 14 ∧
      grownManager.heldBlocks 1 ≤ trimmedManager.heldBlocks 1 + 10 := by
  refine ⟨by decide +kernel, by decide +kernel, by decide +kernel, ?_⟩
  refine heldBlocks_le_add_growth
    [{ kind := .fullAttention, blockSize := 1 }, { kind := .slidingWindow 2, blockSize := 1 }]
    64 1 64 8 false false [] (by decide) [shortChunk 0 4, shortChunk 4 1]
    [.removeSkippedBlocks 1 5] [shortChunk 5 4] recordedManager trimmedManager grownManager
    windowController recordedController (shortRequest 4) 10 True ?_ ?_ rfl ?_ ?_ ?_ ?_ ?_ ?_ ?_ ?_
  · exact Machine.along_of_checkAlong apply (by decide +kernel)
  · exact eq_ok_getD_of_isSome _ _ (by decide +kernel)
  · decide +kernel
  · exact .commit true 0 none true (eq_ok_getD_of_isSome _ _ (by decide +kernel))
  · decide +kernel
  · exact Machine.along_of_checkAlong apply (by decide +kernel)
  · exact eq_ok_getD_of_isSome _ _ (by decide +kernel)
  · exact Machine.along_of_checkAlong apply (by decide +kernel)
  · exact eq_ok_getD_of_isSome _ _ (by decide +kernel)
  · decide +kernel

end Recycled

end SchedulingController

end TokenCake
