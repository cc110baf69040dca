import TokenCake.KVCache.HybridHit
import TokenCake.KVCache.MaskedRun

/-!
# Hits under the mask of sliding windows

The mask keeps the last blocks of every aligned segment.  A window of at least two
tokens finds a hit in these blocks alone, so the mask loses no hit; with speculative
decoding the search starts one block further right, at a block that the mask drops.
-/

namespace TokenCake

namespace BlockPool.Restricts

variable {kept : BlockHashWithGroupId → Bool} {masked unmasked : BlockPool}

theorem getCachedBlock (related : Restricts kept masked unmasked)
    {hashes : List Bytes} {groupIds : List Nat}
    (keeps : ∀ groupId ∈ groupIds, kept { hashes := hashes, groupId := groupId } = true) :
    masked.getCachedBlock hashes groupIds = unmasked.getCachedBlock hashes groupIds := by
  unfold BlockPool.getCachedBlock
  induction groupIds with
  | nil => rfl
  | cons groupId groupIds ih =>
    rw [List.mapM_cons, List.mapM_cons, related.getOneBlock, if_pos (keeps _ List.mem_cons_self),
      ih fun other mem => keeps other (List.mem_cons_of_mem _ mem)]

end BlockPool.Restricts

variable {index : Nat}

namespace AttentionGroup

section Congruence

variable {group : AttentionGroup} {left right : BlockPool} {hashes : List (List Bytes)}
  (same : ∀ key ∈ hashes,
    left.getCachedBlock key group.groupIds = right.getCachedBlock key group.groupIds)

include same in
theorem matchedRows_congr : group.matchedRows left hashes = group.matchedRows right hashes := by
  induction hashes with
  | nil => rfl
  | cons key rest ih =>
    unfold matchedRows
    rw [same key List.mem_cons_self, ih fun other mem => same other (List.mem_cons_of_mem _ mem)]

theorem searchWindow_congr
    (same : ∀ index, group.rowAt left hashes index = group.rowAt right hashes index)
    (useEagle : Bool) (alignment windowBlocks index contiguous : Nat) (rows : List (List BlockId)) :
    group.searchWindow left hashes useEagle alignment windowBlocks index contiguous rows =
      group.searchWindow right hashes useEagle alignment windowBlocks index contiguous rows := by
  induction index generalizing contiguous rows with
  | zero => rfl
  | succ index ih =>
    have row := same index
    unfold rowAt at row
    unfold searchWindow
    rw [row]
    simp only [ih]

include same in
/-- The search of a type depends on the pool by the cached blocks of its keys. -/
theorem findLongestCacheHit_congr (maxLength : Nat) (useEagle : Bool) (alignment : Nat) :
    group.findLongestCacheHit left hashes maxLength useEagle alignment =
      group.findLongestCacheHit right hashes maxLength useEagle alignment := by
  unfold findLongestCacheHit
  cases group.spec.kind with
  | fullAttention =>
    unfold fullAttentionHit
    rw [matchedRows_congr fun key mem => same key (List.mem_of_mem_take mem)]
  | slidingWindow window =>
    unfold slidingWindowHit
    have rows : ∀ index, group.rowAt left hashes index = group.rowAt right hashes index := by
      intro index
      unfold rowAt
      cases found : hashes[index]? with
      | none => rfl
      | some key => exact same key (List.mem_of_getElem? found)
    simp only [searchWindow_congr rows]
  | chunkedLocalAttention chunk =>
    unfold chunkedLocalHit slice
    dsimp only
    rw [matchedRows_congr fun key mem =>
      same key (List.mem_of_mem_take (List.mem_of_mem_drop mem))]

end Congruence

/-- The blocks of a window in front of an aligned length are at the end of a segment. -/
theorem tail_le_mod (aligned : perSegment ∣ count)
    (inside : count - tail ≤ index) (below : index < count)
    (short : tail < perSegment) : perSegment - tail ≤ index % perSegment := by
  obtain ⟨segments, rfl⟩ := aligned
  obtain ⟨before, rfl⟩ : ∃ before, segments = before + 1 :=
    ⟨segments - 1, by rcases segments with _ | segments <;> omega⟩
  rw [Nat.mul_succ] at inside below
  have split : index = perSegment * before + (index - perSegment * before) := by omega
  rw [split, Nat.mul_add_mod, Nat.mod_eq_of_lt (by omega)]
  omega

variable {alignment : Nat} {unmasked masked : BlockPool}

/-- A masked window of at least two tokens has the same hits in both caches. -/
theorem hitCounts_of_masked {group : AttentionGroup}
    (kind : group.spec.kind = .slidingWindow window) (wide : 2 ≤ window)
    (isMasked : group.spec.isMasked alignment = true) (divides : group.spec.blockSize ∣ alignment)
    (rows : ∀ index, group.spec.keepsBlock (some alignment) index = true →
      group.rowAt masked hashes index = group.rowAt unmasked hashes index) (maxLength : Nat) :
    group.hitCounts masked hashes maxLength alignment =
      group.hitCounts unmasked hashes maxLength alignment := by
  have sizes := isMasked
  unfold KVCacheSpec.isMasked at sizes
  rw [kind] at sizes
  simp only [Bool.and_eq_true, decide_eq_true_eq] at sizes
  obtain ⟨perSegment, rfl⟩ := divides
  have positive : 0 < group.spec.blockSize := by
    by_contra zero
    rw [show group.spec.blockSize = 0 by omega, Nat.zero_mul] at sizes
    omega
  rw [Nat.mul_div_cancel_left _ positive] at sizes
  have tailPositive : 1 ≤ group.spec.tailBlocks window := by
    unfold KVCacheSpec.tailBlocks
    rw [show (window : Int) - 1 = ((window - 2 : Nat) : Int) + 1 by omega,
      cdiv_succ _ positive, Int.toNat_natCast]
    exact Nat.le_add_left 1 _
  have first : ∀ count, group.firstBlock count = count - group.spec.tailBlocks window := by
    intro count
    unfold firstBlock windowBlocks
    rw [kind]
    dsimp only
    rw [← KVCacheSpec.tailBlocks, max_eq_left tailPositive]
  unfold hitCounts HitAt
  ext count
  refine and_congr_right fun _ => and_congr_right fun aligned => ?_
  refine forall_congr' fun index => forall_congr' fun inside => forall_congr' fun below => ?_
  rw [rows index]
  unfold KVCacheSpec.keepsBlock
  rw [kind]
  rw [Bool.or_eq_true, decide_eq_true_eq, Nat.mul_div_cancel_left _ positive]
  rw [Nat.mul_comm group.spec.blockSize, Nat.mul_dvd_mul_iff_right positive] at aligned
  rw [first] at inside
  exact .inr (tail_le_mod aligned inside below sizes.2)

/-- The search of a masked window returns the same length in both caches. -/
theorem findLongestCacheHit_length_of_masked {group : AttentionGroup}
    (wide : ∀ window, group.spec.kind = .slidingWindow window → 2 ≤ window)
    (isMasked : group.spec.isMasked alignment = true) (divides : group.spec.blockSize ∣ alignment)
    (rows : ∀ index, group.spec.keepsBlock (some alignment) index = true →
      group.rowAt masked hashes index = group.rowAt unmasked hashes index) (maxLength : Nat) :
    (group.findLongestCacheHit masked hashes maxLength false alignment).length =
      (group.findLongestCacheHit unmasked hashes maxLength false alignment).length := by
  obtain ⟨window, kind⟩ : ∃ window, group.spec.kind = .slidingWindow window := by
    unfold KVCacheSpec.isMasked at isMasked
    split at isMasked
    · next window kind => exact ⟨window, kind⟩
    · cases isMasked
  have supported : ∀ chunk, group.spec.kind ≠ .chunkedLocalAttention chunk := by
    rw [kind]
    exact fun _ => nofun
  have left := (findLongestCacheHit_spec supported masked hashes maxLength alignment).1
  rw [hitCounts_of_masked kind (wide window kind) isMasked divides rows] at left
  exact left.unique (findLongestCacheHit_spec supported unmasked hashes maxLength alignment).1

end AttentionGroup

namespace HybridSearch

/-- Passes that know the hits of the same types, with the same lengths so far. -/
structure Pass.Alike (left right : Pass) : Prop where
  length : left.currHitLength = right.currHitLength
  verified : left.eagleVerified = right.eagleVerified
  found : left.found.map Option.isSome = right.found.map Option.isSome

theorem Pass.Alike.isSome {left : Pass} (alike : left.Alike right) (index : Nat) :
    (left.found[index]?).join.isSome = (right.found[index]?).join.isSome := by
  have entry : ∀ found : List FoundRows,
      (found[index]?).join.isSome = (found.map Option.isSome)[index]?.getD false := by
    intro found
    rw [List.getElem?_map]
    cases found[index]? with
    | none => rfl
    | some rows => rfl
  rw [entry, entry, alike.found]

variable {group : AttentionGroup}

/-- A type is searched for a speculative decoder if one of its groups is flagged. -/
theorem exists_flagged_group (flagged : index ∈ (init specs eagleGroupIds).eagleAttnGroupIndices)
    (mem : (init specs eagleGroupIds).attentionGroups[index]? = some group) :
    ∃ groupId ∈ group.groupIds, groupId ∈ eagleGroupIds := by
  have test := (List.mem_filter.mp flagged).2
  change ((((init specs eagleGroupIds).attentionGroups[index]?).map
    AttentionGroup.groupIds).getD []).any _ = true at test
  rw [mem, Option.map_some, Option.getD_some, List.any_eq_true] at test
  obtain ⟨groupId, listed, isFlagged⟩ := test
  exact ⟨groupId, listed, of_decide_eq_true isFlagged⟩

section Passes

variable {search : HybridSearch} {masked unmasked : BlockPool} {blockHashes : List Bytes}
  {maxLength : Nat}

/-- The searches of all types return the same lengths in two pools. -/
def SameLengths (search : HybridSearch) (masked unmasked : BlockPool)
    (blockHashes : List Bytes) : Prop :=
  ∀ (index : Nat) (group : AttentionGroup), search.attentionGroups[index]? = some group →
    ∀ maxLength useEagle, (useEagle = true → index ∈ search.eagleAttnGroupIndices) →
      (group.findLongestCacheHit masked (masked.scaledHashes blockHashes group.spec.blockSize)
          maxLength useEagle search.lcmBlockSize).length =
        (group.findLongestCacheHit unmasked
          (unmasked.scaledHashes blockHashes group.spec.blockSize) maxLength useEagle
            search.lcmBlockSize).length

/-- The two ways to visit a type: cut what full attention has found, or search. -/
theorem visit_eq (search : HybridSearch) (pool : BlockPool) (pass : Pass) (index : Nat)
    (group : AttentionGroup) :
    search.visit pool blockHashes maxLength pass index group =
      if group.isFullAttention && (pass.found[index]?).join.isSome then
        { pass with
          currHitLength := pass.currHitLength / group.spec.blockSize * group.spec.blockSize }
      else
        let useEagle :=
          decide (index ∈ search.eagleAttnGroupIndices) && !decide (index ∈ pass.eagleVerified)
        let rows :=
          group.findLongestCacheHit pool (pool.scaledHashes blockHashes group.spec.blockSize)
            (if useEagle then min (pass.currHitLength + group.spec.blockSize) maxLength
              else pass.currHitLength) useEagle search.lcmBlockSize
        { currHitLength := rows.length * group.spec.blockSize
          eagleVerified :=
            if useEagle then index :: pass.eagleVerified
            else if rows.length * group.spec.blockSize < pass.currHitLength then []
            else pass.eagleVerified
          found := pass.found.set index (some rows) } := by
  unfold visit
  cases group.isFullAttention with
  | false => rfl
  | true =>
    cases (pass.found[index]?).join with
    | none => rfl
    | some rows => rfl

variable {right left : Pass}

section

variable (lengths : search.SameLengths masked unmasked blockHashes)

include lengths

theorem visit_alike (alike : left.Alike right) (mem : search.attentionGroups[index]? = some group) :
    (search.visit masked blockHashes maxLength left index group).Alike
      (search.visit unmasked blockHashes maxLength right index group) := by
  rw [visit_eq, visit_eq, alike.isSome index]
  split
  · exact ⟨by rw [alike.length], alike.verified, alike.found⟩
  · rw [alike.length, alike.verified]
    generalize flag : (decide (index ∈ search.eagleAttnGroupIndices) &&
      !decide (index ∈ right.eagleVerified)) = useEagle
    have flagged : useEagle = true → index ∈ search.eagleAttnGroupIndices := by
      rintro rfl
      exact of_decide_eq_true (Bool.and_eq_true_iff.mp flag).1
    have same := fun maxLength => lengths index group mem maxLength useEagle flagged
    refine ⟨by dsimp only; rw [same], by dsimp only; rw [same], ?_⟩
    rw [List.map_set, List.map_set, alike.found]
    rfl

theorem runPass_alike (alike : left.Alike right) :
    (search.runPass masked blockHashes maxLength left).Alike
      (search.runPass unmasked blockHashes maxLength right) := by
  unfold runPass
  have listed : ∀ entry ∈ search.attentionGroups.zipIdx,
      search.attentionGroups[entry.2]? = some entry.1 := fun entry mem =>
    List.mem_zipIdx_iff_getElem?.mp mem
  generalize search.attentionGroups.zipIdx = entries at listed
  induction entries generalizing left right with
  | nil => exact alike
  | cons entry entries ih =>
    exact ih (visit_alike lengths alike (listed entry List.mem_cons_self))
      fun other mem => listed other (List.mem_cons_of_mem _ mem)

theorem passes_alike (fuel hitLength : Nat) (alike : left.Alike right) :
    (search.passes masked blockHashes maxLength fuel hitLength left).1 =
      (search.passes unmasked blockHashes maxLength fuel hitLength right).1 := by
  induction fuel generalizing hitLength left right with
  | zero => rfl
  | succ fuel ih =>
    have start : Pass.Alike { left with currHitLength := hitLength }
        { right with currHitLength := hitLength } := ⟨rfl, alike.verified, alike.found⟩
    have done : Pass.Alike (search.runPass masked blockHashes maxLength
          { left with currHitLength := hitLength })
        (search.runPass unmasked blockHashes maxLength
          { right with currHitLength := hitLength }) := runPass_alike lengths start
    unfold passes
    dsimp only
    rw [done.length]
    split
    · rfl
    · split
      · rfl
      · exact ih _ done

/-- If no type tells the pools apart, the lookup returns the same length in both. -/
theorem findLongestCacheHit_length_congr (numGroups maxLength : Nat) :
    (search.findLongestCacheHit masked numGroups blockHashes maxLength).2 =
      (search.findLongestCacheHit unmasked numGroups blockHashes maxLength).2 := by
  unfold findLongestCacheHit
  exact passes_alike lengths _ _ ⟨rfl, rfl, rfl⟩

end

end Passes

end HybridSearch

/-- Groups whose blocks are masked have windows of at least two tokens and no layers of
a speculative decoder. -/
def MaskServesLookup (specs : List KVCacheSpec) (eagleGroupIds : List Nat) : Prop :=
  ∀ (groupId : Nat) (spec : KVCacheSpec), specs[groupId]? = some spec →
    spec.isMasked (hitAlignment specs) = true →
      groupId ∉ eagleGroupIds ∧ ∀ window, spec.kind = .slidingWindow window → 2 ≤ window

namespace KVCacheCoordinator.MaskedBy

variable {specs : List KVCacheSpec} {position : Bytes → Nat}
  {masked unmasked : KVCacheCoordinator} {blockHashes : List Bytes}
  {enableCaching : Bool}
  (related : MaskedBy (keptKey specs (layoutAlignment specs enableCaching) position) specs
    enableCaching masked unmasked)

include related in
/-- The cached blocks of a type are the same in both caches where the mask keeps them. -/
theorem getCachedBlock (positioned : Positioned position blockHashes) {group : AttentionGroup}
    (groupSpecs : ∀ groupId ∈ group.groupIds, specs[groupId]? = some group.spec) {key : List Bytes}
    (found : (unmasked.blockPool.scaledHashes blockHashes group.spec.blockSize)[index]? = some key)
    (keeps : group.spec.keepsBlock (layoutAlignment specs enableCaching) index = true) :
    masked.blockPool.getCachedBlock key group.groupIds =
      unmasked.blockPool.getCachedBlock key group.groupIds := by
  refine related.pool.getCachedBlock fun groupId listed => ?_
  rw [unmasked.blockPool.keptKey_scaledHashes positioned (groupSpecs groupId listed) found]
  exact keeps

/-- No type tells the two caches apart. -/
theorem sameLengths
    (related : MaskedBy (keptKey specs (layoutAlignment specs true) position) specs true
      masked unmasked)
    (several : specs.length ≠ 1) (serves : MaskServesLookup specs unmasked.eagleGroupIds)
    (positioned : Positioned position blockHashes) :
    (HybridSearch.init specs unmasked.eagleGroupIds).SameLengths masked.blockPool
      unmasked.blockPool blockHashes := by
  obtain ⟨grouped, lcm⟩ := HybridSearch.grouped_init specs unmasked.eagleGroupIds
  have alignment : layoutAlignment specs true = some (hitAlignment specs) := by
    unfold layoutAlignment
    rw [(HybridSearch.grouped_init specs []).2]
    simp [several]
  intro index group atIndex maxLength useEagle flagged
  have mem := List.mem_of_getElem? atIndex
  have groupSpecs : ∀ groupId ∈ group.groupIds, specs[groupId]? = some group.spec :=
    fun groupId listed =>
      List.mem_zipIdx_iff_getElem?.mp ((grouped.ids group mem groupId).mp listed)
  have scaled : masked.blockPool.scaledHashes = unmasked.blockPool.scaledHashes := by
    unfold BlockPool.scaledHashes
    rw [related.pool.hashBlockSize]
  rw [scaled, lcm]
  cases isMasked : group.spec.isMasked (hitAlignment specs) with
  | false =>
    -- Every block is kept, so both pools hold the same blocks of this type.
    rw [AttentionGroup.findLongestCacheHit_congr]
    intro key listed
    obtain ⟨position, found⟩ := List.getElem?_of_mem listed
    refine related.getCachedBlock positioned groupSpecs found ?_
    rw [alignment]
    exact KVCacheSpec.keepsBlock_of_not_isMasked isMasked position
  | true =>
    have notEagle : useEagle = false := by
      rw [← Bool.not_eq_true]
      intro isEagle
      obtain ⟨groupId, listed, isFlagged⟩ :=
        HybridSearch.exists_flagged_group (flagged isEagle) atIndex
      exact (serves groupId group.spec (groupSpecs groupId listed) isMasked).1 isFlagged
    obtain ⟨groupId, inhabited⟩ := List.exists_mem_of_ne_nil _ (grouped.inhabited group mem)
    have found := groupSpecs groupId inhabited
    have divides : group.spec.blockSize ∣ hitAlignment specs :=
      (hitAlignment_dvd_iff specs _).mp dvd_rfl _ (List.mem_of_getElem? found)
    subst notEagle
    refine AttentionGroup.findLongestCacheHit_length_of_masked
      (serves groupId group.spec found isMasked).2 isMasked divides (fun index keeps => ?_) maxLength
    unfold AttentionGroup.rowAt
    cases stored : (unmasked.blockPool.scaledHashes blockHashes group.spec.blockSize)[index]? with
    | none => rfl
    | some key =>
      refine related.getCachedBlock positioned groupSpecs stored ?_
      rw [alignment]
      exact keeps

include related in
/-- Both coordinators find a hit of the same length. -/
theorem findLongestCacheHit_length (serves : MaskServesLookup specs unmasked.eagleGroupIds)
    (positioned : Positioned position blockHashes) (maxLength : Nat) :
    (masked.findLongestCacheHit blockHashes maxLength).2 =
      (unmasked.findLongestCacheHit blockHashes maxLength).2 := by
  unfold KVCacheCoordinator.findLongestCacheHit
  rw [related.maskedCaching, related.unmaskedCaching, related.managers]
  cases enableCaching with
  | false => rfl
  | true =>
    have specsEq := related.specs_eq
    rw [if_neg (by decide), if_neg (by decide)]
    split
    · next manager managers =>
      rw [managers, List.map_cons, List.map_nil] at specsEq
      have noMask : layoutAlignment specs true = none := by simp [layoutAlignment, ← specsEq]
      have scaled : masked.blockPool.scaledHashes = unmasked.blockPool.scaledHashes := by
        unfold BlockPool.scaledHashes
        rw [related.pool.hashBlockSize]
      dsimp only
      rw [related.eagleGroupIds, scaled, AttentionGroup.findLongestCacheHit_congr]
      intro key listed
      obtain ⟨index, found⟩ := List.getElem?_of_mem listed
      refine related.getCachedBlock positioned (fun groupId single => ?_) found ?_
      · rw [List.mem_singleton.mp single, ← specsEq]
        rfl
      · rw [noMask]
        rfl
    · next several =>
      have lengths := related.sameLengths ?_ serves positioned
      · unfold hybridSearch
        rw [related.managers, related.eagleGroupIds, specsEq]
        exact HybridSearch.findLongestCacheHit_length_congr lengths _ maxLength
      · intro single
        rw [← specsEq, List.length_map] at single
        obtain ⟨manager, managers⟩ := List.length_eq_one_iff.mp single
        exact several manager managers

end KVCacheCoordinator.MaskedBy

namespace CoordinatorOperation

theorem eagleGroupIds_of_apply (applied : apply useMask coordinator operation = .ok next) :
    next.eagleGroupIds = coordinator.eagleGroupIds := by
  cases operation with
  | allocateNewComputedBlocks id blocks numLocal numExternal =>
    obtain ⟨_, -, returned⟩ := bind_eq_ok.mp applied
    cases returned
    rfl
  | allocateNewBlocks id numTokens =>
    obtain ⟨_, allocated, returned⟩ := bind_eq_ok.mp applied
    obtain ⟨_, -, kept⟩ := bind_eq_ok.mp allocated
    cases returned
    cases kept
    rfl
  | removeSkippedBlocks id totalComputedTokens | free id =>
    cases applied
    rfl
  | cacheBlocks request numComputedTokens =>
    cases useMask <;>
    · obtain ⟨_, -, returned⟩ := bind_eq_ok.mp applied
      cases returned
      rfl

/-- In every run on positioned hashes, the lookup finds hits of the same length with the
mask and without it, if the mask serves the lookup. -/
theorem masked_run_loses_no_hit
    (specs : List KVCacheSpec) (numGpuBlocks hashBlockSize : Nat) (enableCaching useEagle : Bool)
    (flaggedEagleGroupIds : List Nat) (maxNumBatchedTokens maxModelLen : Nat)
    (position : Bytes → Nat) (operations : List CoordinatorOperation)
    (serves : MaskServesLookup specs (KVCacheCoordinator.init specs numGpuBlocks hashBlockSize
      enableCaching useEagle flaggedEagleGroupIds maxNumBatchedTokens maxModelLen).eagleGroupIds)
    (cached : ∀ operation ∈ operations, operation.IsPositioned position)
    (masked unmasked : KVCacheCoordinator)
    (maskedRun : Machine.run (apply true) (.init specs numGpuBlocks hashBlockSize enableCaching
      useEagle flaggedEagleGroupIds maxNumBatchedTokens maxModelLen) operations = .ok masked)
    (unmaskedRun : Machine.run (apply false) (.init specs numGpuBlocks hashBlockSize enableCaching
      useEagle flaggedEagleGroupIds maxNumBatchedTokens maxModelLen) operations = .ok unmasked)
    (blockHashes : List Bytes) (positioned : Positioned position blockHashes)
    (maxCacheHitLength : Nat) :
    (masked.findLongestCacheHit blockHashes maxCacheHitLength).2 =
      (unmasked.findLongestCacheHit blockHashes maxCacheHitLength).2 := by
  have initial := KVCacheCoordinator.maskedBy_init (KVCacheCoordinator.keptKey specs
      (KVCacheCoordinator.layoutAlignment specs enableCaching) position)
    specs numGpuBlocks hashBlockSize enableCaching useEagle flaggedEagleGroupIds
    maxNumBatchedTokens maxModelLen
  set start := KVCacheCoordinator.init specs numGpuBlocks hashBlockSize enableCaching useEagle
    flaggedEagleGroupIds maxNumBatchedTokens maxModelLen
  have related := Relates.run
    (fun _ _ operation related admissible => related.apply operation admissible)
    cached initial masked unmasked maskedRun unmaskedRun
  have flags : unmasked.eagleGroupIds = start.eagleGroupIds :=
    Machine.invariant_of_run (fun _ _ _ same _ applied => (eagleGroupIds_of_apply applied).trans same)
      rfl (Machine.along_true operations) unmaskedRun
  rw [← flags] at serves
  exact related.findLongestCacheHit_length serves positioned maxCacheHitLength

section Eagle

/-- Full attention with blocks of four tokens and a sliding window with blocks of two. -/
def mixedGroups : List KVCacheSpec :=
  [{ kind := .fullAttention, blockSize := 4 }, { kind := .slidingWindow 3, blockSize := 2 }]

/-- A request of eight tokens gets its slots and is cached. -/
def cachedRequest : List CoordinatorOperation :=
  [.allocateNewBlocks 1 8, .cacheBlocks (ManagerOperation.hashedRequest 1 8 100) 8]

/-- With speculative layers in the sliding window the unmasked cache has a hit of one
segment, the masked cache has none. -/
theorem eagle_window_loses_hit :
    (Machine.run (apply true) (.init mixedGroups 20 2 true false [1] 64 64)
        cachedRequest).toOption.map
      (fun coordinator => (coordinator.findLongestCacheHit [100, 101, 102, 103] 8).2) = some 0 ∧
    (Machine.run (apply false) (.init mixedGroups 20 2 true false [1] 64 64)
        cachedRequest).toOption.map
      (fun coordinator => (coordinator.findLongestCacheHit [100, 101, 102, 103] 8).2) = some 4 := by
  decide +kernel

/-- Without speculative layers both caches have the whole prefix. -/
theorem cachedRequest_loses_no_hit :
    ∃ masked unmasked,
      Machine.run (apply true) (.init mixedGroups 20 2 true false [] 64 64) cachedRequest =
        .ok masked ∧
      Machine.run (apply false) (.init mixedGroups 20 2 true false [] 64 64) cachedRequest =
        .ok unmasked ∧
      (masked.findLongestCacheHit [100, 101, 102, 103] 8).2 = 8 ∧
      (masked.findLongestCacheHit [100, 101, 102, 103] 8).2 =
        (unmasked.findLongestCacheHit [100, 101, 102, 103] 8).2 := by
  have maskedLength : (Machine.run (apply true) (.init mixedGroups 20 2 true false [] 64 64)
      cachedRequest).toOption.map
        (fun coordinator => (coordinator.findLongestCacheHit [100, 101, 102, 103] 8).2) =
      some 8 := by
    decide +kernel
  have unmaskedReturns : (Machine.run (apply false)
      (.init mixedGroups 20 2 true false [] 64 64) cachedRequest).toOption.isSome = true := by
    decide +kernel
  obtain ⟨masked, maskedRun, length⟩ := Option.map_eq_some_iff.mp maskedLength
  obtain ⟨unmasked, unmaskedRun⟩ := Option.isSome_iff_exists.mp unmaskedReturns
  have listed : Positioned (· - 100) [100, 101, 102, 103] := by
    intro index hash found
    match index with
    | 0 | 1 | 2 | 3 => cases found; rfl
    | _ + 4 => cases found
  refine ⟨masked, unmasked, ok_of_toOption_eq_some maskedRun,
    ok_of_toOption_eq_some unmaskedRun, length, ?_⟩
  refine masked_run_loses_no_hit mixedGroups 20 2 true false [] 64 64 (· - 100) cachedRequest
    ?_ ?_ masked unmasked (ok_of_toOption_eq_some maskedRun)
    (ok_of_toOption_eq_some unmaskedRun) [100, 101, 102, 103] listed 8
  · intro groupId spec found _
    refine ⟨List.not_mem_nil, fun window kind => ?_⟩
    have member := List.mem_of_getElem? found
    simp only [mixedGroups, List.mem_cons, List.not_mem_nil, or_false] at member
    rcases member with rfl | rfl <;> cases kind
    omega
  · intro operation member
    simp only [cachedRequest, List.mem_cons, List.not_mem_nil, or_false] at member
    rcases member with rfl | rfl
    · trivial
    · exact listed

end Eagle

end CoordinatorOperation

end TokenCake
