import Mathlib.Algebra.BigOperators.Group.List.Lemmas
import Mathlib.Algebra.Order.BigOperators.GroupWithZero.List
import TokenCake.Offload.RequestKeys
import TokenCake.Offload.Snapshots

/-!
# Preserved blocks can be hit

A bounded selection of candidates ends at a boundary that every group covers: groups with full
attention by all blocks in front of it, groups with windows by the last window.  This needs
candidates without gaps, which blocks in use leave in groups that cannot be shared.
-/

namespace TokenCake

open List Nat SchedulerOffloadConfig LookupContext

namespace SnapshotContext

variable {blocks : List (OffloadKey × List BlockId × List (Option BlockHashWithGroupId))}
  {context : SnapshotContext} {record : Lifecycle} {group : GroupOffloadConfig}
  {start groupIndex : Nat}

section Candidates

variable {candidate : SnapshotBlock}

/-- A candidate is the block of the snapshot at its index. -/
theorem mem_groupCandidates
    (mem : candidate ∈ context.groupCandidates record groupIndex group start blocks) :
    candidate.group = groupIndex ∧ start ≤ candidate.index ∧
      ∃ block, blocks[candidate.index - start]? = some block ∧ block.1 = candidate.key := by
  induction blocks generalizing start with
  | nil => simp [groupCandidates] at mem
  | cons block rest ih =>
    obtain ⟨key, ids, hashes⟩ := block
    have later : candidate ∈ context.groupCandidates record groupIndex group (start + 1) rest →
        candidate.group = groupIndex ∧ start ≤ candidate.index ∧
          ∃ block, ((key, ids, hashes) :: rest)[candidate.index - start]? = some block ∧
            block.1 = candidate.key := by
      intro mem
      obtain ⟨same, behind, block, found, named⟩ := ih mem
      refine ⟨same, by omega, block, ?_, named⟩
      rw [show candidate.index - start = candidate.index - (start + 1) + 1 by omega]
      exact found
    unfold groupCandidates at mem
    dsimp only at mem
    split at mem
    · simp at mem
    · split at mem
      · exact later mem
      · split at mem
        · exact later mem
        · rcases mem_cons.mp mem with rfl | mem
          · exact ⟨rfl, le_rfl, (key, ids, hashes), by simp, rfl⟩
          · exact later mem

/-- Without blocks in use and blocks that are kept already, candidates have no gaps. -/
theorem exists_candidate_of_le (fresh : record.retained = [] ∧ record.pendingRetention = [])
    (shareable : groupIndex ∈ context.shareableGroups)
    (mem : candidate ∈ context.groupCandidates record groupIndex group start blocks) {index : Nat}
    (behind : start ≤ index) (before : index ≤ candidate.index) :
    ∃ other ∈ context.groupCandidates record groupIndex group start blocks,
      other.index = index := by
  induction blocks generalizing start with
  | nil => simp [groupCandidates] at mem
  | cons block rest ih =>
    obtain ⟨key, ids, hashes⟩ := block
    have idle : context.isBusy groupIndex group ids = false := by simp [isBusy, shareable]
    unfold groupCandidates at mem ⊢
    simp only [fresh, idle, not_mem_nil, or_self, if_false, Bool.and_false,
      Bool.false_eq_true] at mem ⊢
    split at mem
    · simp at mem
    · next kept =>
      rw [if_neg kept]
      rcases eq_or_lt_of_le behind with rfl | later
      · exact ⟨_, mem_cons_self, rfl⟩
      · rcases mem_cons.mp mem with rfl | mem
        · exact absurd before (by simpa using later)
        · obtain ⟨other, found, same⟩ := ih mem later
          exact ⟨other, mem_cons_of_mem _ found, same⟩

theorem mem_candidatesOf (mem : candidate ∈ context.candidatesOf record groupIndex snapshot group) :
    candidate.group = groupIndex ∧ snapshot.keys[candidate.index]? = some candidate.key := by
  obtain ⟨same, behind, block, found, named⟩ := mem_groupCandidates mem
  refine ⟨same, ?_⟩
  rw [getElem?_drop, Nat.add_sub_cancel' behind] at found
  obtain ⟨keyed, _⟩ := getElem?_zip_eq_some.mp found
  rw [keyed, named]

theorem mem_snapshotCandidates (captured : record.snapshot = some snapshot)
    {candidates : List SnapshotBlock}
    (returned : context.snapshotCandidates record = .ok candidates) :
    candidate ∈ candidates ↔ ∃ (index : Nat) (part : SnapshotGroup) (group : GroupOffloadConfig),
      snapshot.groups[index]? = some part ∧ context.config.kvGroupConfigs[index]? = some group ∧
        candidate ∈ context.candidatesOf record index part group := by
  unfold snapshotCandidates at returned
  simp only [captured, Except.ok.injEq] at returned
  subst returned
  simp only [List.mem_insertionSort, List.mem_flatten, List.mem_mapIdx]
  constructor
  · rintro ⟨_, ⟨index, inside, rfl⟩, mem⟩
    obtain ⟨parted, configured⟩ :=
      List.getElem?_zip_eq_some.mp (List.getElem?_eq_getElem inside)
    exact ⟨index, _, _, parted, configured, mem⟩
  · rintro ⟨index, part, group, parted, configured, mem⟩
    have located : (snapshot.groups.zip context.config.kvGroupConfigs)[index]? =
        some (part, group) := List.getElem?_zip_eq_some.mpr ⟨parted, configured⟩
    obtain ⟨inside, same⟩ := List.getElem?_eq_some_iff.mp located
    exact ⟨_, ⟨index, inside, rfl⟩, by rw [same]; exact mem⟩

end Candidates

section Bounded

variable {candidates : List SnapshotBlock}

instance : IsTrans SnapshotBlock fun left right => context.precedes left right where
  trans first second third left right := by
    simp only [precedes, Bool.or_eq_true, Bool.and_eq_true, decide_eq_true_eq] at left right ⊢
    omega

instance : Std.Total fun left right => (context.precedes left right : Prop) where
  total left right := by
    simp only [precedes, Bool.or_eq_true, Bool.and_eq_true, decide_eq_true_eq]
    omega

theorem mem_take_of_endTokens_lt
    (sorted : candidates.Pairwise fun left right => context.precedes left right) {count : Nat}
    {candidate other : SnapshotBlock} (selected : candidate ∈ candidates.take count)
    (listed : other ∈ candidates) (before : context.endTokens other < context.endTokens candidate) :
    other ∈ candidates.take count := by
  rw [← take_append_drop count candidates] at sorted listed
  rcases mem_append.mp listed with early | late
  · exact early
  · have ordered := (pairwise_append.mp sorted).2.2 candidate selected other late
    simp only [precedes, Bool.or_eq_true, Bool.and_eq_true, decide_eq_true_eq] at ordered
    omega

/-- Candidates of groups with full attention have no gaps. -/
def Gapless (context : SnapshotContext) (candidates : List SnapshotBlock) : Prop :=
  ∀ candidate ∈ candidates, ∀ group, context.config.kvGroupConfigs[candidate.group]? = some group →
      group.slidingWindowSizeInBlocks = none → ∀ index ≤ candidate.index,
        ∃ other ∈ candidates, other.group = candidate.group ∧ other.index = index

/-- A boundary that a selection covers in every group. -/
structure Boundary (context : SnapshotContext) (selection : List SnapshotBlock)
    (stop : Nat) : Prop where
  aligned : ∀ group ∈ context.config.kvGroupConfigs, group.offloadedBlockSize ∣ stop
  atMost : ∀ candidate ∈ selection, context.endTokens candidate ≤ stop
  selected : ∀ {groupIndex : Nat} {group : GroupOffloadConfig},
    context.config.kvGroupConfigs[groupIndex]? = some group →
      ∀ index < stop / group.offloadedBlockSize,
        (∀ window, group.slidingWindowSizeInBlocks = some window →
          stop / group.offloadedBlockSize ≤ index + window) →
            ∃ candidate ∈ selection, candidate.group = groupIndex ∧ candidate.index = index

theorem endTokens_eq {candidate : SnapshotBlock}
    (configured : context.config.kvGroupConfigs[candidate.group]? = some group) :
    context.endTokens candidate = (candidate.index + 1) * group.offloadedBlockSize := by
  simp [endTokens, configured]

/-- A selection keeps the candidates without gaps. -/
theorem Gapless.take (gapless : context.Gapless candidates)
    (sorted : candidates.Pairwise fun left right => context.precedes left right)
    (sizes : ∀ group ∈ context.config.kvGroupConfigs, 0 < group.offloadedBlockSize)
    (count : Nat) : context.Gapless (candidates.take count) := by
  intro candidate selected group configured full index before
  rcases eq_or_lt_of_le before with rfl | earlier
  · exact ⟨candidate, selected, rfl, rfl⟩
  · obtain ⟨other, listed, sameGroup, sameIndex⟩ :=
      gapless candidate (mem_of_mem_take selected) group configured full index before
    refine ⟨other, mem_take_of_endTokens_lt sorted selected listed ?_, sameGroup, sameIndex⟩
    rw [endTokens_eq (sameGroup ▸ configured), endTokens_eq configured, sameIndex]
    exact mul_lt_mul_of_pos_right (by omega) (sizes group (mem_of_getElem? configured))

theorem mem_indicesOf {group : GroupOffloadConfig} {index : Nat} :
    index ∈ indicesOf candidates group ↔
      ∃ candidate ∈ candidates, candidate.group = group.groupIdx ∧ candidate.index = index := by
  simp [indicesOf, and_assoc]

/-- The common boundary lies inside the candidates of every group. -/
theorem commonEnd_le (mem : group ∈ configs) (present : indicesOf candidates group ≠ []) :
    ∃ index ∈ indicesOf candidates group,
      commonEnd configs candidates ≤ (index + 1) * group.offloadedBlockSize := by
  obtain ⟨last, largest⟩ := Option.ne_none_iff_exists'.mp
    (fun nothing => present (max?_eq_none_iff.mp nothing))
  refine ⟨last, max?_mem largest, ?_⟩
  refine (div_mul_le_self ..).trans ?_
  have listed : (last + 1) * group.offloadedBlockSize ∈ configs.map fun group =>
      (((indicesOf candidates group).max?).getD 0 + 1) * group.offloadedBlockSize :=
    mem_map.mpr ⟨group, mem, by rw [largest]; rfl⟩
  cases least : (configs.map fun group =>
      (((indicesOf candidates group).max?).getD 0 + 1) * group.offloadedBlockSize).min? with
  | none => exact zero_le _
  | some stop => exact (min?_eq_some_iff.mp least).2 _ listed

theorem mem_of_windowComplete (windowed : group.slidingWindowSizeInBlocks = some window)
    (complete : windowComplete stop candidates group = true)
    (before : index < stop / group.offloadedBlockSize)
    (close : stop / group.offloadedBlockSize ≤ index + window) :
    index ∈ indicesOf candidates group := by
  unfold windowComplete at complete
  simp only [windowed, all_eq_true, mem_range'_1, decide_eq_true_eq] at complete
  exact complete index (by omega)

/-- The selection of a layout with one group of full attention. -/
theorem boundary_of_single (single : context.config.kvGroupConfigs = [group])
    (full : group.slidingWindowSizeInBlocks = none) (gapless : context.Gapless candidates)
    (grouped : ∀ candidate ∈ candidates, candidate.group < context.config.kvGroupConfigs.length)
    (present : candidates ≠ []) : ∃ stop, context.Boundary candidates stop := by
  have only : ∀ candidate ∈ candidates, candidate.group = 0 := fun candidate mem => by
    have inside := grouped candidate mem
    simp [single] at inside
    omega
  have configured : context.config.kvGroupConfigs[0]? = some group := by simp [single]
  have ends : ∀ candidate ∈ candidates, context.endTokens candidate =
      (candidate.index + 1) * group.offloadedBlockSize := fun candidate mem =>
    endTokens_eq (by rw [only candidate mem]; exact configured)
  have filled : (candidates.map context.endTokens).max? ≠ none := fun nothing =>
    present (List.map_eq_nil_iff.mp (List.max?_eq_none_iff.mp nothing))
  obtain ⟨stop, latest⟩ := Option.ne_none_iff_exists'.mp filled
  obtain ⟨reached, largest⟩ := List.max?_eq_some_iff.mp latest
  obtain ⟨last, mem, rfl⟩ := List.mem_map.mp reached
  refine ⟨context.endTokens last, ?_, ?_, ?_⟩
  · intro other listed
    rw [single, List.mem_singleton] at listed
    rw [ends last mem, listed]
    exact Nat.dvd_mul_left ..
  · exact fun candidate listed => largest _ (List.mem_map_of_mem listed)
  · intro groupIndex other located index before _
    obtain ⟨inside, _⟩ := List.getElem?_eq_some_iff.mp located
    have zero : groupIndex = 0 := by
      simp [single] at inside
      exact inside
    subst zero
    cases configured.symm.trans located
    have earlier : index ≤ last.index := by
      rw [ends last mem] at before
      have whole := Nat.div_le_of_le_mul (Nat.mul_comm (last.index + 1) group.offloadedBlockSize).le
      omega
    obtain ⟨candidate, listed, sameGroup, sameIndex⟩ := gapless last mem group
      (by rw [only last mem]; exact configured) full index earlier
    exact ⟨candidate, listed, sameGroup.trans (only last mem), sameIndex⟩

/-- The selection of any other layout. -/
theorem boundary_of_commonEnd (gapless : context.Gapless candidates)
    (present : ∀ group ∈ context.config.kvGroupConfigs, indicesOf candidates group ≠ [])
    (complete : ∀ group ∈ context.config.kvGroupConfigs, windowComplete
      (commonEnd context.config.kvGroupConfigs candidates) candidates group = true) :
    context.Boundary (candidates.filter fun candidate => decide
      (context.endTokens candidate ≤ commonEnd context.config.kvGroupConfigs candidates))
      (commonEnd context.config.kvGroupConfigs candidates) := by
  constructor
  · intro group mem
    exact (((foldl_lcm_dvd_iff _ 1 _).mp dvd_rfl).2 _ (mem_map_of_mem mem)).trans (dvd_mul_left ..)
  · intro candidate selected
    simpa using (mem_filter.mp selected).2
  · intro groupIndex group configured index before close
    have mem := mem_of_getElem? configured
    have numbered := groupIdx_of_getElem? configured
    have listed : index ∈ indicesOf candidates group := by
      cases windowed : group.slidingWindowSizeInBlocks with
      | some window =>
        exact mem_of_windowComplete windowed (complete group mem) before (close window windowed)
      | none =>
        obtain ⟨last, largest, reached⟩ := commonEnd_le mem (present group mem)
        obtain ⟨candidate, listed, sameGroup, rfl⟩ := mem_indicesOf.mp largest
        have earlier : index ≤ candidate.index := by
          rw [Nat.mul_comm] at reached
          have whole := Nat.div_le_of_le_mul reached
          omega
        obtain ⟨other, found, otherGroup, otherIndex⟩ := gapless candidate listed group
          (by rw [sameGroup, numbered]; exact configured) windowed index earlier
        exact mem_indicesOf.mpr ⟨other, found, otherGroup.trans sameGroup, otherIndex⟩
    obtain ⟨candidate, found, sameGroup, sameIndex⟩ := mem_indicesOf.mp listed
    refine ⟨candidate, mem_filter.mpr ⟨found, ?_⟩, sameGroup.trans numbered, sameIndex⟩
    rw [decide_eq_true_eq, endTokens_eq (by rw [sameGroup, numbered]; exact configured), sameIndex]
    exact (Nat.mul_le_mul_right _ before).trans (Nat.div_mul_le_self ..)

theorem mem_of_mem_boundCandidates
    (selected : candidate ∈ context.boundCandidates candidates limit) : candidate ∈ candidates := by
  unfold boundCandidates at selected
  dsimp only at selected
  split at selected
  · exact mem_of_mem_take selected
  · split at selected
    · cases selected
    · split at selected
      · exact mem_of_mem_take (mem_filter.mp selected).1
      · cases selected

/-- A bounded selection covers a boundary behind all of it. -/
theorem boundary_of_boundCandidates
    (sizes : ∀ group ∈ context.config.kvGroupConfigs, 0 < group.offloadedBlockSize)
    (sorted : candidates.Pairwise fun left right => context.precedes left right)
    (grouped : ∀ candidate ∈ candidates, candidate.group < context.config.kvGroupConfigs.length)
    (gapless : context.Gapless candidates) {limit : Nat}
    (selected : context.boundCandidates candidates limit ≠ []) :
    ∃ stop, context.Boundary (context.boundCandidates candidates limit) stop := by
  have gaplessTaken := gapless.take sorted sizes (limit / context.config.blockSizeFactor)
  have groupedTaken : ∀ candidate ∈ candidates.take (limit / context.config.blockSizeFactor),
      candidate.group < context.config.kvGroupConfigs.length :=
    fun candidate mem => grouped candidate (mem_of_mem_take mem)
  unfold boundCandidates at selected ⊢
  dsimp only at selected ⊢
  split at selected
  · next whole =>
    rw [if_pos whole]
    rcases Bool.or_eq_true_iff.mp whole with nothing | single
    · exact absurd (isEmpty_iff.mp nothing) selected
    · unfold isSingleFull at single
      split at single
      · next group configs =>
        exact boundary_of_single configs (Option.isNone_iff_eq_none.mp single) gaplessTaken
          groupedTaken selected
      · cases single
  · next several =>
    rw [if_neg several]
    split at selected
    · exact absurd rfl selected
    · next present =>
      rw [if_neg present]
      split at selected
      · next complete =>
        rw [if_pos complete]
        refine ⟨_, boundary_of_commonEnd gaplessTaken ?_ ?_⟩
        · simpa using present
        · simpa using complete
      · exact absurd rfl selected

end Bounded

section Hits

variable {spec : OffloadingSpec}

/-- The block hashes of a request extend those of a snapshot. -/
def ExtendsSnapshot (config : SchedulerOffloadConfig) (snapshot : PrefixSnapshot)
    (blockHashes : List Bytes) : Prop :=
  ∀ (index : Nat) (group : GroupOffloadConfig) (part : SnapshotGroup),
    config.kvGroupConfigs[index]? = some group → snapshot.groups[index]? = some part →
      part.keys <+: SchedulerOffloadConfig.keysOf group blockHashes

/-- A layout whose preserved blocks are hit: if all blocks of a bounded selection are stored
and no store or load of blocks of the request is in flight, a longer request with the same
prefix hits at least the end of the selection. -/
def PreservesHits (spec : OffloadingSpec) (shareableGroups : List Nat) : Prop :=
  ∀ (policy : CachePolicy) (pool : BlockPool) (record : Lifecycle) (snapshot : PrefixSnapshot)
    (candidates : List SnapshotBlock) (limit : Nat) (manager : CPUOffloadingManager)
    (blocksBeingLoaded : Option (List OffloadKey)) (blockHashes : List Bytes) (numTokens : Nat),
    let context : SnapshotContext := ⟨.fromSpec spec, shareableGroups, policy, pool⟩
    let selection := context.boundCandidates candidates limit
    record.snapshot = some snapshot → record.retained = [] → record.pendingRetention = [] →
    context.snapshotCandidates record = .ok candidates →
    selection ≠ [] →
    (∀ candidate ∈ selection, manager.isStored candidate.key = some true) →
    manager.CanTrack →
    blocksBeingLoaded.getD [] = [] →
    blockHashes.length = numTokens / spec.hashBlockSize →
    ExtendsSnapshot context.config snapshot blockHashes →
    (∀ group ∈ context.config.kvGroupConfigs,
      ∀ key ∈ SchedulerOffloadConfig.keysOf group blockHashes, manager.isStored key ≠ none) →
    (∀ candidate ∈ selection, context.endTokens candidate < numTokens) →
    ∃ hit after,
      (LookupContext.ofRequest context.config blockHashes numTokens).lookup blocksBeingLoaded
        manager = .ok (some hit, after) ∧
          ∀ candidate ∈ selection, context.endTokens candidate ≤ hit

theorem sorted_of_snapshotCandidates
    (returned : context.snapshotCandidates record = .ok candidates) :
    candidates.Pairwise fun left right => context.precedes left right := by
  unfold snapshotCandidates at returned
  split at returned
  · cases returned
  · cases returned
    exact pairwise_insertionSort ..

theorem gapless_of_shareable {record : Lifecycle} (captured : record.snapshot = some snapshot)
    (fresh : record.retained = [] ∧ record.pendingRetention = [])
    (shareable : ∀ (index : Nat) (group : GroupOffloadConfig),
      context.config.kvGroupConfigs[index]? = some group →
        group.slidingWindowSizeInBlocks = none → index ∈ context.shareableGroups)
    {candidates : List SnapshotBlock}
    (returned : context.snapshotCandidates record = .ok candidates) :
    context.Gapless candidates := by
  intro candidate mem group configured full index before
  obtain ⟨groupIndex, part, found, parted, located, listed⟩ :=
    (mem_snapshotCandidates captured returned).mp mem
  obtain ⟨same, _⟩ := mem_candidatesOf listed
  rw [same] at configured
  cases configured.symm.trans located
  have whole : context.candidatesOf record groupIndex part group =
      context.groupCandidates record groupIndex group 0 (entries part) := by
    simp [candidatesOf, full]
  rw [whole] at listed
  obtain ⟨other, known, sameIndex⟩ := exists_candidate_of_le fresh
    (shareable groupIndex group configured full) listed (zero_le index) before
  rw [← whole] at known
  refine ⟨other, (mem_snapshotCandidates captured returned).mpr
    ⟨groupIndex, part, group, parted, configured, known⟩, ?_, sameIndex⟩
  rw [(mem_candidatesOf known).1, same]

/-- The boundary of a selection is the end of one of its blocks. -/
theorem Boundary.exists_endTokens_eq (boundary : context.Boundary selection stop) {index : Nat}
    {group : GroupOffloadConfig} (configured : context.config.kvGroupConfigs[index]? = some group)
    (sized : 0 < group.offloadedBlockSize)
    (nonempty : ∀ window, group.slidingWindowSizeInBlocks = some window → 0 < window)
    (positive : 0 < stop) : ∃ candidate ∈ selection, context.endTokens candidate = stop := by
  have aligned := boundary.aligned group (mem_of_getElem? configured)
  have blocks : 0 < stop / group.offloadedBlockSize :=
    Nat.div_pos (Nat.le_of_dvd positive aligned) sized
  obtain ⟨candidate, mem, sameGroup, sameIndex⟩ := boundary.selected configured
    (stop / group.offloadedBlockSize - 1) (by omega)
    (fun window windowed => by have := nonempty window windowed; omega)
  refine ⟨candidate, mem, ?_⟩
  rw [endTokens_eq (sameGroup ▸ configured), sameIndex, Nat.sub_add_cancel blocks]
  exact Nat.div_mul_cancel aligned

theorem preservesHits_of_shareable (valid : spec.Valid) {shareableGroups : List Nat}
    (shareable : ∀ (index : Nat) (group : GroupOffloadConfig),
      (SchedulerOffloadConfig.fromSpec spec).kvGroupConfigs[index]? = some group →
        group.slidingWindowSizeInBlocks = none → index ∈ shareableGroups) :
    PreservesHits spec shareableGroups := by
  intro policy pool record snapshot candidates limit manager blocksBeingLoaded blockHashes
    numTokens context selection captured retained pending returned selected stored tracks idle
    hashed extended decided shorter
  have sizes : ∀ group ∈ context.config.kvGroupConfigs, 0 < group.offloadedBlockSize :=
    fun group mem => offloadedBlockSize_pos valid mem
  have windows : ∀ group ∈ context.config.kvGroupConfigs, ∀ window,
      group.slidingWindowSizeInBlocks = some window → 0 < window :=
    fun group mem window windowed => window_pos valid mem windowed
  have located : ∀ candidate ∈ candidates, ∃ (part : SnapshotGroup) (group : GroupOffloadConfig),
      snapshot.groups[candidate.group]? = some part ∧
        context.config.kvGroupConfigs[candidate.group]? = some group ∧
          part.keys[candidate.index]? = some candidate.key := by
    intro candidate mem
    obtain ⟨index, part, group, parted, configured, listed⟩ :=
      (mem_snapshotCandidates captured returned).mp mem
    obtain ⟨same, keyed⟩ := mem_candidatesOf listed
    exact ⟨part, group, same ▸ parted, same ▸ configured, keyed⟩
  obtain ⟨stop, boundary⟩ := boundary_of_boundCandidates sizes
    (sorted_of_snapshotCandidates returned)
    (fun candidate mem => by
      obtain ⟨_, group, _, configured, _⟩ := located candidate mem
      exact (List.getElem?_eq_some_iff.mp configured).1)
    (gapless_of_shareable captured ⟨retained, pending⟩ shareable returned) selected
  obtain ⟨first, mem⟩ := List.exists_mem_of_ne_nil _ selected
  obtain ⟨_, group, _, configured, _⟩ := located first (mem_of_mem_boundCandidates mem)
  have sized := sizes group (List.mem_of_getElem? configured)
  have positive : 0 < stop := by
    refine lt_of_lt_of_le ?_ (boundary.atMost first mem)
    rw [endTokens_eq configured]
    exact mul_pos (succ_pos _) sized
  obtain ⟨last, ending, reached⟩ := boundary.exists_endTokens_eq configured sized
    (windows group (List.mem_of_getElem? configured)) positive
  have keyed : ∀ {index : Nat} {group : GroupOffloadConfig} {state : RequestGroupState},
      (ofRequest context.config blockHashes numTokens).GroupAt index group state →
        state.offloadKeys = keysOf group blockHashes := by
    intro index group state placed
    cases placed.stated.symm.trans (getElem?_requestStatus placed.configured)
    rfl
  obtain ⟨hit, after, looked, enough⟩ := stop_le_lookup
    manager.answers_lookup (proper_ofRequest valid hashed) (lookupGroups_ne_nil valid) rfl
    (fun placed => by rw [keyed placed]; exact decided _ placed.mem)
    (reached ▸ shorter last ending)
    (fun group mem => le_of_dvd positive (boundary.aligned group mem))
    (fun {index group state} placed => by
      rw [toNat_cdiv_of_dvd (sizes group placed.mem) (boundary.aligned group placed.mem)]
      intro offset _ before close
      obtain ⟨candidate, chosen, sameGroup, sameIndex⟩ :=
        boundary.selected placed.configured offset before close
      obtain ⟨part, other, parted, configured, named⟩ :=
        located candidate (mem_of_mem_boundCandidates chosen)
      obtain ⟨behind, whole⟩ := extended index group part placed.configured (sameGroup ▸ parted)
      refine ⟨candidate.key, ?_, stored candidate chosen⟩
      rw [keyed placed, ← whole, List.getElem?_append_left, ← sameIndex]
      · exact named
      · exact (List.getElem?_eq_some_iff.mp (sameIndex ▸ named)).1)
    idle ⟨rfl, tracks⟩
  exact ⟨hit, after, looked, fun candidate chosen => (boundary.atMost candidate chosen).trans enough⟩

end Hits

section Gaps

variable {spec : OffloadingSpec}

/-- A block in the CPU cache is a candidate, unless a lost block precedes it. -/
theorem exists_candidate_of_cached (fresh : record.retained = [] ∧ record.pendingRetention = [])
    (kept : ∀ block ∈ blocks, context.matchesPool group block.2.1 block.2.2 = true)
    {offset : Nat} {block : OffloadKey × List BlockId × List (Option BlockHashWithGroupId)}
    (found : blocks[offset]? = some block) (cached : (context.policy.get block.1).isNone = false)
    (start : Nat) :
    ∃ candidate ∈ context.groupCandidates record groupIndex group start blocks,
      candidate.index = start + offset := by
  induction blocks generalizing start offset with
  | nil => simp at found
  | cons first rest ih =>
    obtain ⟨key, ids, hashes⟩ := first
    have matched : context.matchesPool group ids hashes = true :=
      kept (key, ids, hashes) mem_cons_self
    have keptRest := fun other mem => kept other (mem_cons_of_mem _ mem)
    unfold groupCandidates
    simp only [matched, fresh, not_mem_nil, or_self, if_false, Bool.not_true,
      Bool.and_false, Bool.false_eq_true]
    cases offset with
    | zero =>
      simp only [getElem?_cons_zero, Option.some.injEq] at found
      subst found
      simp only [cached, Bool.false_and, Bool.false_eq_true, if_false]
      exact ⟨_, mem_cons_self, rfl⟩
    | succ offset =>
      rw [getElem?_cons_succ] at found
      obtain ⟨candidate, mem, same⟩ := ih keptRest found (start + 1)
      refine ⟨candidate, ?_, by omega⟩
      split
      · exact mem
      · exact mem_cons_of_mem _ mem

/-! A snapshot of two alignments of tokens whose blocks are all in the CPU cache, except for
one that is in use on the GPU. -/

section

variable (spec : OffloadingSpec)

/-- Number of tokens of the snapshot. -/
def gapTokens : Nat :=
  2 * ((SchedulerOffloadConfig.fromSpec spec).kvGroupConfigs.map
    GroupOffloadConfig.offloadedBlockSize).foldl Nat.lcm 1

/-- The block hashes of the snapshot. -/
def gapHashes : List Bytes :=
  List.range ((gapTokens spec + 1) / spec.hashBlockSize)

/-- The part of a group in the snapshot. -/
def gapPart (group : GroupOffloadConfig) : SnapshotGroup :=
  let count := gapTokens spec / group.offloadedBlockSize
  { keys := (SchedulerOffloadConfig.keysOf group (gapHashes spec)).take count
    blockIds := List.replicate count (List.replicate spec.blockSizeFactor 1)
    gpuHashes := List.replicate count
      (List.replicate spec.blockSizeFactor (some { hashes := [], groupId := 0 })) }

/-- A snapshot of two blocks or more in every group. -/
def gapSnapshot : PrefixSnapshot where
  groups := (SchedulerOffloadConfig.fromSpec spec).kvGroupConfigs.map (gapPart spec)
  reqId := 0

/-- A record with this snapshot. -/
def gapRecord : Lifecycle where
  metadata := {}
  snapshot := some (gapSnapshot spec)

/-- A policy that has all blocks of the snapshot except one. -/
def gapPolicy (missing : OffloadKey) : CachePolicy :=
  .lru ⟨Dict.tabulate (((SchedulerOffloadConfig.fromSpec spec).kvGroupConfigs.flatMap fun group =>
      SchedulerOffloadConfig.keysOf group (gapHashes spec)).filter fun key => decide (key ≠ missing))
    fun _ => { refCnt := 0, blockId := 0 }⟩

end

/-- A pool in which other requests use every block of the snapshot. -/
def gapPool : BlockPool :=
  { BlockPool.init 2 true 1 with
    refCnt := fun _ => 1
    blockHash := fun _ => some { hashes := [], groupId := 0 } }

variable {key : OffloadKey}

theorem gapPolicy_get (mem : group ∈ (fromSpec spec).kvGroupConfigs)
    (keyed : key ∈ keysOf group (gapHashes spec)) :
    (gapPolicy spec missing).get key =
      if key = missing then none else some { refCnt := 0, blockId := 0 } := by
  have listed : key ∈ (fromSpec spec).kvGroupConfigs.flatMap fun group =>
      keysOf group (gapHashes spec) :=
    mem_flatMap.mpr ⟨group, mem, keyed⟩
  change (Dict.tabulate ..).get? key = _
  rw [Dict.get?_tabulate]
  by_cases same : key = missing <;> simp [same, listed, mem_filter]

theorem length_gapPart (valid : spec.Valid) (mem : group ∈ (fromSpec spec).kvGroupConfigs) :
    (gapPart spec group).keys.length = gapTokens spec / group.offloadedBlockSize := by
  unfold gapPart
  rw [length_take, length_keysOf (hashBlockSizeFactor_pos valid mem)]
  unfold gapHashes
  rw [length_range, Nat.div_div_eq_div_mul, Nat.mul_comm, hashBlockSizeFactor_eq valid mem]
  exact Nat.min_eq_left (Nat.div_le_div_right (Nat.le_succ _))

/-- The CPU cache lacks one block of the snapshot. -/
def gapContext (spec : OffloadingSpec) (shareableGroups : List Nat)
    (missing : OffloadKey) : SnapshotContext where
  config := .fromSpec spec
  shareableGroups := shareableGroups
  policy := gapPolicy spec missing
  pool := gapPool

variable {shareableGroups : List Nat} {missing : OffloadKey}

theorem gapSnapshot_groups (placed : (fromSpec spec).kvGroupConfigs[groupIndex]? = some group) :
    (gapSnapshot spec).groups[groupIndex]? = some (gapPart spec group) := by
  simp [gapSnapshot, placed]

section

variable (valid : spec.Valid)

include valid

theorem matchesPool_gap {block : OffloadKey × List BlockId × List (Option BlockHashWithGroupId)}
    (mem : block ∈ entries (gapPart spec group)) :
    (gapContext spec shareableGroups missing).matchesPool group block.2.1 block.2.2 = true := by
  obtain ⟨key, ids, hashes⟩ := block
  have blocks := (of_mem_zip mem).2
  have same := eq_of_mem_replicate (of_mem_zip blocks).1
  have hashed := eq_of_mem_replicate (of_mem_zip blocks).2
  subst same hashed
  obtain ⟨factor, counted⟩ := exists_eq_succ_of_ne_zero (ne_of_gt valid.factor)
  have none : placeholders group (replicate spec.blockSizeFactor 1) = 0 := by
    simp [placeholders, counted, replicate_succ, nullBlock]
  have sources : ∀ source ∈ (replicate spec.blockSizeFactor 1).zip (replicate
      spec.blockSizeFactor (some ({ hashes := [], groupId := 0 } : BlockHashWithGroupId))),
      source = (1, some { hashes := [], groupId := 0 }) := fun source listed =>
    Prod.ext (eq_of_mem_replicate (of_mem_zip listed).1)
      (eq_of_mem_replicate (of_mem_zip listed).2)
  unfold matchesPool
  simp only [none, drop_zero, length_replicate, gapContext, fromSpec, Bool.and_eq_true, all_eq_true]
  refine ⟨⟨by simp [counted, replicate_succ], by simp⟩, fun source listed => ?_⟩
  rw [sources source listed]
  simp [gapPool, nullBlock]

theorem getElem?_entries_gap (mem : group ∈ (fromSpec spec).kvGroupConfigs) {index : Nat}
    (keyed : (gapPart spec group).keys[index]? = some key) :
    (entries (gapPart spec group))[index]? = some (key, List.replicate spec.blockSizeFactor 1,
      List.replicate spec.blockSizeFactor (some { hashes := [], groupId := 0 })) := by
  have inside := (List.getElem?_eq_some_iff.mp keyed).1
  rw [length_gapPart valid mem] at inside
  refine List.getElem?_zip_eq_some.mpr ⟨keyed, List.getElem?_zip_eq_some.mpr ⟨?_, ?_⟩⟩
  · simp [gapPart, inside]
  · simp [gapPart, inside]

section

variable (mem : group ∈ (fromSpec spec).kvGroupConfigs)

include mem

theorem key_of_gapPart {index : Nat} (keyed : (gapPart spec group).keys[index]? = some key) :
    key = { blockHash := group.hashBlockSizeFactor - 1 + index * group.hashBlockSizeFactor
            groupIdx := group.groupIdx } := by
  have positive := hashBlockSizeFactor_pos valid mem
  unfold gapPart at keyed
  rw [List.getElem?_take] at keyed
  split at keyed
  · unfold keysOf at keyed
    rw [List.getElem?_map, getElem?_islice _ _ positive] at keyed
    unfold gapHashes at keyed
    obtain ⟨hash, ranged, rfl⟩ := Option.map_eq_some_iff.mp keyed
    obtain ⟨_, rfl⟩ := List.getElem?_eq_some_iff.mp ranged
    simp
  · cases keyed

/-- The snapshot has at least two blocks in every group, the last of which ends it. -/
theorem gap_blocks :
    2 ≤ gapTokens spec / group.offloadedBlockSize ∧
      gapTokens spec / group.offloadedBlockSize * group.offloadedBlockSize = gapTokens spec := by
  have sized := offloadedBlockSize_pos valid mem
  have divides : 2 * group.offloadedBlockSize ∣ gapTokens spec :=
    mul_dvd_mul_left 2 (((foldl_lcm_dvd_iff _ 1 _).mp dvd_rfl).2 _ (mem_map_of_mem mem))
  have positive : 0 < gapTokens spec := by
    refine Nat.mul_pos Nat.two_pos (pos_of_dvd_of_pos
      ((foldl_lcm_dvd_iff _ 1 _).mpr ⟨one_dvd _, fun _ => List.dvd_prod⟩) (List.prod_pos ?_))
    intro size listed
    obtain ⟨other, otherMember, rfl⟩ := mem_map.mp listed
    exact offloadedBlockSize_pos valid otherMember
  refine ⟨?_, Nat.div_mul_cancel ((Nat.dvd_mul_left _ 2).trans divides)⟩
  exact (Nat.le_div_iff_mul_le sized).mpr (Nat.le_of_dvd positive divides)

theorem exists_key_of_gapPart {index : Nat}
    (inside : index < gapTokens spec / group.offloadedBlockSize) :
    ∃ key, (gapPart spec group).keys[index]? = some key := by
  rw [← length_gapPart valid mem] at inside
  exact ⟨_, getElem?_eq_getElem inside⟩

end

end

section Missing

variable
  (valid : spec.Valid)
  {index : Nat}
  {lost : GroupOffloadConfig}
  (configured : (fromSpec spec).kvGroupConfigs[index]? = some lost)
  (full : lost.slidingWindowSizeInBlocks = none)
  {candidates : List SnapshotBlock}
  (keyed : (gapPart spec lost).keys[0]? = some missing)
  (returned : (gapContext spec shareableGroups missing).snapshotCandidates (gapRecord spec) =
    .ok candidates)

include valid

include returned in
/-- Candidates lie inside the snapshot, and the missing block is none of them. -/
theorem gap_candidate_spec (mem : candidate ∈ candidates) :
    ∃ group key, (fromSpec spec).kvGroupConfigs[candidate.group]? = some group ∧
        (gapPart spec group).keys[candidate.index]? = some key ∧ candidate.key = key ∧
          candidate.index < gapTokens spec / group.offloadedBlockSize := by
  obtain ⟨groupIndex, part, group, parted, placed, listed⟩ :=
    (mem_snapshotCandidates rfl returned).mp mem
  obtain ⟨sameGroup, named⟩ := mem_candidatesOf listed
  cases parted.symm.trans (gapSnapshot_groups placed)
  have inside := (List.getElem?_eq_some_iff.mp named).1
  rw [length_gapPart valid (List.mem_of_getElem? placed)] at inside
  exact ⟨group, candidate.key, sameGroup ▸ placed, named, rfl, inside⟩

include configured keyed

/-- Only the first block of one group is missing. -/
theorem ne_missing (placed : (fromSpec spec).kvGroupConfigs[groupIndex]? = some group)
    {offset : Nat} (found : (gapPart spec group).keys[offset]? = some key)
    (other : groupIndex = index → 0 < offset) : key ≠ missing := by
  rw [key_of_gapPart valid (mem_of_getElem? placed) found,
    key_of_gapPart valid (mem_of_getElem? configured) keyed,
    groupIdx_of_getElem? placed,
    groupIdx_of_getElem? configured]
  intro same
  have sameGroup : groupIndex = index := congrArg OffloadKey.groupIdx same
  have sameHash : group.hashBlockSizeFactor - 1 + offset * group.hashBlockSizeFactor =
      lost.hashBlockSizeFactor - 1 + 0 * lost.hashBlockSizeFactor :=
    congrArg OffloadKey.blockHash same
  have behind := other sameGroup
  rw [sameGroup, configured] at placed
  cases placed
  have positive := hashBlockSizeFactor_pos valid (mem_of_getElem? configured)
  have := mul_pos behind positive
  omega

include returned

/-- Every block of the snapshot but the missing one is a candidate. -/
theorem exists_gap_candidate
    (placed : (fromSpec spec).kvGroupConfigs[groupIndex]? = some group) {offset : Nat}
    (inside : offset < gapTokens spec / group.offloadedBlockSize)
    (close : ∀ window, group.slidingWindowSizeInBlocks = some window →
      gapTokens spec / group.offloadedBlockSize ≤ offset + window)
    (other : groupIndex = index → 0 < offset) :
    ∃ candidate ∈ candidates, candidate.group = groupIndex ∧ candidate.index = offset := by
  have mem := mem_of_getElem? placed
  obtain ⟨key, named⟩ := exists_key_of_gapPart valid mem inside
  have present := ne_missing valid configured keyed placed named other
  have found := getElem?_entries_gap valid mem named
  have cached : ((gapContext spec shareableGroups missing).policy.get key).isNone = false := by
    change ((gapPolicy spec missing).get key).isNone = false
    rw [gapPolicy_get mem (mem_of_mem_take (mem_of_getElem? named)), if_neg present]
    rfl
  obtain ⟨start, behind, listed⟩ : ∃ start ≤ offset,
      (gapContext spec shareableGroups missing).candidatesOf (gapRecord spec) groupIndex
        (gapPart spec group) group =
          (gapContext spec shareableGroups missing).groupCandidates (gapRecord spec) groupIndex
            group start ((entries (gapPart spec group)).drop start) := by
    unfold candidatesOf
    cases windowed : group.slidingWindowSizeInBlocks with
    | none => exact ⟨0, Nat.zero_le _, rfl⟩
    | some window =>
      refine ⟨(gapPart spec group).keys.length - window, ?_, rfl⟩
      have := close window windowed
      rw [length_gapPart valid mem]
      omega
  obtain ⟨distance, same⟩ := Nat.exists_eq_add_of_le behind
  rw [same, ← getElem?_drop] at found
  obtain ⟨candidate, chosen, sameIndex⟩ : ∃ candidate ∈
      (gapContext spec shareableGroups missing).candidatesOf (gapRecord spec) groupIndex
        (gapPart spec group) group, candidate.index = offset := by
    rw [listed, same]
    exact exists_candidate_of_cached ⟨rfl, rfl⟩
      (fun block listed => matchesPool_gap valid (mem_of_mem_drop listed)) found cached _
  refine ⟨candidate, (mem_snapshotCandidates rfl returned).mpr
    ⟨groupIndex, gapPart spec group, group, gapSnapshot_groups placed, placed, chosen⟩,
    (mem_candidatesOf chosen).1, sameIndex⟩

theorem exists_last_candidate (placed : (fromSpec spec).kvGroupConfigs[groupIndex]? = some group) :
    ∃ candidate ∈ candidates, candidate.group = groupIndex ∧
      candidate.index + 1 = gapTokens spec / group.offloadedBlockSize := by
  have mem := mem_of_getElem? placed
  have several := (gap_blocks valid mem).1
  obtain ⟨candidate, listed, sameGroup, sameIndex⟩ := exists_gap_candidate valid configured keyed
    returned placed (Nat.sub_one_lt (by omega))
    (fun window windowed => by
      have := window_pos valid mem windowed
      omega) (fun _ => by omega)
  exact ⟨candidate, listed, sameGroup, by omega⟩

theorem commonEnd_gap : commonEnd (fromSpec spec).kvGroupConfigs candidates = gapTokens spec := by
  have ends : ∀ tokens ∈ (fromSpec spec).kvGroupConfigs.map fun group =>
      (((indicesOf candidates group).max?).getD 0 + 1) * group.offloadedBlockSize,
      tokens = gapTokens spec := by
    intro tokens listed
    obtain ⟨group, mem, rfl⟩ := mem_map.mp listed
    have placed := SchedulerOffloadConfig.getElem?_of_mem mem
    obtain ⟨last, chosen, sameGroup, ending⟩ :=
      exists_last_candidate valid configured keyed returned placed
    have largest : (indicesOf candidates group).max? = some last.index := by
      refine max?_eq_some_iff.mpr ⟨mem_indicesOf.mpr ⟨last, chosen, sameGroup, rfl⟩, ?_⟩
      intro other otherListed
      obtain ⟨candidate, known, otherGroup, rfl⟩ := mem_indicesOf.mp otherListed
      obtain ⟨found, _, located, _, _, inside⟩ := gap_candidate_spec valid returned known
      rw [otherGroup, placed] at located
      cases located
      omega
    rw [largest, Option.getD_some, ending]
    exact (gap_blocks valid mem).2
  have least : ((fromSpec spec).kvGroupConfigs.map fun group =>
      (((indicesOf candidates group).max?).getD 0 + 1) * group.offloadedBlockSize).min? =
        some (gapTokens spec) := by
    refine min?_eq_some_iff.mpr ⟨?_, fun tokens listed => (ends tokens listed).ge⟩
    have listed := mem_map_of_mem (f := fun group =>
      (((indicesOf candidates group).max?).getD 0 + 1) * group.offloadedBlockSize)
      (mem_of_getElem? configured)
    rwa [ends _ listed] at listed
  unfold commonEnd
  dsimp only
  rw [least, Option.getD_some]
  exact Nat.div_mul_cancel (Nat.dvd_mul_left _ 2)

include full

theorem windowComplete_gap (mem : group ∈ (fromSpec spec).kvGroupConfigs) :
    windowComplete (gapTokens spec) candidates group = true := by
  unfold windowComplete
  split
  · rfl
  · next window windowed =>
    simp only [all_eq_true, mem_range'_1, decide_eq_true_eq]
    intro offset ⟨behind, inside⟩
    have placed := SchedulerOffloadConfig.getElem?_of_mem mem
    have other : group.groupIdx = index → 0 < offset := by
      intro same
      rw [same, configured] at placed
      cases placed
      exact absurd (windowed.symm.trans full) (by simp)
    obtain ⟨candidate, listed, sameGroup, sameIndex⟩ := exists_gap_candidate valid configured keyed
      returned placed (by omega) (fun tokens same => by cases windowed.symm.trans same; omega) other
    exact mem_indicesOf.mpr ⟨candidate, listed, sameGroup, sameIndex⟩

/-- All candidates of the snapshot together are a selection. -/
theorem boundCandidates_gap_ne_nil :
    (gapContext spec shareableGroups missing).boundCandidates candidates
      (candidates.length * spec.blockSizeFactor) ≠ [] := by
  obtain ⟨last, chosen, sameGroup, ending⟩ :=
    exists_last_candidate valid configured keyed returned configured
  have present : ∀ group ∈ (gapContext spec shareableGroups missing).config.kvGroupConfigs,
      indicesOf candidates group ≠ [] := by
    intro group mem
    obtain ⟨other, listed, otherGroup, _⟩ := exists_last_candidate valid configured keyed returned
      (getElem?_of_mem mem)
    exact ne_nil_of_mem (mem_indicesOf.mpr ⟨other, listed, otherGroup, rfl⟩)
  have whole : candidates.take (candidates.length * spec.blockSizeFactor /
      (gapContext spec shareableGroups missing).config.blockSizeFactor) = candidates := by
    change candidates.take (_ / spec.blockSizeFactor) = candidates
    rw [Nat.mul_div_cancel _ valid.factor, take_length]
  have stop : commonEnd (gapContext spec shareableGroups missing).config.kvGroupConfigs
      candidates = gapTokens spec := commonEnd_gap valid configured keyed returned
  have ended : (gapContext spec shareableGroups missing).endTokens last = gapTokens spec := by
    have placed : (gapContext spec shareableGroups missing).config.kvGroupConfigs[last.group]? =
        some lost := sameGroup ▸ configured
    rw [endTokens_eq placed, ending]
    exact (gap_blocks valid (mem_of_getElem? configured)).2
  apply ne_nil_of_mem (a := last)
  unfold boundCandidates
  dsimp only
  rw [whole, stop]
  split
  · exact chosen
  · rw [if_neg (by simpa using present), if_pos]
    · exact mem_filter.mpr ⟨chosen, by simp [ended]⟩
    · exact all_eq_true.mpr fun group mem =>
        windowComplete_gap valid configured full keyed returned mem

/-- The block in use is skipped. -/
theorem pos_of_gap_candidate (busy : index ∉ shareableGroups) {candidate : SnapshotBlock}
    (mem : candidate ∈ candidates) (sameGroup : candidate.group = index) : 0 < candidate.index := by
  have lostMember := mem_of_getElem? configured
  obtain ⟨groupIndex, part, group, parted, placed, listed⟩ :=
    (mem_snapshotCandidates rfl returned).mp mem
  have same := (mem_candidatesOf listed).1.symm.trans sameGroup
  subst same
  cases configured.symm.trans placed
  cases parted.symm.trans (gapSnapshot_groups configured)
  have first := getElem?_entries_gap valid lostMember keyed
  cases blocks : entries (gapPart spec lost) with
  | nil => simp [blocks] at first
  | cons block rest =>
    simp only [blocks, getElem?_cons_zero, Option.some.injEq] at first
    have matched : (gapContext spec shareableGroups missing).matchesPool lost block.2.1
        block.2.2 = true :=
      matchesPool_gap valid (by rw [blocks]; exact mem_cons_self)
    have absent : ((gapContext spec shareableGroups missing).policy.get missing).isNone = true := by
      change ((gapPolicy spec missing).get missing).isNone = true
      rw [gapPolicy_get lostMember (mem_of_mem_take (mem_of_getElem? keyed)), if_pos rfl]
      rfl
    have inUse : (gapContext spec shareableGroups missing).isBusy groupIndex lost
        (replicate spec.blockSizeFactor 1) = true := by
      have factor := valid.factor
      simp [isBusy, gapContext, busy, placeholders, full, gapPool]
      omega
    subst first
    unfold candidatesOf at listed
    simp only [full, drop_zero, blocks] at listed
    unfold groupCandidates at listed
    simp only [matched, absent, inUse, Bool.not_true, Bool.and_false, Bool.false_eq_true,
      if_false, Bool.and_true, if_true, ite_self] at listed
    exact (mem_groupCandidates listed).2.1

omit keyed returned in
/-- With a group of full attention that cannot be shared some selection is not hit. -/
theorem not_preservesHits (busy : index ∉ shareableGroups) :
    ¬ PreservesHits spec shareableGroups := by
  intro preserves
  have mem := mem_of_getElem? configured
  have sized := offloadedBlockSize_pos valid mem
  obtain ⟨missing, keyed⟩ := exists_key_of_gapPart valid mem
    (lt_of_lt_of_le Nat.two_pos (gap_blocks valid mem).1)
  obtain ⟨candidates, returned⟩ : ∃ candidates,
      (gapContext spec shareableGroups missing).snapshotCandidates (gapRecord spec) =
        .ok candidates := ⟨_, rfl⟩
  have selected := boundCandidates_gap_ne_nil valid configured full keyed returned
  let manager : CPUOffloadingManager :=
    { numBlocks := 0, policy := gapPolicy spec missing, counts := none }
  have stored : ∀ {group key}, group ∈ (fromSpec spec).kvGroupConfigs →
      key ∈ keysOf group (gapHashes spec) →
        manager.isStored key = some (decide (key ≠ missing)) := by
    intro group key listed named
    rw [CPUOffloadingManager.isStored, gapPolicy_get listed named]
    by_cases same : key = missing <;> simp [same, BlockStatus.isReady]
  have hashed : (gapHashes spec).length = (gapTokens spec + 1) / spec.hashBlockSize :=
    length_range
  obtain ⟨hit, after, looked, enough⟩ := preserves (gapPolicy spec missing) gapPool
    (gapRecord spec) (gapSnapshot spec) candidates (candidates.length * spec.blockSizeFactor)
    manager (some []) (gapHashes spec) (gapTokens spec + 1) rfl rfl rfl returned selected
    (by
      intro candidate chosen
      have known := mem_of_mem_boundCandidates chosen
      obtain ⟨group, key, placed, found, named, _⟩ := gap_candidate_spec valid returned known
      rw [named, stored (mem_of_getElem? placed) (mem_of_mem_take (mem_of_getElem? found))]
      have present := ne_missing valid configured keyed placed found fun same =>
        pos_of_gap_candidate valid configured full keyed returned busy known same
      simp [present])
    (Or.inl rfl) rfl hashed
    (by
      intro groupIndex group part placed parted
      cases parted.symm.trans (gapSnapshot_groups placed)
      exact take_prefix _ _)
    (by
      intro group listed key named
      rw [stored listed named]
      simp)
    (by
      intro candidate chosen
      obtain ⟨group, key, placed, _, _, inside⟩ :=
        gap_candidate_spec valid returned (mem_of_mem_boundCandidates chosen)
      rw [endTokens_eq placed, Nat.lt_succ_iff, ← (gap_blocks valid (mem_of_getElem? placed)).2]
      exact Nat.mul_le_mul_right group.offloadedBlockSize inside)
  -- A hit covers the first block of every group, but one of them is missing.
  obtain ⟨first, chosen⟩ := exists_mem_of_ne_nil _ selected
  obtain ⟨group, _, placed, _⟩ :=
    gap_candidate_spec valid returned (mem_of_mem_boundCandidates chosen)
  have positive : 0 < hit := by
    refine lt_of_lt_of_le ?_ (enough first chosen)
    rw [endTokens_eq placed]
    exact Nat.mul_pos (Nat.succ_pos _) (offloadedBlockSize_pos valid (mem_of_getElem? placed))
  obtain ⟨result, last, found, _, covered⟩ := covers_of_lookup
    manager.answers_lookup (proper_ofRequest valid hashed) (some [])
    (lookupGroups_ne_nil valid) ⟨rfl, Or.inl rfl⟩
  cases looked.symm.trans found
  have hashedKeys := (proper_ofRequest valid hashed).states index lost configured
  obtain ⟨state, stated, complete⟩ := hashedKeys
  have covers := covered hit rfl positive ⟨configured, stated, complete⟩
  have inside : 0 < (cdiv ((ofRequest (.fromSpec spec) (gapHashes spec)
      (gapTokens spec + 1)).numComputedTokens + hit : Nat) lost.offloadedBlockSize).toNat := by
    rw [Nat.pos_iff_ne_zero, ne_eq, ← Nat.le_zero, toNat_cdiv_le_iff sized]
    omega
  obtain ⟨key, keyedFirst, isStored⟩ := covers 0 (Nat.zero_div _).le inside (by simp [full])
  cases stated.symm.trans (getElem?_requestStatus configured)
  have same : key = missing := by
    unfold gapPart at keyed
    rw [getElem?_take] at keyed
    split at keyed
    · exact Option.some.inj (keyedFirst.symm.trans keyed)
    · cases keyed
  rw [stored mem (mem_of_getElem? keyedFirst), same] at isStored
  simp at isStored

end Missing

end Gaps

/-- Preserved blocks are always hit exactly in the layouts whose groups of full attention can
all be shared. -/
theorem preservesHits_iff {spec : OffloadingSpec}
    (valid : spec.Valid) (shareableGroups : List Nat) :
    PreservesHits spec shareableGroups ↔ ∀ (index : Nat) (group : GroupOffloadConfig),
        (SchedulerOffloadConfig.fromSpec spec).kvGroupConfigs[index]? = some group →
          group.slidingWindowSizeInBlocks = none → index ∈ shareableGroups := by
  constructor
  · intro preserves index group configured full
    by_contra busy
    exact not_preservesHits valid configured full busy preserves
  · exact preservesHits_of_shareable valid

/-- One group of full attention and one with a window of three tokens. -/
def windowSpec : OffloadingSpec where
  groups := [(.fullAttention, 2), (.slidingWindow 3, 2)]
  blockSizeFactor := 1
  hashBlockSize := 2

theorem windowSpec_preservesHits : PreservesHits windowSpec [0] := by
  refine (preservesHits_iff ⟨?_, ?_, ?_, ?_, ?_, ?_⟩ [0]).mpr ?_
  · decide
  · decide
  · decide
  · decide
  · decide
  · decide
  · intro index group configured full
    match index with
    | 0 => exact mem_cons_self
    | 1 =>
      cases configured
      exact absurd full (by decide)
    | index + 2 => cases configured

/-! Three blocks of a group of full attention of a type that is not shared.  The second one is
used by another request when the blocks are preserved. -/

/-- One group of full attention. -/
def latentSpec : OffloadingSpec where
  groups := [(.fullAttention, 2)]
  blockSizeFactor := 1
  hashBlockSize := 2

/-- The block hashes of a request. -/
def latentHashes : List Bytes := [11, 12, 13, 14]

/-- A pool in which the second block is used. -/
def latentPool : BlockPool :=
  { BlockPool.init 5 true 2 with
    refCnt := fun blockId => if blockId = 2 then 1 else 0
    blockHash := fun blockId => some { hashes := [10 + blockId], groupId := 0 } }

/-- Nothing is offloaded yet. -/
def latentContext : SnapshotContext where
  config := .fromSpec latentSpec
  shareableGroups := []
  policy := .lru ⟨.empty⟩
  pool := latentPool

/-- A record whose snapshot has three blocks. -/
def latentRecord : Lifecycle where
  metadata := {}
  snapshot := some
    { groups :=
        [{ keys := [⟨11, 0⟩, ⟨12, 0⟩, ⟨13, 0⟩]
           blockIds := [[1], [2], [3]]
           gpuHashes := [[some ⟨[11], 0⟩], [some ⟨[12], 0⟩], [some ⟨[13], 0⟩]] }]
      reqId := 0 }

/-- What is selected for preservation. -/
def latentSelection : List SnapshotBlock :=
  latentContext.boundCandidates ((latentContext.snapshotCandidates latentRecord).toOption.getD []) 3

/-- The cache after the selection was stored. -/
def latentManager : CPUOffloadingManager where
  numBlocks := 4
  numAllocatedBlocks := 2
  policy := .lru ⟨(Dict.empty.set ⟨11, 0⟩ { refCnt := 0, blockId := 0 }).set ⟨13, 0⟩
    { refCnt := 0, blockId := 1 }⟩
  counts := none

/-- The selection ends after six tokens, but a request with the same prefix hits only two. -/
theorem latentSelection_not_hit :
    latentSelection.map SnapshotBlock.index = [0, 2] ∧
      latentSelection.map latentContext.endTokens = [2, 6] ∧ (latentSelection.all fun candidate =>
          decide (latentManager.isStored candidate.key = some true)) = true ∧
          ((LookupContext.ofRequest latentContext.config latentHashes 8).lookup (some [])
            latentManager).toOption.map Prod.fst = some (some 2) := by
  decide +kernel

end SnapshotContext

end TokenCake
