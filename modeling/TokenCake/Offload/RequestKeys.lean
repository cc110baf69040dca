import TokenCake.Offload.LookupHits

/-!
# The keys of a request

A layout computed from a specification has positive block sizes, and a request whose block
hashes are complete has the keys of all its full blocks in every group.  A lookup in the CPU
cache changes at most the tracker of references.
-/

namespace TokenCake

open List Nat SchedulerOffloadConfig RequestOffloadState

section Slices

variable {α : Type}

theorem getElem?_filterMap_range {value : Nat → Option α} {count : Nat}
    (closed : ∀ index, (value index).isSome ↔ index < count) (length index : Nat) :
    ((List.range length).filterMap value)[index]? =
      if index < length then value index else none := by
  have counted : ∀ length, ((range length).filterMap value).length = min length count := by
    intro length
    induction length with
    | zero => simp
    | succ length ih =>
      rw [range_succ, filterMap_append, length_append, ih]
      cases found : value length with
      | none =>
        have beyond : ¬ length < count := fun inside => by
          simpa [found] using (closed length).mpr inside
        simp [found]
        omega
      | some item =>
        have inside : length < count := (closed length).mp (by simp [found])
        simp [found]
        omega
  induction length with
  | zero => simp
  | succ length ih =>
    rw [range_succ, filterMap_append]
    by_cases before : index < ((range length).filterMap value).length
    · rw [getElem?_append_left before, ih]
      rw [counted] at before
      rw [if_pos (by omega), if_pos (by omega)]
    · rw [getElem?_append_right (by omega), counted]
      rw [counted] at before
      cases found : value length with
      | none =>
        have beyond : ¬ length < count := fun inside => by
          simpa [found] using (closed length).mpr inside
        have missing : value index = none := by
          by_contra present
          have inside := (closed index).mp (Option.isSome_iff_ne_none.mpr present)
          omega
        simp [found, missing]
      | some item =>
        have inside : length < count := (closed length).mp (by simp [found])
        by_cases this : index = length
        · subst this
          simp [found, min_eq_left (le_of_lt inside)]
        · simp [found]
          rw [if_neg (by omega), getElem?_eq_none (by simp; omega)]

/-- The elements of a slice with a stride. -/
theorem getElem?_islice (items : List α) (start : Nat) {stride : Nat}
    (positive : 0 < stride) (index : Nat) :
    (islice items start stride)[index]? = items[start + index * stride]? := by
  have closed : ∀ index, (items[start + index * stride]?).isSome ↔
      index < (items.length - start + (stride - 1)) / stride := by
    intro index
    rw [Option.isSome_iff_ne_none, ne_eq, getElem?_eq_none_iff, Nat.lt_div_iff_mul_lt positive]
    omega
  unfold islice
  rw [getElem?_filterMap_range closed]
  split
  · rfl
  · next outside =>
    rw [getElem?_eq_none]
    have := Nat.le_mul_of_pos_right index positive
    omega

end Slices

/-- What the construction of a specification checks: block sizes are positive and consist of
whole hash blocks, and windows are not empty. -/
structure OffloadingSpec.Valid (spec : OffloadingSpec) : Prop where
  groups : spec.groups ≠ []
  factor : 0 < spec.blockSizeFactor
  hashBlock : 0 < spec.hashBlockSize
  sizes : ∀ group ∈ spec.groups, 0 < group.2
  divides : ∀ group ∈ spec.groups, spec.hashBlockSize ∣ group.2
  windows : ∀ group ∈ spec.groups, group.1 ≠ .slidingWindow 0

variable {blockHashes : List Bytes}

namespace SchedulerOffloadConfig

variable {spec : OffloadingSpec}

theorem getElem?_fromSpec {index : Nat} {group : GroupOffloadConfig} :
    (fromSpec spec).kvGroupConfigs[index]? = some group ↔
      ∃ kind, spec.groups[index]? = some kind ∧ groupConfig spec index kind = group := by
  simp [fromSpec, getElem?_mapIdx]

variable {group : GroupOffloadConfig}

theorem mem_fromSpec (mem : group ∈ (fromSpec spec).kvGroupConfigs) :
    ∃ index, ∃ kind ∈ spec.groups, groupConfig spec index kind = group := by
  obtain ⟨index, configured⟩ := List.getElem?_of_mem mem
  obtain ⟨kind, found, rfl⟩ := getElem?_fromSpec.mp configured
  exact ⟨index, kind, List.mem_of_getElem? found, rfl⟩

section

variable (valid : spec.Valid)

include valid

section

variable (mem : group ∈ (fromSpec spec).kvGroupConfigs)

include mem

theorem offloadedBlockSize_pos : 0 < group.offloadedBlockSize := by
  obtain ⟨index, kind, listed, rfl⟩ := mem_fromSpec mem
  exact mul_pos (valid.sizes kind listed) valid.factor

theorem hashBlockSizeFactor_eq :
    group.hashBlockSizeFactor * spec.hashBlockSize = group.offloadedBlockSize := by
  obtain ⟨index, kind, listed, rfl⟩ := mem_fromSpec mem
  exact Nat.div_mul_cancel (Nat.dvd_mul_right_of_dvd (valid.divides kind listed) _)

theorem hashBlockSizeFactor_pos : 0 < group.hashBlockSizeFactor := by
  have whole := hashBlockSizeFactor_eq valid mem
  have positive := offloadedBlockSize_pos valid mem
  rw [← whole] at positive
  exact Nat.pos_of_mul_pos_right positive

theorem window_pos {window : Nat}
    (windowed : group.slidingWindowSizeInBlocks = some window) : 0 < window := by
  obtain ⟨index, kind, listed, rfl⟩ := mem_fromSpec mem
  have sized : 0 < kind.2 * spec.blockSizeFactor := offloadedBlockSize_pos valid mem
  have nonempty := valid.windows kind listed
  change getSlidingWindowSizeInBlocks kind.1 _ = some window at windowed
  unfold getSlidingWindowSizeInBlocks at windowed
  split at windowed
  · next tokens same =>
    cases windowed
    rw [pos_iff_ne_zero, ne_eq, ← le_zero, toNat_cdiv_le_iff sized, zero_mul]
    intro zero
    exact nonempty (same.trans (by rw [le_zero.mp zero]))
  · cases windowed
    exact one_pos
  · cases windowed

end

theorem lookupGroups_ne_nil : (fromSpec spec).lookupGroups ≠ [] := by
  obtain ⟨kind, rest, groups⟩ := exists_cons_of_ne_nil valid.groups
  have first : (fromSpec spec).kvGroupConfigs[0]? = some (groupConfig spec 0 kind) :=
    getElem?_fromSpec.mpr ⟨kind, by simp [groups], rfl⟩
  exact ne_nil_of_mem (mem_lookupGroups.mpr ⟨_, first⟩)

end

/-- The state of a request with some block hashes. -/
def requestStatus (config : SchedulerOffloadConfig)
    (blockHashes : List Bytes) : RequestOffloadState :=
  (RequestOffloadState.init config).updateOffloadKeys config blockHashes

/-- The keys of a group for some block hashes. -/
def keysOf (group : GroupOffloadConfig) (blockHashes : List Bytes) : List OffloadKey :=
  (islice blockHashes (group.hashBlockSizeFactor - 1) group.hashBlockSizeFactor).map
    fun blockHash => { blockHash := blockHash, groupIdx := group.groupIdx }

theorem getElem?_requestStatus {config : SchedulerOffloadConfig} {index : Nat}
    (configured : config.kvGroupConfigs[index]? = some group) :
    (config.requestStatus blockHashes).groupStates[index]? =
      some { offloadKeys := keysOf group blockHashes } := by
  unfold requestStatus updateOffloadKeys mapGroups init updateGroupKeys keysOf
  obtain ⟨inside, rfl⟩ := List.getElem?_eq_some_iff.mp configured
  simp [inside]

theorem length_keysOf (positive : 0 < group.hashBlockSizeFactor) (blockHashes : List Bytes) :
    (keysOf group blockHashes).length = blockHashes.length / group.hashBlockSizeFactor := by
  unfold keysOf
  rw [List.length_map]
  apply eq_of_forall_lt_iff
  intro index
  rw [Nat.lt_div_iff_mul_lt positive]
  have located := getElem?_islice blockHashes (group.hashBlockSizeFactor - 1) positive index
  constructor
  · intro inside
    rw [List.getElem?_eq_getElem inside] at located
    have := (List.getElem?_eq_some_iff.mp located.symm).1
    omega
  · intro inside
    by_contra outside
    rw [List.getElem?_eq_none (Nat.le_of_not_lt outside)] at located
    have := List.getElem?_eq_none_iff.mp located.symm
    omega

end SchedulerOffloadConfig

/-- The lookup for a new request that has nothing on the GPU. -/
def LookupContext.ofRequest (config : SchedulerOffloadConfig) (blockHashes : List Bytes)
    (numTokens : Nat) : LookupContext where
  config := config
  status := config.requestStatus blockHashes
  numTokens := numTokens
  query := CPUOffloadingManager.lookup

theorem LookupContext.proper_ofRequest {spec : OffloadingSpec} (valid : spec.Valid)
    {numTokens : Nat} (hashed : blockHashes.length = numTokens / spec.hashBlockSize) :
    (ofRequest (.fromSpec spec) blockHashes numTokens).Proper where
  sizes := fun _ mem => SchedulerOffloadConfig.offloadedBlockSize_pos valid mem
  windows := fun _ mem _ windowed => SchedulerOffloadConfig.window_pos valid mem windowed
  states := by
    intro index group configured
    have mem := mem_of_getElem? configured
    refine ⟨_, getElem?_requestStatus configured, ?_⟩
    rw [length_keysOf (hashBlockSizeFactor_pos valid mem), hashed, Nat.div_div_eq_div_mul,
      ← hashBlockSizeFactor_eq valid mem, Nat.mul_comm]
    exact le_rfl

namespace CPUOffloadingManager

/-- The tracker of references, if there is one, holds at least one key. -/
def CanTrack (manager : CPUOffloadingManager) : Prop :=
  manager.counts = none ∨ 0 < manager.maxTrackerSize

/-- Lookups are answered by the state of the cache, which they do not change. -/
theorem answers_lookup (manager : CPUOffloadingManager) :
    Answers lookup (fun other => other.policy = manager.policy ∧ other.CanTrack)
      manager.isStored := by
  rintro other key ⟨same, tracks⟩
  have counted : ∃ after, other.countReference key = .ok after ∧
      after.policy = manager.policy ∧ after.CanTrack := by
    unfold countReference
    cases tracker : other.counts with
    | none => exact ⟨other, rfl, same, tracks⟩
    | some counts =>
      have room : 0 < other.maxTrackerSize := by
        rcases tracks with untracked | room
        · simp [tracker] at untracked
        · exact room
      have tracked : ∃ after, track counts other.maxTrackerSize key = .ok after := by
        unfold track
        split
        · exact ⟨_, rfl⟩
        · split
          · next full =>
            have filled : counts.entries.isEmpty = false := by
              rw [isEmpty_eq_false_iff, ← length_pos_iff]
              omega
            simp only [filled]
            exact ⟨_, rfl⟩
          · exact ⟨_, rfl⟩
      obtain ⟨after, tracked⟩ := tracked
      refine ⟨{ other with counts := some after }, ?_, same, Or.inr room⟩
      simp only [tracked]
      rfl
  obtain ⟨after, counted, kept, room⟩ := counted
  refine ⟨after, ?_, kept, room⟩
  unfold lookup isStored
  rw [counted, ← kept]
  rfl

end CPUOffloadingManager

end TokenCake
