import TokenCake.Offload.Scans

/-!
# What a lookup finds

A lookup ends after finitely many rounds, and the tokens it reports are covered in every
group: by a prefix of stored blocks, or by a window of stored blocks at the end.  Conversely
it reports at least the tokens up to a boundary that every group covers.
-/

namespace TokenCake

open List Nat SchedulerOffloadConfig LookupContext

namespace SchedulerOffloadConfig

variable {config : SchedulerOffloadConfig} {index : Nat} {group : GroupOffloadConfig}

theorem groupIdx_of_getElem?
    (configured : config.kvGroupConfigs[index]? = some group) : group.groupIdx = index := by
  have numbered := congrArg (·[index]?) config.groupIdx_eq
  obtain ⟨inside, rfl⟩ := List.getElem?_eq_some_iff.mp configured
  simpa [inside] using numbered

theorem getElem?_of_mem (mem : group ∈ config.kvGroupConfigs) :
    config.kvGroupConfigs[group.groupIdx]? = some group := by
  obtain ⟨index, configured⟩ := List.getElem?_of_mem mem
  rw [groupIdx_of_getElem? configured]
  exact configured

theorem mem_slidingWindowGroups :
    index ∈ config.slidingWindowGroups ↔ ∃ group, config.kvGroupConfigs[index]? = some group ∧
        group.slidingWindowSizeInBlocks ≠ none := by
  unfold slidingWindowGroups
  simp only [mem_map, mem_insertionSort, mem_filter, Option.isSome_iff_ne_none]
  constructor
  · rintro ⟨group, ⟨mem, windowed⟩, rfl⟩
    exact ⟨group, getElem?_of_mem mem, windowed⟩
  · rintro ⟨group, configured, windowed⟩
    exact ⟨group, ⟨mem_of_getElem? configured, windowed⟩, groupIdx_of_getElem? configured⟩

theorem mem_lookupGroups :
    index ∈ config.lookupGroups ↔ ∃ group, config.kvGroupConfigs[index]? = some group := by
  unfold lookupGroups
  rw [mem_append, mem_slidingWindowGroups]
  unfold fullAttentionGroups
  simp only [mem_map, mem_filter, Option.isNone_iff_eq_none]
  constructor
  · rintro (⟨group, ⟨mem, _⟩, rfl⟩ | ⟨group, configured, _⟩)
    · exact ⟨group, getElem?_of_mem mem⟩
    · exact ⟨group, configured⟩
  · rintro ⟨group, configured⟩
    by_cases full : group.slidingWindowSizeInBlocks = none
    · exact .inl ⟨group, ⟨mem_of_getElem? configured, full⟩, groupIdx_of_getElem? configured⟩
    · exact .inr ⟨group, configured, full⟩

end SchedulerOffloadConfig

namespace LookupContext

variable {context : LookupContext} {answer : OffloadKey → Option Bool}
  {kept : CPUOffloadingManager → Prop}

/-- The layout has positive block sizes and windows, and the request has the keys of all its
full blocks. -/
structure Proper (context : LookupContext) : Prop where
  sizes : ∀ group ∈ context.config.kvGroupConfigs, 0 < group.offloadedBlockSize
  windows : ∀ group ∈ context.config.kvGroupConfigs, ∀ window,
    group.slidingWindowSizeInBlocks = some window → 0 < window
  states : ∀ (index : Nat) (group : GroupOffloadConfig),
    context.config.kvGroupConfigs[index]? = some group → ∃ state : RequestGroupState,
      context.status.groupStates[index]? = some state ∧
        context.numTokens / group.offloadedBlockSize ≤ state.offloadKeys.length

/-- The hit after the keys of one group were counted; no more than its blocks are hit. -/
def cappedHit (progress : LookupProgress) (group : GroupOffloadConfig)
    (state : RequestGroupState) : Nat :=
  min progress.maxHitSizeTokens (state.offloadKeys.length * group.offloadedBlockSize)

/-- The progress after one group, if queries are answered from a table. -/
def nextProgress
    (context : LookupContext) (answer : OffloadKey → Option Bool) (progress : LookupProgress)
    (group : GroupOffloadConfig) (state : RequestGroupState) : Option LookupProgress :=
  let size := group.offloadedBlockSize
  let maxHit := cappedHit progress group state
  if maxHit - context.numComputedTokens < size then none
  else
    context.tighten group { progress with maxHitSizeTokens := maxHit }
      (groupHits answer group (slice state.offloadKeys (context.numComputedTokens / size)
        (min (cdiv maxHit size).toNat state.offloadKeys.length)))

variable {manager : CPUOffloadingManager} {bound : Nat}
  (answers : Answers context.query kept answer)

include answers in
theorem queryGroup_eq (group : GroupOffloadConfig) (keys : List OffloadKey) (start : kept manager) :
    ∃ after, context.queryGroup group keys manager =
      .ok (groupHits answer group keys, after) ∧ kept after := by
  unfold queryGroup groupHits
  cases group.slidingWindowSizeInBlocks with
  | none => exact maximalPrefixLookup_eq answers keys 0 false start
  | some window => exact slidingWindowLookup_eq answers window keys.reverse 0 false start

/-- The configuration and the state of a group whose tokens are hashed. -/
structure GroupAt (context : LookupContext) (index : Nat) (group : GroupOffloadConfig)
    (state : RequestGroupState) : Prop where
  configured : context.config.kvGroupConfigs[index]? = some group
  stated : context.status.groupStates[index]? = some state
  hashed : context.numTokens / group.offloadedBlockSize ≤ state.offloadKeys.length

include answers in
theorem lookupGroup_eq {index : Nat} {group : GroupOffloadConfig} {state : RequestGroupState}
    (located : context.GroupAt index group state) (progress : LookupProgress)
    (start : kept manager) :
    ∃ after, context.lookupGroup progress index manager =
      .ok (context.nextProgress answer progress group state, after) ∧ kept after := by
  unfold lookupGroup nextProgress cappedHit
  simp only [located.configured, located.stated, ge_iff_le, located.hashed, decide_true]
  by_cases small : min progress.maxHitSizeTokens
      (state.offloadKeys.length * group.offloadedBlockSize) - context.numComputedTokens <
        group.offloadedBlockSize
  · refine ⟨manager, ?_, start⟩
    rw [if_pos small, if_pos small]
    rfl
  · obtain ⟨after, queried, stays⟩ := queryGroup_eq answers group
      (slice state.offloadKeys (context.numComputedTokens / group.offloadedBlockSize)
        (min (cdiv (min progress.maxHitSizeTokens
          (state.offloadKeys.length * group.offloadedBlockSize) : Nat)
            group.offloadedBlockSize).toNat state.offloadKeys.length)) start
    refine ⟨after, ?_, stays⟩
    rw [if_neg small, if_neg small, queried]
    rfl

section Step

variable {progress following : LookupProgress} {group : GroupOffloadConfig}
  {state : RequestGroupState}

/-- The tokens that a hit can have after a group was looked up. -/
def tightenedHit (context : LookupContext) (group : GroupOffloadConfig)
    (maxHit : Nat) : Option Nat → Nat
  | none => maxHit
  | some blocks =>
    min maxHit (group.offloadedBlockSize *
      (context.numComputedTokens / group.offloadedBlockSize + blocks))

/-- The number of blocks of a group that a lookup hits. -/
def scan (context : LookupContext) (answer : OffloadKey → Option Bool) (group : GroupOffloadConfig)
    (state : RequestGroupState) (maxHit : Nat) : Option Nat :=
  groupHits answer group
    (slice state.offloadKeys (context.numComputedTokens / group.offloadedBlockSize)
      (min (cdiv maxHit group.offloadedBlockSize).toNat state.offloadKeys.length))

/-- All that is known of the progress after a group. -/
structure Tightened (context : LookupContext) (answer : OffloadKey → Option Bool)
    (progress : LookupProgress) (group : GroupOffloadConfig) (state : RequestGroupState)
    (following : LookupProgress) : Prop where
  scanned : context.scan answer group state (cappedHit progress group state) ≠ some 0
  maxHit : following.maxHitSizeTokens = context.tightenedHit group (cappedHit progress group state)
      (context.scan answer group state (cappedHit progress group state))
  numHit : following.numHitTokens = following.maxHitSizeTokens - context.numComputedTokens
  enough : group.offloadedBlockSize ≤ following.numHitTokens
  lookedUp : following.lookedUpSlidingWindow =
    (progress.lookedUpSlidingWindow || group.slidingWindowSizeInBlocks.isSome)
  /-- A shorter hit is looked up again if some answer may have changed. -/
  retry :
    (following.numHitTokens < progress.numHitTokens ∧
      following.lookupGroups = context.config.lookupGroups) ∨
    (following.numHitTokens < progress.numHitTokens ∧ progress.deferLookup = false ∧
      following.deferLookup = false ∧
        context.scan answer group state (cappedHit progress group state) ≠ none ∧
          (following.lookupGroups = context.config.slidingWindowGroups ∧
              progress.lookupGroups = [] ∨
            following.lookupGroups = progress.lookupGroups ∧
              (progress.lookedUpSlidingWindow = false ∨ progress.lookupGroups ≠ []))) ∨
    (progress.numHitTokens ≤ following.numHitTokens ∧
      following.lookupGroups = progress.lookupGroups ∧
        following.deferLookup = (progress.deferLookup ||
          (context.scan answer group state (cappedHit progress group state)).isNone))

theorem tighten_eq (hits : Option Nat) :
    context.tighten group progress hits =
      if hits = some 0 then none
      else
        let maxHit := context.tightenedHit group progress.maxHitSizeTokens hits
        let numHit := maxHit - context.numComputedTokens
        if numHit < group.offloadedBlockSize then none
        else
          let deferLookup := progress.deferLookup || hits.isNone
          let retryAll := decide (numHit < progress.numHitTokens) && deferLookup
          let retryWindows := decide (numHit < progress.numHitTokens) && !deferLookup &&
            progress.lookedUpSlidingWindow && progress.lookupGroups.isEmpty
          some
            { maxHitSizeTokens := maxHit
              numHitTokens := numHit
              deferLookup := deferLookup && !retryAll
              lookedUpSlidingWindow :=
                progress.lookedUpSlidingWindow || group.slidingWindowSizeInBlocks.isSome
              lookupGroups :=
                if retryAll then context.config.lookupGroups
                else if retryWindows then context.config.slidingWindowGroups
                else progress.lookupGroups } := by
  cases hits <;> rfl

theorem tightened_of_nextProgress
    (next : context.nextProgress answer progress group state = some following) :
    context.Tightened answer progress group state following := by
  unfold nextProgress at next
  dsimp only at next
  split at next
  · cases next
  · change context.tighten group _
      (context.scan answer group state (cappedHit progress group state)) = _ at next
    rw [tighten_eq] at next
    split at next
    · cases next
    · next scanned =>
      dsimp only at next
      split at next
      · cases next
      · next enough =>
        cases next
        refine ⟨scanned, rfl, rfl, Nat.le_of_not_lt enough, rfl, ?_⟩
        set hits := context.scan answer group state (cappedHit progress group state)
        by_cases shorter : context.tightenedHit group (cappedHit progress group state) hits -
            context.numComputedTokens < progress.numHitTokens
        · cases deferred : (progress.deferLookup || hits.isNone) with
          | true => simp [shorter]
          | false =>
            obtain ⟨settled, answered⟩ := Bool.or_eq_false_iff.mp deferred
            have known : hits ≠ none := by
              rintro unknown
              simp [unknown] at answered
            refine .inr (.inl ⟨shorter, settled, by simp, known, ?_⟩)
            cases progress.lookedUpSlidingWindow <;> cases progress.lookupGroups <;> simp [shorter]
        · exact .inr (.inr ⟨Nat.le_of_not_lt shorter, by simp [shorter], by simp [shorter]⟩)

end Step

section Rounds

variable {holds : Nat → List Nat → LookupProgress → Prop}

/-- Some group of a lookup ends it without a hit. -/
def GivesUp (context : LookupContext) (answer : OffloadKey → Option Bool)
    (holds : Nat → List Nat → LookupProgress → Prop) : Prop :=
  ∃ bound index rest progress group state, context.GroupAt index group state ∧
    holds bound (index :: rest) progress ∧ context.nextProgress answer progress group state = none

/-- An invariant of the groups that are still to be looked up holds through a lookup. -/
structure Invariant (context : LookupContext) (answer : OffloadKey → Option Bool)
    (holds : Nat → List Nat → LookupProgress → Prop) : Prop where
  located : ∀ {bound index rest progress}, holds bound (index :: rest) progress →
    ∃ group state, context.GroupAt index group state
  next : ∀ {bound index rest progress group state following},
    context.GroupAt index group state → holds bound (index :: rest) progress →
      context.nextProgress answer progress group state = some following → holds bound rest following
  /-- Every further round has a smaller bound. -/
  again : ∀ {bound progress}, holds bound [] progress → progress.lookupGroups ≠ [] →
    ∃ smaller < bound, holds smaller progress.lookupGroups
      { progress with lookupGroups := [], lookedUpSlidingWindow := false }

variable {progress : LookupProgress}

include answers in
theorem Invariant.lookupRound (invariant : context.Invariant answer holds)
    {groups : List Nat} (start : holds bound groups progress) (fresh : kept manager) :
    ∃ result after, context.lookupRound groups progress manager = .ok (result, after) ∧
      kept after ∧ (∀ final, result = some final → holds bound [] final) ∧
        (result = none → context.GivesUp answer holds) := by
  induction groups generalizing progress manager with
  | nil =>
    refine ⟨some progress, manager, rfl, fresh, ?_, by simp⟩
    rintro _ ⟨⟩
    exact start
  | cons index rest ih =>
    obtain ⟨group, state, located⟩ := invariant.located start
    obtain ⟨after, looked, stays⟩ := lookupGroup_eq answers located progress fresh
    unfold lookupRound
    rw [looked]
    cases next : context.nextProgress answer progress group state with
    | none =>
      exact ⟨none, after, rfl, stays, by simp,
        fun _ => ⟨bound, index, rest, progress, group, state, located, start, next⟩⟩
    | some following => exact ih (invariant.next located start next) stays

theorem lookupRounds_of_ended (positive : 0 < fuel)
    (ended : progress.lookupGroups = []) (manager : CPUOffloadingManager) :
    context.lookupRounds fuel progress manager = .ok (some progress, manager) := by
  obtain ⟨fuel, rfl⟩ := exists_eq_succ_of_ne_zero (ne_of_gt positive)
  unfold lookupRounds
  simp [ended]

include answers in
theorem Invariant.lookupRounds (invariant : context.Invariant answer holds)
    (fuel : Nat) (progress : LookupProgress) (begun : progress.lookupGroups ≠ [])
    (start : holds bound progress.lookupGroups
      { progress with lookupGroups := [], lookedUpSlidingWindow := false })
    (enough : bound + 1 < fuel)
    {manager : CPUOffloadingManager}
    (fresh : kept manager) :
    ∃ result after, context.lookupRounds fuel progress manager = .ok (result, after) ∧ kept after ∧
        (∀ final, result = some final → final.lookupGroups = [] ∧ ∃ bound, holds bound [] final) ∧
          (result = none → context.GivesUp answer holds) := by
  induction fuel generalizing bound progress manager with
  | zero => exact absurd enough (not_lt_zero _)
  | succ fuel ih =>
    obtain ⟨result, after, looked, stays, held, gaveUp⟩ :=
      invariant.lookupRound answers start fresh
    have continues : progress.lookupGroups.isEmpty = false := by simpa using begun
    unfold lookupRounds
    simp only [continues, Bool.false_eq_true, if_false, looked, bind, Except.bind]
    cases result with
    | none => exact ⟨none, after, rfl, stays, by simp, fun _ => gaveUp rfl⟩
    | some following =>
      have reached := held following rfl
      by_cases ended : following.lookupGroups = []
      · refine ⟨some following, after, lookupRounds_of_ended (by omega) ended after, stays,
          ?_, by simp⟩
        rintro _ ⟨⟩
        exact ⟨ended, bound, reached⟩
      · obtain ⟨smaller, less, again⟩ := invariant.again reached ended
        exact ih following ended again (by omega) stays

end Rounds

section Covered

/-- The stored blocks of a group cover a hit. -/
def Covers (context : LookupContext) (answer : OffloadKey → Option Bool) (maxHit : Nat)
    (group : GroupOffloadConfig) (state : RequestGroupState) : Prop :=
  CoveredBetween answer group state.offloadKeys
    (context.numComputedTokens / group.offloadedBlockSize)
    (cdiv maxHit group.offloadedBlockSize).toNat

variable {group : GroupOffloadConfig} {state : RequestGroupState}
  {progress following : LookupProgress}

theorem Covers.of_le (positive : 0 < group.offloadedBlockSize)
    (full : group.slidingWindowSizeInBlocks = none) {maxHit shorter : Nat}
    (less : shorter ≤ maxHit) (covers : context.Covers answer maxHit group state) :
    context.Covers answer shorter group state := by
  intro index behind inside _
  have smaller : (cdiv shorter group.offloadedBlockSize).toNat ≤
      (cdiv maxHit group.offloadedBlockSize).toNat :=
    (toNat_cdiv_le_iff positive).mpr (less.trans ((toNat_cdiv_le_iff positive).mp le_rfl))
  exact covers index behind (by omega) (by simp [full])

variable (tightened : context.Tightened answer progress group state following)

include tightened in
/-- A group that answered covers the hit it leaves. -/
theorem Tightened.covers (positive : 0 < group.offloadedBlockSize)
    (nonempty : ∀ window, group.slidingWindowSizeInBlocks = some window → 0 < window)
    (answered : context.scan answer group state (cappedHit progress group state) ≠ none) :
    context.Covers answer following.maxHitSizeTokens group state := by
  obtain ⟨hits, scanned⟩ := Option.ne_none_iff_exists'.mp answered
  have found : 0 < hits := pos_of_ne_zero fun nothing =>
    tightened.scanned (nothing ▸ scanned)
  have inside := groupHits_le_length nonempty scanned
  have covered := coveredBetween_of_slice scanned
  -- The scan ends where the hit ends.
  have stop : (cdiv following.maxHitSizeTokens group.offloadedBlockSize).toNat =
      context.numComputedTokens / group.offloadedBlockSize + hits := by
    set start := context.numComputedTokens / group.offloadedBlockSize
    set size := group.offloadedBlockSize
    have hit : following.maxHitSizeTokens =
        min (cappedHit progress group state) (size * (start + hits)) := by
      rw [tightened.maxHit, scanned]
      rfl
    have reached : start + hits ≤ (cdiv (cappedHit progress group state) size).toNat := by
      simp only [slice, length_drop, length_take] at inside
      omega
    apply le_antisymm
    · rw [toNat_cdiv_le_iff positive, mul_comm]
      omega
    · by_contra before
      have short : following.maxHitSizeTokens ≤ (start + hits - 1) * size :=
        (toNat_cdiv_le_iff positive).mp (by omega)
      have longer : (start + hits - 1) * size < size * (start + hits) := by
        rw [mul_comm]
        exact mul_lt_mul_of_pos_left (by omega) positive
      have capped : (cdiv (cappedHit progress group state) size).toNat ≤ start + hits - 1 :=
        (toNat_cdiv_le_iff positive).mpr (by omega)
      omega
  unfold Covers
  rw [stop]
  exact covered

theorem cappedHit_le : cappedHit progress group state ≤ progress.maxHitSizeTokens :=
  min_le_left _ _

theorem tightenedHit_le (maxHit : Nat) (hits : Option Nat) :
    context.tightenedHit group maxHit hits ≤ maxHit := by
  cases hits with
  | none => exact le_rfl
  | some blocks => exact min_le_left ..

include tightened in
theorem Tightened.maxHit_le : following.maxHitSizeTokens ≤ progress.maxHitSizeTokens := by
  rw [tightened.maxHit]
  exact (tightenedHit_le ..).trans cappedHit_le

/-- The groups that are not looked up again cover the present hit, unless the answer has to
wait.  The groups of the next round include all windows, and the hit shrinks from round to
round. -/
structure Looking (context : LookupContext) (answer : OffloadKey → Option Bool) (bound : Nat)
    (remaining : List Nat) (progress : LookupProgress) : Prop where
  located : ∀ index ∈ remaining, index ∈ context.config.lookupGroups
  locatedNext : ∀ index ∈ progress.lookupGroups, index ∈ context.config.lookupGroups
  windowsNext : progress.lookupGroups ≠ [] →
    ∀ index ∈ context.config.slidingWindowGroups, index ∈ progress.lookupGroups
  covered : ∀ {index group state}, context.GroupAt index group state → index ∉ remaining →
    context.Covers answer progress.maxHitSizeTokens group state ∨
      progress.deferLookup = true ∨ index ∈ progress.lookupGroups
  lookedUp : ∀ index ∈ context.config.slidingWindowGroups, index ∉ remaining →
    progress.lookedUpSlidingWindow = true
  /-- Before the first group no tokens are counted. -/
  numHit : progress.numHitTokens = progress.maxHitSizeTokens - context.numComputedTokens ∨
    (progress.numHitTokens = 0 ∧ context.numTokens ≤ bound ∧ progress.lookupGroups = [] ∧
      ∀ index ∈ context.config.lookupGroups, index ∈ remaining)
  maxHit : progress.maxHitSizeTokens ≤ context.numTokens
  within : progress.numHitTokens ≤ bound
  shorter : progress.lookupGroups ≠ [] → progress.numHitTokens < bound

variable {index : Nat}

theorem GroupAt.mem
    (located : context.GroupAt index group state) : group ∈ context.config.kvGroupConfigs :=
  mem_of_getElem? located.configured

theorem GroupAt.mem_lookupGroups
    (located : context.GroupAt index group state) : index ∈ context.config.lookupGroups :=
  SchedulerOffloadConfig.mem_lookupGroups.mpr ⟨group, located.configured⟩

theorem slidingWindowGroups_subset {index : Nat}
    (windowed : index ∈ context.config.slidingWindowGroups) :
    index ∈ context.config.lookupGroups := by
  obtain ⟨group, configured, _⟩ := mem_slidingWindowGroups.mp windowed
  exact mem_lookupGroups.mpr ⟨group, configured⟩

include tightened in
/-- The groups of the next round are those of this one, the windows or all groups. -/
theorem Tightened.lookupGroups_cases :
    following.lookupGroups = progress.lookupGroups ∨
      following.lookupGroups = context.config.slidingWindowGroups ∨
        following.lookupGroups = context.config.lookupGroups := by
  rcases tightened.retry with ⟨_, all⟩ | ⟨_, _, _, _, ⟨windows, _⟩ | ⟨same, _⟩⟩ | ⟨_, same, _⟩
  · exact .inr (.inr all)
  · exact .inr (.inl windows)
  · exact .inl same
  · exact .inl same

variable {rest : List Nat}

/-- The hit of a group that has been looked up before another one. -/
theorem Looking.covered_next (proper : context.Proper)
    (looking : context.Looking answer bound (index :: rest) progress)
    (tightened : context.Tightened answer progress group state following)
    (positive : 0 < group.offloadedBlockSize)
    {other : Nat} {otherGroup : GroupOffloadConfig} {otherState : RequestGroupState}
    (located : context.GroupAt other otherGroup otherState) (passed : other ∉ index :: rest) :
    context.Covers answer following.maxHitSizeTokens otherGroup otherState ∨
      following.deferLookup = true ∨ other ∈ following.lookupGroups := by
  have before := looking.covered located passed
  rcases tightened.retry with ⟨_, all⟩ | ⟨_, settled, _, _, again⟩ | ⟨longer, same, deferred⟩
  · exact .inr (.inr (all ▸ located.mem_lookupGroups))
  · rcases before with covers | waits | next
    · by_cases full : otherGroup.slidingWindowSizeInBlocks = none
      · exact .inl (covers.of_le (proper.sizes _ located.mem) full tightened.maxHit_le)
      · -- A window that was looked up for a longer hit is looked up again.
        have windowed : other ∈ context.config.slidingWindowGroups :=
          mem_slidingWindowGroups.mpr ⟨otherGroup, located.configured, full⟩
        rcases again with ⟨windows, _⟩ | ⟨same, unseen | more⟩
        · exact .inr (.inr (windows ▸ windowed))
        · exact absurd (looking.lookedUp other windowed passed) (by simp [unseen])
        · exact .inr (.inr (same ▸ looking.windowsNext more other windowed))
    · exact absurd waits (by simp [settled])
    · rcases again with ⟨_, nothing⟩ | ⟨same, _⟩
      · exact absurd next (by simp [nothing])
      · exact .inr (.inr (same ▸ next))
  · have unchanged : following.maxHitSizeTokens = progress.maxHitSizeTokens := by
      have counted : progress.numHitTokens =
          progress.maxHitSizeTokens - context.numComputedTokens := by
        rcases looking.numHit with counted | ⟨_, _, _, all⟩
        · exact counted
        · exact absurd (all other located.mem_lookupGroups) passed
      have least := tightened.maxHit_le
      have enough := tightened.enough
      have hit := tightened.numHit
      omega
    rcases before with covers | waits | next
    · exact .inl (unchanged ▸ covers)
    · exact .inr (.inl (by simp [deferred, waits]))
    · exact .inr (.inr (same ▸ next))

/-- The group that has just been looked up. -/
theorem Tightened.covered_self (tightened : context.Tightened answer progress group state following)
    (proper : context.Proper) (located : context.GroupAt index group state) :
    context.Covers answer following.maxHitSizeTokens group state ∨
      following.deferLookup = true ∨ index ∈ following.lookupGroups := by
  by_cases answered : context.scan answer group state (cappedHit progress group state) = none
  · rcases tightened.retry with ⟨_, all⟩ | ⟨_, _, _, known, _⟩ | ⟨_, _, deferred⟩
    · exact .inr (.inr (all ▸ located.mem_lookupGroups))
    · exact absurd answered known
    · exact .inr (.inl (by simp [deferred, answered]))
  · exact .inl (tightened.covers (proper.sizes group located.mem)
      (proper.windows group located.mem) answered)

theorem Looking.next (proper : context.Proper)
    (looking : context.Looking answer bound (index :: rest) progress)
    (located : context.GroupAt index group state)
    (tightened : context.Tightened answer progress group state following) :
    context.Looking answer bound rest following := by
  have counted : following.numHitTokens ≤ bound := by
    have hit := tightened.numHit
    have least := tightened.maxHit_le
    have most := looking.maxHit
    have within := looking.within
    rcases looking.numHit with same | ⟨_, wide, _, _⟩ <;> omega
  constructor
  · exact fun other mem => looking.located other (mem_cons_of_mem index mem)
  · intro other mem
    rcases tightened.lookupGroups_cases with same | windows | all
    · exact looking.locatedNext other (same ▸ mem)
    · exact slidingWindowGroups_subset (windows ▸ mem)
    · exact all ▸ mem
  · intro more other windowed
    rcases tightened.lookupGroups_cases with same | windows | all
    · exact same ▸ looking.windowsNext (same ▸ more) other windowed
    · exact windows ▸ windowed
    · exact all ▸ slidingWindowGroups_subset windowed
  · intro other otherGroup otherState placed passed
    by_cases this : other = index
    · subst this
      have sameGroup := Option.some.inj (located.configured.symm.trans placed.configured)
      have sameState := Option.some.inj (located.stated.symm.trans placed.stated)
      subst sameGroup sameState
      exact tightened.covered_self proper located
    · exact looking.covered_next proper tightened (proper.sizes group located.mem) placed
        (by simp [this, passed])
  · intro other windowed passed
    rw [tightened.lookedUp, Bool.or_eq_true]
    by_cases this : other = index
    · obtain ⟨otherGroup, configured, some_⟩ :=
        mem_slidingWindowGroups.mp windowed
      rw [this, located.configured] at configured
      cases configured
      exact .inr (Option.isSome_iff_ne_none.mpr some_)
    · exact .inl (looking.lookedUp other windowed (by simp [this, passed]))
  · exact .inl tightened.numHit
  · exact tightened.maxHit_le.trans looking.maxHit
  · exact counted
  · intro more
    rcases tightened.retry with ⟨less, _⟩ | ⟨less, _⟩ | ⟨_, same, _⟩
    · exact less.trans_le looking.within
    · exact less.trans_le looking.within
    · have before := looking.shorter (same ▸ more)
      have least := tightened.maxHit_le
      have hit := tightened.numHit
      rcases looking.numHit with counted | ⟨_, _, nothing, _⟩
      · omega
      · exact absurd (same.trans nothing) more

theorem looking_invariant (proper : context.Proper) :
    context.Invariant answer (context.Looking answer) where
  located := by
    intro bound index rest progress looking
    obtain ⟨group, configured⟩ := mem_lookupGroups.mp (looking.located index mem_cons_self)
    obtain ⟨state, stated, hashed⟩ := proper.states index group configured
    exact ⟨group, state, configured, stated, hashed⟩
  next := fun located looking next => looking.next proper located (tightened_of_nextProgress next)
  again := by
    intro bound progress looking more
    refine ⟨progress.numHitTokens, looking.shorter more, ?_⟩
    constructor
    · exact looking.locatedNext
    · simp
    · simp
    · intro index group state placed passed
      rcases looking.covered placed (by simp) with covers | waits | next
      · exact .inl covers
      · exact .inr (.inl waits)
      · exact absurd next passed
    · exact fun index windowed passed =>
        absurd (looking.windowsNext more index windowed) passed
    · rcases looking.numHit with counted | ⟨_, _, nothing, _⟩
      · exact .inl counted
      · exact absurd nothing more
    · exact looking.maxHit
    · exact le_rfl
    · simp

end Covered

section Results

variable {holds : Nat → List Nat → LookupProgress → Prop}

/-- The state in which a lookup begins. -/
def start (context : LookupContext) : LookupProgress where
  maxHitSizeTokens :=
    if context.config.slidingWindowGroups.isEmpty then context.numTokens
    else context.numTokens - 1
  lookupGroups := context.config.lookupGroups

/-- The answer to the state in which a lookup ends. -/
def report (context : LookupContext) (blocksBeingLoaded : Option (List OffloadKey))
    (final : LookupProgress) : Option Nat :=
  if final.deferLookup then none
  else if (context.config.kvGroupConfigs.zipWith (context.hitKeys final.numHitTokens)
      context.status.groupStates).flatten.any fun key =>
        decide (key ∈ blocksBeingLoaded.getD []) then none
  else some final.numHitTokens

variable {blocksBeingLoaded : Option (List OffloadKey)}

/-- Without loads in flight only deferred answers have to wait. -/
theorem report_of_idle (idle : blocksBeingLoaded.getD [] = []) (final : LookupProgress) :
    context.report blocksBeingLoaded final =
      unlessDeferred final.deferLookup final.numHitTokens := by
  unfold report unlessDeferred
  simp [idle]

theorem le_of_report (reported : context.report blocksBeingLoaded final = some hit) :
    final.deferLookup = false ∧ final.numHitTokens = hit := by
  unfold report at reported
  split at reported
  · cases reported
  · next settled =>
    split at reported
    · cases reported
    · cases reported
      exact ⟨by simpa using settled, rfl⟩

include answers in
/-- A lookup always ends: without a hit, or in a state that its invariant describes. -/
theorem Invariant.lookup (invariant : context.Invariant answer holds)
    (blocksBeingLoaded : Option (List OffloadKey)) (groups : context.config.lookupGroups ≠ [])
    (begun : holds context.numTokens context.config.lookupGroups
      { context.start with lookupGroups := [], lookedUpSlidingWindow := false })
    {manager : CPUOffloadingManager}
    (fresh : kept manager) :
    ∃ result after, context.lookup blocksBeingLoaded manager = .ok (result, after) ∧ kept after ∧
        ((result = some 0 ∧ context.GivesUp answer holds) ∨
          ∃ bound final, holds bound [] final ∧ final.lookupGroups = [] ∧
            result = context.report blocksBeingLoaded final) := by
  obtain ⟨found, after, looked, stays, held, gaveUp⟩ :=
    invariant.lookupRounds answers (context.numTokens + 2) context.start groups begun (by omega)
      fresh
  change ∃ result last, (context.lookupRounds (context.numTokens + 2) context.start manager >>= _) =
    _ ∧ _
  rw [looked]
  cases found with
  | none => exact ⟨some 0, after, rfl, stays, .inl ⟨rfl, gaveUp rfl⟩⟩
  | some final =>
    obtain ⟨ended, bound, holdsFinal⟩ := held final rfl
    refine ⟨context.report blocksBeingLoaded final, after, ?_, stays,
      .inr ⟨bound, final, holdsFinal, ended, rfl⟩⟩
    unfold report
    dsimp only [bind, Except.bind]
    split
    · rfl
    · split <;> rfl

theorem looking_start :
    context.Looking answer context.numTokens context.config.lookupGroups
      { context.start with lookupGroups := [], lookedUpSlidingWindow := false } where
  located := fun _ mem => mem
  locatedNext := by simp
  windowsNext := by simp
  covered := fun placed passed => absurd placed.mem_lookupGroups passed
  lookedUp := fun _ windowed passed => absurd (slidingWindowGroups_subset windowed) passed
  numHit := Or.inr ⟨rfl, le_rfl, rfl, fun _ mem => mem⟩
  maxHit := by
    unfold start
    dsimp only
    split <;> omega
  within := zero_le _
  shorter := by simp

include answers in
/-- The tokens a lookup reports are covered in every group. -/
theorem covers_of_lookup (proper : context.Proper) (blocksBeingLoaded : Option (List OffloadKey))
    (groups : context.config.lookupGroups ≠ []) (fresh : kept manager) :
    ∃ result after, context.lookup blocksBeingLoaded manager = .ok (result, after) ∧
      kept after ∧ ∀ hit, result = some hit → 0 < hit →
        ∀ {index group state}, context.GroupAt index group state →
          context.Covers answer (context.numComputedTokens + hit) group state := by
  obtain ⟨result, after, looked, stays, outcome⟩ :=
    (looking_invariant proper).lookup answers blocksBeingLoaded groups looking_start fresh
  refine ⟨result, after, looked, stays, ?_⟩
  intro hit reported positive index group state placed
  rcases outcome with ⟨nothing, _⟩ | ⟨bound, final, looking, ended, answered⟩
  · cases nothing.symm.trans reported
    exact absurd positive (lt_irrefl 0)
  · obtain ⟨settled, counted⟩ := le_of_report (answered.symm.trans reported)
    have whole : final.maxHitSizeTokens = context.numComputedTokens + hit := by
      rcases looking.numHit with same | ⟨zero, _⟩ <;> omega
    rcases looking.covered placed (by simp) with covers | waits | next
    · exact whole ▸ covers
    · exact absurd waits (by simp [settled])
    · exact absurd next (by simp [ended])

section Reached

variable {stop : Nat} {progress : LookupProgress} {group : GroupOffloadConfig}
  {state : RequestGroupState} {index : Nat}

/-- A group that covers a boundary does not shorten a hit below it. -/
theorem stop_le_nextProgress (proper : context.Proper)
    (nothing : context.numComputedTokens = 0) (placed : context.GroupAt index group state)
    (decided : ∀ key ∈ state.offloadKeys, answer key ≠ none)
    (large : group.offloadedBlockSize ≤ stop)
    (covered : CoveredBetween answer group state.offloadKeys 0
      (cdiv stop group.offloadedBlockSize).toNat) (before : stop ≤ progress.maxHitSizeTokens) :
    ∃ following, context.nextProgress answer progress group state = some following ∧
      stop ≤ following.maxHitSizeTokens ∧
        (progress.deferLookup = false → following.deferLookup = false) := by
  have sized := proper.sizes group placed.mem
  have nonempty := proper.windows group placed.mem
  have whole := (toNat_cdiv_le_iff sized).mp (le_refl (cdiv stop group.offloadedBlockSize).toNat)
  set blocks := (cdiv stop group.offloadedBlockSize).toNat with isBlocks
  have found : 0 < blocks := Nat.pos_of_ne_zero fun zero => by
    rw [zero, Nat.zero_mul] at whole
    omega
  have hashed : blocks ≤ state.offloadKeys.length := by
    have last := covered (blocks - 1) (Nat.zero_le _) (by omega)
      (fun window windowed => by have := nonempty window windowed; omega)
    have := last.lt_length
    omega
  have capped : stop ≤ cappedHit progress group state :=
    le_min before (whole.trans (Nat.mul_le_mul_right _ hashed))
  have reached : blocks ≤ (cdiv (cappedHit progress group state) group.offloadedBlockSize).toNat :=
    (toNat_cdiv_le_iff sized).mpr (capped.trans ((toNat_cdiv_le_iff sized).mp le_rfl))
  have scanned : ∃ hits, context.scan answer group state (cappedHit progress group state) =
      some hits ∧ blocks ≤ hits := by
    unfold scan
    rw [nothing, Nat.zero_div]
    refine le_groupHits ?_ nonempty ?_ ?_
    · exact fun key mem => decided key (List.mem_of_mem_take (List.mem_of_mem_drop mem))
    · simp only [slice, List.length_drop, List.length_take]
      omega
    · intro index behind inside close
      refine hit_slice_iff.mpr ⟨by omega, ?_⟩
      rw [Nat.zero_add]
      exact covered index behind inside close
  obtain ⟨hits, scanned, enough⟩ := scanned
  have tightened : stop ≤ context.tightenedHit group (cappedHit progress group state)
      (some hits) := by
    refine le_min capped (whole.trans ?_)
    rw [Nat.mul_comm]
    exact Nat.mul_le_mul_left _ (enough.trans (Nat.le_add_left hits _))
  have longEnough : ¬ cappedHit progress group state - context.numComputedTokens <
      group.offloadedBlockSize := by omega
  have hit : ¬ context.tightenedHit group (cappedHit progress group state) (some hits) -
      context.numComputedTokens < group.offloadedBlockSize := by omega
  unfold nextProgress
  rw [if_neg longEnough]
  change ∃ following, context.tighten group _
    (context.scan answer group state (cappedHit progress group state)) = some following ∧ _
  rw [scanned, tighten_eq, if_neg (by simp; omega)]
  rw [if_neg hit]
  exact ⟨_, rfl, tightened, fun settled => by simp [settled]⟩

include answers in
/-- A lookup of decided keys reports at least the tokens up to a boundary that every group
covers. -/
theorem stop_le_lookup (proper : context.Proper)
    (groups : context.config.lookupGroups ≠ []) (nothing : context.numComputedTokens = 0)
    (decided : ∀ {index group state}, context.GroupAt index group state →
      ∀ key ∈ state.offloadKeys, answer key ≠ none) (longer : stop < context.numTokens)
    (large : ∀ group ∈ context.config.kvGroupConfigs, group.offloadedBlockSize ≤ stop)
    (covered : ∀ {index group state}, context.GroupAt index group state →
      CoveredBetween answer group state.offloadKeys 0 (cdiv stop group.offloadedBlockSize).toNat)
    (idle : blocksBeingLoaded.getD [] = []) (fresh : kept manager) :
    ∃ hit after, context.lookup blocksBeingLoaded manager = .ok (some hit, after) ∧ stop ≤ hit := by
  let holds : Nat → List Nat → LookupProgress → Prop := fun bound remaining progress =>
    context.Looking answer bound remaining progress ∧ stop ≤ progress.maxHitSizeTokens ∧
      progress.deferLookup = false
  have advances : ∀ {index group state}, context.GroupAt index group state →
      ∀ {progress : LookupProgress}, stop ≤ progress.maxHitSizeTokens → ∃ following,
        context.nextProgress answer progress group state = some following ∧
          stop ≤ following.maxHitSizeTokens ∧
            (progress.deferLookup = false → following.deferLookup = false) :=
    fun placed _ before => stop_le_nextProgress proper nothing placed (decided placed)
      (large _ placed.mem) (covered placed) before
  have invariant : context.Invariant answer holds := by
    constructor
    · exact fun held => (looking_invariant proper).located held.1
    · intro bound index rest progress group state following placed held next
      obtain ⟨other, same, reached, settled⟩ := advances placed held.2.1
      cases same.symm.trans next
      exact ⟨(looking_invariant proper).next placed held.1 next, reached, settled held.2.2⟩
    · intro bound progress held more
      obtain ⟨smaller, less, again⟩ := (looking_invariant proper).again held.1 more
      exact ⟨smaller, less, again, held.2⟩
  have begun : holds context.numTokens context.config.lookupGroups
      { context.start with lookupGroups := [], lookedUpSlidingWindow := false } := by
    refine ⟨looking_start, ?_, rfl⟩
    unfold start
    dsimp only
    split <;> omega
  obtain ⟨result, after, looked, _, outcome⟩ :=
    invariant.lookup answers blocksBeingLoaded groups begun fresh
  rcases outcome with ⟨_, gaveUp⟩ | ⟨bound, final, ⟨looking, reached, settled⟩, ended, reported⟩
  · obtain ⟨_, index, _, progress, group, state, placed, held, failed⟩ := gaveUp
    obtain ⟨following, next, _⟩ := advances placed held.2.1
    exact absurd (failed.symm.trans next) (by simp)
  · rw [report_of_idle idle, settled] at reported
    refine ⟨final.numHitTokens, after, by rw [looked, reported]; rfl, ?_⟩
    rcases looking.numHit with counted | ⟨_, _, _, all⟩
    · omega
    · exact absurd (eq_nil_of_subset_nil all) groups

end Reached

end Results

end LookupContext

end TokenCake
