import TokenCake.Offload.Connector

/-!
# Scans of the keys of a group

The cache does not change during a lookup, so that every query is answered by the state of
its key.  A scan for a prefix or for a window reports hits only, and it reports every prefix
or window of hits as long as no answer is deferred.
-/

namespace TokenCake

/-- Queries are answered from a fixed table as long as the manager stays in a class. -/
def Answers (query : BlockLookup) (kept : CPUOffloadingManager → Prop)
    (answer : OffloadKey → Option Bool) : Prop :=
  ∀ manager key, kept manager →
    ∃ after, query manager key = .ok (answer key, after) ∧ kept after

/-- The block at an index is stored. -/
def Hit (answer : OffloadKey → Option Bool) (keys : List OffloadKey) (index : Nat) : Prop :=
  ∃ key, keys[index]? = some key ∧ answer key = some true

theorem Hit.lt_length (hit : Hit answer keys index) : index < keys.length := by
  obtain ⟨key, found, _⟩ := hit
  exact (List.getElem?_eq_some_iff.mp found).1

theorem toNat_cdiv_le_iff {total bound size : Nat} (positive : 0 < size) :
    (cdiv total size).toNat ≤ bound ↔ total ≤ bound * size := by
  rw [Int.toNat_le, cdiv_le_iff positive]
  exact_mod_cast Iff.rfl

theorem toNat_cdiv_of_dvd {total size : Nat} (positive : 0 < size) (divides : size ∣ total) :
    (cdiv total size).toNat = total / size := by
  obtain ⟨blocks, rfl⟩ := divides
  rw [Nat.mul_div_cancel_left blocks positive]
  apply le_antisymm
  · rw [toNat_cdiv_le_iff positive, Nat.mul_comm]
  · have whole := (toNat_cdiv_le_iff positive).mp (le_refl (cdiv (size * blocks : Nat) size).toNat)
    rw [Nat.mul_comm _ size] at whole
    exact Nat.le_of_mul_le_mul_left whole positive

variable {stop : Nat}

section Scans

variable (answer : OffloadKey → Option Bool)

/-- Number of leading hits. -/
def prefixHits : List OffloadKey → Nat → Bool → Option Nat
  | [], hitCount, deferred => unlessDeferred deferred hitCount
  | key :: rest, hitCount, deferred =>
    match answer key with
    | none => prefixHits rest (hitCount + 1) true
    | some true => prefixHits rest (hitCount + 1) deferred
    | some false => unlessDeferred deferred hitCount

/-- End of the last window of hits; the keys are given from the last to the first one. -/
def windowHits (window : Nat) : List OffloadKey → Nat → Bool → Option Nat
  | [], consecutiveHits, deferred => unlessDeferred deferred consecutiveHits
  | key :: rest, consecutiveHits, deferred =>
    match answer key with
    | none => windowHits window rest 0 true
    | some false => windowHits window rest 0 deferred
    | some true =>
      if consecutiveHits + 1 = window then unlessDeferred deferred (rest.length + window)
      else windowHits window rest (consecutiveHits + 1) deferred

variable {answer}
variable {query : BlockLookup} {kept : CPUOffloadingManager → Prop}
  {manager : CPUOffloadingManager} {consecutiveHits window hits : Nat} {deferred : Bool}

theorem maximalPrefixLookup_eq (answers : Answers query kept answer) (keys : List OffloadKey)
    (hitCount : Nat) (deferred : Bool) (start : kept manager) :
    ∃ after, maximalPrefixLookup query keys hitCount deferred manager =
      .ok (prefixHits answer keys hitCount deferred, after) ∧ kept after := by
  induction keys generalizing hitCount deferred manager with
  | nil => exact ⟨manager, rfl, start⟩
  | cons key rest ih =>
    obtain ⟨next, queried, stays⟩ := answers manager key start
    unfold maximalPrefixLookup prefixHits
    simp only [queried, bind, Except.bind]
    cases answer key with
    | none => exact ih _ _ stays
    | some hit =>
      cases hit with
      | false => exact ⟨next, rfl, stays⟩
      | true => exact ih _ _ stays

theorem slidingWindowLookup_eq (answers : Answers query kept answer) (window : Nat)
    (keys : List OffloadKey) (consecutiveHits : Nat) (deferred : Bool) (start : kept manager) :
    ∃ after, slidingWindowLookup query window keys consecutiveHits deferred manager =
      .ok (windowHits answer window keys consecutiveHits deferred, after) ∧ kept after := by
  induction keys generalizing consecutiveHits deferred manager with
  | nil => exact ⟨manager, rfl, start⟩
  | cons key rest ih =>
    obtain ⟨next, queried, stays⟩ := answers manager key start
    unfold slidingWindowLookup windowHits
    simp only [queried, bind, Except.bind]
    cases answer key with
    | none => exact ih _ _ stays
    | some hit =>
      cases hit with
      | false => exact ih _ _ stays
      | true =>
        dsimp only
        split
        · exact ⟨next, rfl, stays⟩
        · exact ih _ _ stays

theorem unlessDeferred_eq_some {deferred : Bool} {count hits : Nat} :
    unlessDeferred deferred count = some hits ↔ deferred = false ∧ count = hits := by
  unfold unlessDeferred
  cases deferred <;> simp

variable {keys rest : List OffloadKey}

theorem hit_of_prefixHits (reported : prefixHits answer keys hitCount deferred = some hits) :
    deferred = false ∧ ∀ index, hitCount + index < hits → Hit answer keys index := by
  induction keys generalizing hitCount deferred with
  | nil =>
    obtain ⟨settled, rfl⟩ := unlessDeferred_eq_some.mp reported
    exact ⟨settled, fun index inside => absurd inside (by omega)⟩
  | cons key rest ih =>
    unfold prefixHits at reported
    split at reported
    · exact absurd (ih reported).1 (by simp)
    · next stored =>
      obtain ⟨settled, hit⟩ := ih reported
      refine ⟨settled, fun index inside => ?_⟩
      cases index with
      | zero => exact ⟨key, rfl, stored⟩
      | succ index => exact hit index (by omega)
    · obtain ⟨settled, rfl⟩ := unlessDeferred_eq_some.mp reported
      exact ⟨settled, fun index inside => absurd inside (by omega)⟩

/-- A prefix of hits is reported, if no answer is deferred. -/
theorem le_prefixHits (decided : ∀ key ∈ keys, answer key ≠ none) {count : Nat}
    (hits : ∀ index < count, Hit answer keys index) (hitCount : Nat) :
    ∃ reported, prefixHits answer keys hitCount false = some reported ∧
      hitCount + count ≤ reported := by
  induction keys generalizing count hitCount with
  | nil =>
    refine ⟨hitCount, rfl, ?_⟩
    cases count with
    | zero => exact le_rfl
    | succ count => exact absurd (hits 0 (by omega)).lt_length (by simp)
  | cons key rest ih =>
    unfold prefixHits
    split
    · next pending => exact absurd pending (decided key (by simp))
    · have later : ∀ index < count - 1, Hit answer rest index :=
        fun index inside => hits (index + 1) (by omega)
      obtain ⟨reported, returned, enough⟩ := ih
        (fun other mem => decided other (by simp [mem])) later (hitCount + 1)
      exact ⟨reported, returned, by omega⟩
    · next missing =>
      refine ⟨hitCount, rfl, ?_⟩
      cases count with
      | zero => exact le_rfl
      | succ count =>
        obtain ⟨first, found, stored⟩ := hits 0 (by omega)
        cases found
        exact absurd (missing.symm.trans stored) (by simp)

/-- The keys in front of the last one, and the last one. -/
theorem split_reverse_prefix (front : (key :: rest).reverse <+: keys) :
    rest.reverse <+: keys ∧ keys[rest.length]? = some key := by
  obtain ⟨behind, whole⟩ := front
  have appended : rest.reverse ++ (key :: behind) = keys := by simpa using whole
  refine ⟨⟨key :: behind, appended⟩, ?_⟩
  rw [← appended, List.getElem?_append_right (by simp)]
  simp

/-- A window that is reported consists of hits.  The scan has passed `consecutiveHits` hits
behind the remaining keys. -/
theorem hit_of_windowHits (front : rest.reverse <+: keys)
    (passed : ∀ index, rest.length ≤ index → index < rest.length + consecutiveHits →
      Hit answer keys index)
    (reported : windowHits answer window rest consecutiveHits deferred = some hits) :
    deferred = false ∧ ∀ index, index < hits → hits ≤ index + window → Hit answer keys index := by
  induction rest generalizing consecutiveHits deferred with
  | nil =>
    obtain ⟨settled, rfl⟩ := unlessDeferred_eq_some.mp reported
    exact ⟨settled, fun index inside _ => passed index (by simp) (by simpa using inside)⟩
  | cons key rest ih =>
    obtain ⟨shorter, last⟩ := split_reverse_prefix front
    have none : ∀ index, rest.length ≤ index → index < rest.length + 0 →
        Hit answer keys index := fun index _ _ => by omega
    unfold windowHits at reported
    split at reported
    · exact absurd (ih shorter none reported).1 (by simp)
    · exact ih shorter none reported
    · next stored =>
      have extended : ∀ index, rest.length ≤ index →
          index < rest.length + (consecutiveHits + 1) → Hit answer keys index := by
        intro index behind inside
        rcases Nat.eq_or_lt_of_le behind with rfl | later
        · exact ⟨key, last, stored⟩
        · exact passed index later (by simp; omega)
      split at reported
      · next complete =>
        obtain ⟨settled, rfl⟩ := unlessDeferred_eq_some.mp reported
        exact ⟨settled, fun index inside close => extended index (by omega) (by omega)⟩
      · exact ih shorter extended reported

/-- A window of hits is reported, or one behind it, if no answer is deferred. -/
theorem le_windowHits (front : rest.reverse <+: keys)
    (decided : ∀ key ∈ rest, answer key ≠ none) (incomplete : consecutiveHits < window)
    (inside : stop ≤ rest.length + consecutiveHits)
    (hits : ∀ index, index < stop → index < rest.length → stop ≤ index + window →
      Hit answer keys index) :
    ∃ reported, windowHits answer window rest consecutiveHits false = some reported ∧
      stop ≤ reported := by
  induction rest generalizing consecutiveHits with
  | nil => exact ⟨consecutiveHits, rfl, by simpa using inside⟩
  | cons key rest ih =>
    obtain ⟨shorter, last⟩ := split_reverse_prefix front
    have decidedRest : ∀ other ∈ rest, answer other ≠ none :=
      fun other mem => decided other (by simp [mem])
    have hitsRest : ∀ index, index < stop → index < rest.length → stop ≤ index + window →
        Hit answer keys index :=
      fun index before earlier close => hits index before (by simp; omega) close
    rw [List.length_cons] at inside
    unfold windowHits
    split
    · next pending => exact absurd pending (decided key (by simp))
    · next missing =>
      -- A window that reaches this far would contain the missing block.
      have earlier : stop ≤ rest.length := by
        by_contra beyond
        obtain ⟨found, located, stored⟩ :=
          hits rest.length (by omega) (by simp) (by omega)
        cases last.symm.trans located
        exact absurd (missing.symm.trans stored) (by simp)
      exact ih shorter decidedRest (by omega) (by omega) hitsRest
    · split
      · exact ⟨rest.length + window, rfl, by omega⟩
      · exact ih shorter decidedRest (by omega) (by omega) hitsRest

end Scans

/-- The number of keys that a group hits, if the answers suffice. -/
def groupHits (answer : OffloadKey → Option Bool) (group : GroupOffloadConfig)
    (keys : List OffloadKey) : Option Nat :=
  match group.slidingWindowSizeInBlocks with
  | none => prefixHits answer keys 0 false
  | some window => windowHits answer window keys.reverse 0 false

/-- The blocks between two indices that a hit needs are stored: all of them, or those of the
last window. -/
def CoveredBetween (answer : OffloadKey → Option Bool) (group : GroupOffloadConfig)
    (keys : List OffloadKey) (start stop : Nat) : Prop :=
  ∀ index, start ≤ index → index < stop →
    (∀ window, group.slidingWindowSizeInBlocks = some window → stop ≤ index + window) →
      Hit answer keys index

section Groups

variable {answer : OffloadKey → Option Bool} {group : GroupOffloadConfig} {keys : List OffloadKey}
  {hits : Nat}

theorem coveredBetween_of_groupHits (reported : groupHits answer group keys = some hits) :
    CoveredBetween answer group keys 0 hits := by
  intro index _ inside close
  unfold groupHits at reported
  split at reported
  · exact (hit_of_prefixHits reported).2 index (by omega)
  · next window windowed =>
    have whole : keys.reverse.reverse <+: keys := by simp
    have none : ∀ index, keys.reverse.length ≤ index → index < keys.reverse.length + 0 →
        Hit answer keys index := fun index _ _ => by omega
    exact (hit_of_windowHits whole none reported).2 index inside (close window windowed)

/-- What a scan reports lies inside the keys. -/
theorem groupHits_le_length
    (nonempty : ∀ window, group.slidingWindowSizeInBlocks = some window → 0 < window)
    (reported : groupHits answer group keys = some hits) : hits ≤ keys.length := by
  rcases Nat.eq_zero_or_pos hits with rfl | positive
  · exact Nat.zero_le _
  · have last := coveredBetween_of_groupHits reported (hits - 1) (Nat.zero_le _) (by omega)
      (fun window windowed => by have := nonempty window windowed; omega)
    have := last.lt_length
    omega

theorem le_groupHits (decided : ∀ key ∈ keys, answer key ≠ none)
    (nonempty : ∀ window, group.slidingWindowSizeInBlocks = some window → 0 < window)
    (inside : stop ≤ keys.length) (covered : CoveredBetween answer group keys 0 stop) :
    ∃ hits, groupHits answer group keys = some hits ∧ stop ≤ hits := by
  unfold groupHits
  split
  · next full =>
    have hits : ∀ index < stop, Hit answer keys index := fun index before =>
      covered index (Nat.zero_le index) before (by simp [full])
    obtain ⟨reported, returned, enough⟩ := le_prefixHits decided hits 0
    exact ⟨reported, returned, by omega⟩
  · next window windowed =>
    have whole : keys.reverse.reverse <+: keys := by simp
    apply le_windowHits whole (by simpa using decided) (nonempty window windowed)
      (by simpa using inside)
    intro index before _ close
    exact covered index (Nat.zero_le index) before
      (fun other same => by cases windowed.symm.trans same; exact close)

theorem hit_slice_iff {start stop index : Nat} :
    Hit answer (slice keys start stop) index ↔
      start + index < stop ∧ Hit answer keys (start + index) := by
  unfold Hit slice
  rw [List.getElem?_drop, List.getElem?_take]
  split
  · next inside => simp [inside]
  · next outside => simp [outside]

/-- A scan of some keys of a group covers the blocks it reports. -/
theorem coveredBetween_of_slice
    (reported : groupHits answer group (slice keys start stop) = some hits) :
    CoveredBetween answer group keys start (start + hits) := by
  intro index behind inside close
  obtain ⟨offset, rfl⟩ := Nat.exists_eq_add_of_le behind
  have hit := coveredBetween_of_groupHits reported offset (Nat.zero_le offset) (by omega)
    (fun window windowed => by have := close window windowed; omega)
  exact (hit_slice_iff.mp hit).2

end Groups

end TokenCake
