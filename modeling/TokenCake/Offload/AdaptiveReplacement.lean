import TokenCake.Offload.CachePolicy

/-!
# The lists of adaptive replacement

Over any history of the policy a key is in at most one of the four lists, the ghost
lists stay within the capacity of the cache and the target within zero and it.
-/

namespace TokenCake

theorem Dict.length_le_of_mem [DecidableEq κ] {small large : Dict κ ν}
    (within : ∀ key ∈ small, key ∈ large) : small.entries.length ≤ large.entries.length := by
  have shorter := (List.subperm_of_subset small.nodup within).length_le
  rwa [List.length_map, keys, List.length_map] at shorter

namespace ARCCachePolicy

/-- No key is in two of the lists. -/
def Apart (policy : ARCCachePolicy) : Prop :=
  ∀ key, (key ∈ policy.t1 → key ∉ policy.t2 ∧ key ∉ policy.b1 ∧ key ∉ policy.b2) ∧
    (key ∈ policy.t2 → key ∉ policy.b1 ∧ key ∉ policy.b2) ∧ (key ∈ policy.b1 → key ∉ policy.b2)

/-- The policy keeps its lists apart and within its capacity. -/
structure Sound (capacity : Nat) (policy : ARCCachePolicy) : Prop where
  cacheCapacity : policy.cacheCapacity = capacity
  apart : policy.Apart
  b1_length : policy.b1.entries.length ≤ capacity
  b2_length : policy.b2.entries.length ≤ capacity
  target_nonneg : 0 ≤ policy.targetT1Size
  target_le : policy.targetT1Size ≤ capacity

theorem get_ne_none_iff (policy : ARCCachePolicy) (key : OffloadKey) :
    policy.get key ≠ none ↔ key ∈ policy.t1 ∨ key ∈ policy.t2 := by
  rw [get, ne_eq, Option.or_eq_none_iff, Dict.get?_eq_none_iff, Dict.get?_eq_none_iff]
  tauto

variable {capacity : Nat} {policy next : ARCCachePolicy} {key : OffloadKey}

theorem Sound.init (round : ℚ → ℚ) :
    Sound capacity { cacheCapacity := capacity, round := round } :=
  ⟨rfl, fun key => by simp, Nat.zero_le _, Nat.zero_le _, le_rfl, Nat.cast_nonneg capacity⟩

namespace Sound

variable (sound : Sound capacity policy)
include sound

theorem insert (mayInsert : key ∉ policy.t2) (block : BlockStatus) :
    Sound capacity (policy.insert key block) := by
  refine { sound with apart := fun other => ?_, b1_length := ?_, b2_length := ?_ }
  · have apart := sound.apart other
    grind [ARCCachePolicy.insert, Dict.mem_set, Dict.mem_erase]
  · exact (Dict.length_le_of_mem fun other mem => (Dict.mem_erase.mp mem).2).trans sound.b1_length
  · exact (Dict.length_le_of_mem fun other mem => (Dict.mem_erase.mp mem).2).trans sound.b2_length

theorem remove (key : OffloadKey) : Sound capacity (policy.remove key) := by
  unfold ARCCachePolicy.remove
  split
  all_goals
    refine { sound with apart := fun other => ?_ }
    grind [sound.apart other, Dict.mem_erase]

theorem setRefCnt (key : OffloadKey) (refCnt : Int) :
    Sound capacity (policy.setRefCnt key refCnt) := by
  unfold ARCCachePolicy.setRefCnt
  split
  all_goals
    refine { sound with apart := fun other => ?_ }
    grind [sound.apart other, Dict.mem_modify]

/-- A ghost hit moves the target within its bounds. -/
theorem touchKey (exactly : policy.round = id) (key : OffloadKey) :
    Sound capacity (policy.touchKey key) := by
  have apart : (policy.touchKey key).Apart := by
    intro other
    have others := sound.apart other
    unfold ARCCachePolicy.touchKey
    grind [Dict.mem_set, Dict.mem_erase, Dict.mem_moveToEnd, Dict.mem_of_get?_eq_some]
  have delta (ratio : ℚ) : 0 ≤ max 1 ratio := zero_le_one.trans (le_max_left 1 ratio)
  revert apart
  unfold ARCCachePolicy.touchKey
  rw [exactly]
  split
  · split <;> exact fun apart => { sound with apart }
  · split
    · exact fun apart => { sound with apart }
    · split
      · refine fun apart =>
          { sound with apart, b1_length := ?_, target_nonneg := ?_, target_le := ?_ }
        · exact (Dict.length_le_of_mem fun other => Dict.mem_moveToEnd.mp).trans sound.b1_length
        · exact le_min (add_nonneg sound.target_nonneg (delta _)) (Nat.cast_nonneg _)
        · exact (min_le_right ..).trans (by rw [sound.cacheCapacity])
      · split
        · refine fun apart =>
            { sound with apart, b2_length := ?_, target_nonneg := ?_, target_le := ?_ }
          · exact (Dict.length_le_of_mem fun other => Dict.mem_moveToEnd.mp).trans sound.b2_length
          · exact le_max_right ..
          · exact max_le ((sub_le_self _ (delta _)).trans sound.target_le) (Nat.cast_nonneg _)
        · exact fun _ => sound

theorem touch (exactly : policy.round = id) (keys : List OffloadKey) :
    (policy.touch keys).round = id ∧ Sound capacity (policy.touch keys) := by
  unfold ARCCachePolicy.touch
  generalize keys.reverse = order
  induction order generalizing policy with
  | nil => exact ⟨exactly, sound⟩
  | cons key rest ih =>
    refine ih (sound.touchKey exactly key) ?_
    rw [← exactly]
    unfold ARCCachePolicy.touchKey
    grind

end Sound

/-- The list that an evicted block is taken from. -/
abbrev source (policy : ARCCachePolicy) (entry : OffloadKey × BlockStatus × Bool) :
    Dict OffloadKey BlockStatus :=
  if entry.2.2 then policy.t1 else policy.t2

/-- Blocks go to the ghost list of the list they are in. -/
theorem Apart.foldl_discard {chosen : List (OffloadKey × BlockStatus × Bool)}
    (apart : policy.Apart) (nodup : (chosen.map Prod.fst).Nodup)
    (located : ∀ entry ∈ chosen, entry.1 ∈ policy.source entry) :
    (chosen.foldl discard policy).Apart := by
  induction chosen generalizing policy with
  | nil => exact apart
  | cons head rest ih =>
    rw [List.map_cons, List.nodup_cons] at nodup
    rw [List.forall_mem_cons] at located
    refine ih (fun other => ?_) nodup.2 fun entry mem => ?_
    · have others := apart other
      have own := located.1
      unfold discard source at *
      split
      all_goals grind [Dict.mem_set, Dict.mem_erase]
    · have different : entry.1 ≠ head.1 := fun same =>
        nodup.1 (same ▸ List.mem_map_of_mem mem)
      have own := located.2 entry mem
      unfold discard source at *
      split
      all_goals
        split
        all_goals grind [Dict.mem_erase]

theorem foldl_discard_eq (chosen : List (OffloadKey × BlockStatus × Bool))
    (policy : ARCCachePolicy) :
    (chosen.foldl discard policy).cacheCapacity = policy.cacheCapacity ∧
      (chosen.foldl discard policy).round = policy.round ∧
        (chosen.foldl discard policy).targetT1Size = policy.targetT1Size := by
  induction chosen generalizing policy with
  | nil => exact ⟨rfl, rfl, rfl⟩
  | cons head rest ih =>
    rw [List.foldl_cons, (ih _).1, (ih _).2.1, (ih _).2.2]
    unfold discard
    split <;> exact ⟨rfl, rfl, rfl⟩

theorem Sound.evict (sound : Sound capacity policy)
    (returned : policy.evict n protectedKeys = some (evicted, next)) :
    next.round = policy.round ∧ Sound capacity next := by
  unfold ARCCachePolicy.evict at returned
  split at returned
  · cases returned
    exact ⟨rfl, sound⟩
  · obtain ⟨chosen, isChosen, returned⟩ := Option.bind_eq_some_iff.mp returned
    cases returned
    have disjoint : policy.Disjoint := fun key mem => ((sound.apart key).1 mem).1
    obtain ⟨_, nodup, spec⟩ := candidates_spec disjoint isChosen
    have apart := sound.apart.foldl_discard nodup fun entry mem => by
      obtain ⟨found, -, -, part⟩ := spec entry mem
      have present := (get_ne_none_iff policy entry.1).mp (by simp [found])
      unfold source
      split
      · next isT1 => exact part.mp isT1
      · next notT1 => exact present.resolve_left fun inT1 => notT1 (part.mpr inT1)
    obtain ⟨capacity_eq, round_eq, target_eq⟩ := foldl_discard_eq chosen policy
    have kept {dict : Dict OffloadKey Unit} {count : Nat} :
        ∀ key ∈ dict.dropOldest count, key ∈ dict := fun key mem =>
      ((List.drop_sublist ..).map Prod.fst).mem mem
    refine ⟨round_eq, capacity_eq.trans sound.cacheCapacity, fun key => ?_, ?_, ?_,
      target_eq ▸ sound.target_nonneg, target_eq ▸ sound.target_le⟩
    · grind [apart key]
    all_goals
      have bound := sound.cacheCapacity
      simp only [Dict.dropOldest, List.length_drop]
      omega

theorem exists_sound_of_reachable {reachedPolicy : CachePolicy}
    (reached : CachePolicy.Reachable (.arc { cacheCapacity := capacity }) reachedPolicy) :
    ∃ policy, reachedPolicy = .arc policy ∧ policy.round = id ∧ Sound capacity policy := by
  induction reached with
  | init => exact ⟨_, rfl, rfl, .init _⟩
  | insert _ mayInsert block ih =>
    obtain ⟨policy, rfl, exactly, sound⟩ := ih
    exact ⟨_, rfl, exactly, sound.insert mayInsert block⟩
  | remove _ key ih =>
    obtain ⟨policy, rfl, exactly, sound⟩ := ih
    refine ⟨_, rfl, ?_, sound.remove key⟩
    unfold ARCCachePolicy.remove
    split <;> exact exactly
  | touch _ keys ih =>
    obtain ⟨policy, rfl, exactly, sound⟩ := ih
    exact ⟨_, rfl, sound.touch exactly keys⟩
  | setRefCnt _ key refCnt ih =>
    obtain ⟨policy, rfl, exactly, sound⟩ := ih
    refine ⟨_, rfl, ?_, sound.setRefCnt key refCnt⟩
    unfold ARCCachePolicy.setRefCnt
    split <;> exact exactly
  | evict _ returned ih =>
    obtain ⟨policy, rfl, exactly, sound⟩ := ih
    obtain ⟨⟨_, next⟩, found, same⟩ := Option.map_eq_some_iff.mp returned
    cases same
    obtain ⟨kept, final⟩ := sound.evict found
    exact ⟨next, rfl, kept.trans exactly, final⟩
  | clear _ ih =>
    obtain ⟨policy, rfl, exactly, sound⟩ := ih
    exact ⟨_, rfl, exactly, sound.cacheCapacity ▸ .init _⟩

/-- Over every history with exact arithmetic no key is in two of the lists, the ghost lists and
the target stay within their bounds, and exactly the keys of `t1` and `t2` are found. -/
theorem sound_of_reachable
    (reached : CachePolicy.Reachable (.arc { cacheCapacity := capacity }) (.arc policy)) :
    Sound capacity policy ∧
      ∀ key, policy.get key ≠ none ↔ key ∈ policy.t1 ∨ key ∈ policy.t2 := by
  obtain ⟨_, same, -, sound⟩ := exists_sound_of_reachable reached
  cases same
  exact ⟨sound, get_ne_none_iff policy⟩

/-- A block that was used twice, and one that was used once. -/
def usedPolicy : ARCCachePolicy :=
  ((insert { cacheCapacity := 2 } ⟨7, 0⟩ ⟨0, 0⟩).touch [⟨7, 0⟩]).insert ⟨8, 0⟩ ⟨0, 1⟩

/-- The second block is evicted, and the miss of its key raises the target. -/
def missedPolicy : ARCCachePolicy :=
  ((usedPolicy.evict 1 []).get (by decide +kernel)).2.touch [⟨8, 0⟩]

theorem missedPolicy_sound :
    missedPolicy.t2.keys = [⟨7, 0⟩] ∧ missedPolicy.b1.keys = [⟨8, 0⟩] ∧
      missedPolicy.targetT1Size = 1 ∧ Sound 2 missedPolicy := by
  have start : CachePolicy.Reachable (.arc { cacheCapacity := 2 }) _ := .init
  have used : CachePolicy.Reachable (.arc { cacheCapacity := 2 }) (.arc usedPolicy) :=
    ((start.insert (CachePolicy.mayInsert_of_get_eq_none rfl) ⟨0, 0⟩).touch [⟨7, 0⟩]).insert
      (CachePolicy.mayInsert_of_get_eq_none (by decide +kernel)) ⟨0, 1⟩
  have evictable : (usedPolicy.evict 1 []).isSome = true := by decide +kernel
  have evicted := used.evict
    (Option.map_eq_some_iff.mpr ⟨_, (Option.some_get evictable).symm, rfl⟩)
  exact ⟨by decide +kernel, by decide +kernel, by decide +kernel,
    (sound_of_reachable (evicted.touch [⟨8, 0⟩])).1⟩

end ARCCachePolicy

end TokenCake
