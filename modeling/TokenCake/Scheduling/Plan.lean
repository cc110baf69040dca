import Mathlib.Algebra.BigOperators.Ring.List
import Mathlib.Algebra.Order.BigOperators.Group.List
import Mathlib.Data.Rat.Floor
import TokenCake.Library.Sort
import TokenCake.Request.Defs

/-!
# The capacity plan

The settings of the agent-aware policy, and the partition of the block pool into a shared part
and reservations of critical agent types.  The shares of the critical types are rounded down and
the blocks left over go to the largest fractions, so every type gets its share rounded down or up
and the partition has exactly the blocks of the pool.  Quantities the source keeps in floating
point are exact rationals.
-/

namespace TokenCake

/-- How much generation growth an admission reserves. -/
inductive GenerationReserveMode where
  | all
  | progress
  | reclaim
deriving DecidableEq, Repr

/-- Settings of agent-aware scheduling. -/
structure SchedulingConfig where
  reserveGenerationTokens : Bool := true
  generationReserveMode : GenerationReserveMode := .all
  decodePrefillTokenBudget : Nat := 0
  cacheAffinityScoreBand : Nat := 500
  inheritJoinPriority : Bool := true
  priorityBorrowScoreMargin : Nat := 500
  criticalRatio : ℚ := 3 / 4
  reserveRatioMin : ℚ := 1 / 20
  reserveRatioMax : ℚ := 3 / 10
  gpuUsageLow : ℚ := 2 / 5
  gpuUsageHigh : ℚ := 3 / 4
  reserveAdjustmentStep : ℚ := 1 / 20
deriving DecidableEq

/-- The partition of the block pool. -/
structure CapacityPlan where
  /-- Agent types with a reservation. -/
  critical : List Text := []
  scores : Dict Text ℚ := .empty
  reserved : Dict Text Int := .empty
  shared : Int := 0

/-- Count one more for each of some keys. -/
def incrementKeys (counts : Dict Text Int) (keys : List Text) : Dict Text Int :=
  keys.foldl (fun counts key => counts.set key (counts.getD key 0 + 1)) counts

/-- The order in which agent types become critical. -/
abbrev criticalRank (scores importance : Dict Text ℚ) (key : Text) : List ℚ :=
  [scores.getD key 0, importance.getD key 0, (key : ℚ)]

/-- The weight of a critical agent type. -/
def capacityWeight (scores : Dict Text ℚ) (used : Dict Text Int) (critical : List Text)
    (key : Text) : ℚ :=
  let scoreShare := scores.getD key 0 / (critical.map fun key => scores.getD key 0).sum
  let memoryShare := if used.sum = 0 then 0 else (used.getD key 0 : ℚ) / (used.sum : ℚ)
  max (max scoreShare ((memoryShare + scoreShare) / 2)) (1 / 1000000)

/-- The exact share of a critical agent type in the reserved blocks. -/
def exactShare (scores : Dict Text ℚ) (used : Dict Text Int) (critical : List Text)
    (reserved : Int) (key : Text) : ℚ :=
  reserved * capacityWeight scores used critical key /
    ((sortByKey (fun key : Text => [(key : ℚ)]) critical).map
      (capacityWeight scores used critical)).sum

/-- Partition the pool: the highest scores become critical, and the reserved
share is divided among them by score and memory use with largest remainders. -/
def partitionCapacity (scores importance : Dict Text ℚ) (used : Dict Text Int) (total : Int)
    (reserveRatio criticalRatio : ℚ) : CapacityPlan :=
  let ordered := sortByKeyDescending (criticalRank scores importance) scores.keys
  let critical := ordered.take (max 1 ((ordered.length : ℚ) * criticalRatio).floor.toNat)
  let reserved : Int :=
    if critical.isEmpty then 0 else ((total : ℚ) * reserveRatio).floor
  let share := exactShare scores used critical reserved
  let keys := sortByKey (fun key : Text => [(key : ℚ)]) critical
  let counts := Dict.tabulate keys fun key => (share key).floor
  let remainder := reserved - counts.sum
  let largest :=
    sortByKeyDescending (fun key => [share key - (counts.getD key 0 : ℚ), (key : ℚ)]) keys
  { critical := critical
    scores := scores
    reserved := incrementKeys counts (largest.take remainder.toNat)
    shared := total - reserved }

open List Nat Dict

/-- The largest fractions that make up a number of units are positive. -/
theorem pos_of_mem_take {fraction : α → ℚ} {items : List α} {units : Nat}
    (sorted : items.Pairwise fun earlier later => fraction later ≤ fraction earlier)
    (bounds : ∀ item ∈ items, 0 ≤ fraction item ∧ fraction item < 1)
    (covered : (units : ℚ) ≤ (items.map fraction).sum) :
    units ≤ items.length ∧ ∀ item ∈ items.take units, 0 < fraction item := by
  induction sorted generalizing units with
  | nil => simpa using covered
  | @cons first rest highest sorted ih =>
    cases units with
    | zero => simp
    | succ units =>
      rw [forall_mem_cons] at bounds
      rw [map_cons, sum_cons, cast_succ] at covered
      have least : (units : ℚ) ≤ (rest.map fraction).sum := by linarith [bounds.1.2]
      obtain ⟨short, positive⟩ := ih bounds.2 least
      refine ⟨succ_le_succ short, forall_mem_cons.mpr ⟨?_, positive⟩⟩
      by_contra none
      have zero : ∀ value ∈ rest.map fraction, value ≤ 0 := by
        rw [forall_mem_map]
        exact fun item mem => (highest item mem).trans (not_lt.mp none)
      have sum : (rest.map fraction).sum ≤ 0 := by simpa using sum_le_card_nsmul _ 0 zero
      linarith [(cast_nonneg units : (0 : ℚ) ≤ units)]

section Increments

variable {keys : List Text} (counts : Dict Text Int)

theorem mem_incrementKeys {key : Text} :
    key ∈ incrementKeys counts keys ↔ key ∈ counts ∨ key ∈ keys := by
  induction keys generalizing counts with
  | nil => simp [incrementKeys]
  | cons head rest ih =>
    refine (ih (counts.set head _)).trans ?_
    rw [Dict.mem_set, mem_cons]
    tauto

theorem getD_incrementKeys (nodup : keys.Nodup) (key : Text) :
    (incrementKeys counts keys).getD key 0 = counts.getD key 0 + if key ∈ keys then 1 else 0 := by
  induction keys generalizing counts with
  | nil => simp [incrementKeys]
  | cons head rest ih =>
    rw [nodup_cons] at nodup
    refine (ih (counts.set head _) nodup.2).trans ?_
    by_cases same : key = head
    · subst same
      simp [Dict.getD, nodup.1]
    · simp [Dict.getD, Dict.get?_set, same]

theorem sum_incrementKeys : (incrementKeys counts keys).sum = counts.sum + keys.length := by
  induction keys generalizing counts with
  | nil => simp [incrementKeys]
  | cons head rest ih =>
    refine (ih (counts.set head _)).trans ?_
    rw [Dict.sum_set, length_cons, cast_succ]
    omega

end Increments

theorem sum_fract_add_sum_floor (share : α → ℚ) (items : List α) :
    (items.map fun item => Int.fract (share item)).sum +
      ((items.map fun item => ⌊share item⌋).sum : Int) = (items.map share).sum := by
  induction items with
  | nil => simp
  | cons item rest ih =>
    simp only [map_cons, sum_cons, Int.cast_add, ← ih, Int.fract]
    ring

/-- Shares that make up a whole number are rounded down, and the units left over go to the
largest fractions. -/
theorem apportioned_of_shares {keys : List Text} {share : Text → ℚ} {whole : Int}
    (nodup : keys.Nodup) (nonneg : ∀ key ∈ keys, 0 ≤ share key)
    (sum : (keys.map share).sum = whole) :
    let counts := Dict.tabulate keys fun key => (share key).floor
    let largest := sortByKeyDescending
      (fun key => [share key - (counts.getD key 0 : ℚ), (key : ℚ)]) keys
    let reserved := incrementKeys counts (largest.take (whole - counts.sum).toNat)
    reserved.sum = whole ∧ (∀ key, key ∈ reserved ↔ key ∈ keys) ∧ ∀ key ∈ keys,
      0 ≤ reserved.getD key 0 ∧
        (reserved.getD key 0 = ⌊share key⌋ ∨ reserved.getD key 0 = ⌈share key⌉) := by
  intro counts largest reserved
  have found (key : Text) (mem : key ∈ keys) : counts.getD key 0 = ⌊share key⌋ := by
    rw [Dict.getD, Dict.get?_tabulate, if_pos mem]
    rfl
  have counted (key : Text) : key ∈ counts ↔ key ∈ keys := by
    rw [Dict.mem_iff_exists_get?, Dict.get?_tabulate]
    split <;> simp_all
  have perm : largest.Perm keys := sortByKeyDescending_perm _ keys
  have fractions : (largest.map fun key => Int.fract (share key)).sum =
      (whole - counts.sum : Int) := by
    have floors : counts.sum = (keys.map fun key => ⌊share key⌋).sum := by
      rw [Dict.sum_eq nodup counted, map_congr_left found]
    have total := sum_fract_add_sum_floor share keys
    rw [(perm.map _).sum_eq, floors, Int.cast_sub, ← sum, ← total, add_sub_cancel_right]
  have sorted : largest.Pairwise fun earlier later =>
      Int.fract (share later) ≤ Int.fract (share earlier) := by
    refine (sortByKeyDescending_pairwise _ keys).imp_of_mem fun first second le => ?_
    have le := head_le_of_le le
    rwa [found _ (perm.mem_iff.mp first), found _ (perm.mem_iff.mp second)] at le
  have left : 0 ≤ whole - counts.sum := by
    have some : 0 ≤ (largest.map fun key => Int.fract (share key)).sum :=
      sum_nonneg (by simp)
    rw [fractions] at some
    exact_mod_cast some
  obtain ⟨units, isUnits⟩ := Int.eq_ofNat_of_zero_le left
  obtain ⟨short, positive⟩ := pos_of_mem_take sorted
    (fun key _ => ⟨Int.fract_nonneg _, Int.fract_lt_one _⟩) (show (units : ℚ) ≤ _ by
      rw [fractions, isUnits]
      rfl)
  have taken : (largest.take units).Sublist largest := take_sublist units largest
  have topped : reserved = incrementKeys counts (largest.take units) := by
    rw [← Int.toNat_natCast units, ← isUnits]
  rw [topped]
  refine ⟨?_, fun key => ?_, fun key mem => ?_⟩
  · rw [sum_incrementKeys, length_take, min_eq_left short]
    omega
  · rw [mem_incrementKeys, counted]
    exact or_iff_left_of_imp fun mem => perm.mem_iff.mp (taken.mem mem)
  · have own := Int.floor_nonneg.mpr (nonneg key mem)
    rw [getD_incrementKeys counts (taken.nodup (perm.nodup_iff.mpr nodup)), found key mem]
    split
    · next up =>
      refine ⟨by omega, .inr (Int.ceil_eq_iff.mpr ?_).symm⟩
      have fraction := positive key up
      have below := Int.lt_floor_add_one (share key)
      push_cast
      constructor <;> linarith [Int.self_sub_floor (share key)]
    · exact ⟨by omega, .inl (add_zero _)⟩

theorem criticalRank_injective (scores importance : Dict Text ℚ) :
    Function.Injective (criticalRank scores importance) := by
  intro first second same
  simp only [cons.injEq, Nat.cast_inj] at same
  exact same.2.2.1

/-- The blocks are apportioned exactly. -/
structure Apportioned (scores importance : Dict Text ℚ) (used : Dict Text Int) (total : Int)
    (reserveRatio criticalRatio : ℚ) (plan : CapacityPlan) : Prop where
  whole : plan.shared + plan.reserved.sum = total
  shared : 0 ≤ plan.shared
  keys : ∀ key, key ∈ plan.reserved ↔ key ∈ plan.critical
  share : ∀ key ∈ plan.critical,
    let share := exactShare scores used plan.critical ⌊total * reserveRatio⌋ key
    0 ≤ plan.reserved.getD key 0 ∧
      (plan.reserved.getD key 0 = ⌊share⌋ ∨ plan.reserved.getD key 0 = ⌈share⌉)
  nodup : plan.critical.Nodup
  critical : plan.critical ⊆ scores.keys
  count : (plan.critical.length : Int) = max 1 ⌊scores.keys.length * criticalRatio⌋
  largest : ∀ key ∈ plan.critical, ∀ other ∈ scores.keys, other ∉ plan.critical →
    criticalRank scores importance other < criticalRank scores importance key

section Partition

variable {scores importance : Dict Text ℚ} {used : Dict Text Int} {total : Int}
  {reserveRatio criticalRatio : ℚ}

theorem capacityWeight_pos (critical : List Text) (key : Text) :
    0 < capacityWeight scores used critical key :=
  lt_max_of_lt_right (by norm_num)

theorem exactShare_spec (scores : Dict Text ℚ) (used : Dict Text Int) {critical : List Text}
    (nonempty : critical ≠ []) {reserved : Int} (nonneg : 0 ≤ reserved) :
    (∀ key, 0 ≤ exactShare scores used critical reserved key) ∧
      ((sortByKey (fun key : Text => [(key : ℚ)]) critical).map
        (exactShare scores used critical reserved)).sum = reserved := by
  have perm := sortByKey_perm (fun key : Text => [(key : ℚ)]) critical
  have weights : 0 < ((sortByKey (fun key : Text => [(key : ℚ)]) critical).map
      (capacityWeight scores used critical)).sum := by
    refine sum_pos _ ?_ ?_
    · rw [forall_mem_map]
      exact fun key _ => capacityWeight_pos critical key
    · rw [Ne, map_eq_nil_iff, ← length_eq_zero_iff, perm.length_eq, length_eq_zero_iff]
      exact nonempty
  refine ⟨fun key => div_nonneg (mul_nonneg (by exact_mod_cast nonneg)
    (capacityWeight_pos critical key).le) weights.le, ?_⟩
  unfold exactShare
  simp only [mul_div_right_comm, sum_map_mul_left]
  exact div_mul_cancel₀ _ weights.ne'

/-- The pool is partitioned exactly. -/
theorem partitionCapacity_apportioned (nonempty : scores.keys ≠ []) (capacity : 0 ≤ total)
    (reserve : 0 ≤ reserveRatio ∧ reserveRatio ≤ 1) (ratio : criticalRatio ≤ 1) :
    Apportioned scores importance used total reserveRatio criticalRatio
      (partitionCapacity scores importance used total reserveRatio criticalRatio) := by
  let ordered := sortByKeyDescending (criticalRank scores importance) scores.keys
  let number := max 1 ((ordered.length : ℚ) * criticalRatio).floor.toNat
  have perm : ordered.Perm scores.keys := sortByKeyDescending_perm ..
  have fits : number ≤ ordered.length := by
    refine max_le (perm.length_eq ▸ length_pos_iff.mpr nonempty) (Int.toNat_le.mpr ?_)
    exact (Int.floor_le_floor (mul_le_of_le_one_right (Nat.cast_nonneg _) ratio)).trans_eq
      (Int.floor_natCast _)
  have length : (ordered.take number).length = number := length_take_of_le fits
  have some : ordered.take number ≠ [] := ne_nil_of_length_pos (by omega)
  have nonneg : 0 ≤ ⌊total * reserveRatio⌋ :=
    Int.floor_nonneg.mpr (mul_nonneg (Int.cast_nonneg capacity) reserve.1)
  have nodup : (ordered.take number).Nodup :=
    (take_sublist ..).nodup (perm.nodup_iff.mpr scores.keys_nodup)
  have sorted := sortByKey_perm (fun key : Text => [(key : ℚ)]) (ordered.take number)
  obtain ⟨shares, sum⟩ := exactShare_spec scores used some nonneg
  obtain ⟨whole, keys, rounded⟩ :=
    apportioned_of_shares (sorted.nodup_iff.mpr nodup) (fun key _ => shares key) sum
  unfold partitionCapacity
  dsimp only
  rw [if_neg fun empty => some (isEmpty_iff.mp empty)]
  refine ⟨?_, ?_, fun key => (keys key).trans sorted.mem_iff,
    fun key mem => rounded key (sorted.mem_iff.mpr mem), nodup, ?_, ?_, ?_⟩
  · exact (congrArg _ whole).trans (sub_add_cancel ..)
  · have below := Int.floor_le_floor (mul_le_of_le_one_right (Int.cast_nonneg capacity) reserve.2)
    exact sub_nonneg.mpr (below.trans_eq (Int.floor_intCast total))
  · exact fun key mem => perm.mem_iff.mp ((take_sublist ..).mem mem)
  · have positive (count : Int) : ((max 1 count.toNat : Nat) : Int) = max 1 count := by omega
    rw [← perm.length_eq]
    exact (congrArg Nat.cast length).trans (positive _)
  · intro key mem other listed outside
    have pairwise := sortByKeyDescending_pairwise (criticalRank scores importance) scores.keys
    rw [← take_append_drop number (sortByKeyDescending ..), pairwise_append] at pairwise
    have behind : other ∈ ordered.drop number := by
      have either := perm.mem_iff.mpr listed
      rw [← take_append_drop number ordered, mem_append] at either
      exact either.resolve_left outside
    refine (pairwise.2.2 key mem other behind).lt_of_ne fun same => outside ?_
    rw [criticalRank_injective scores importance same]
    exact mem

/-- The plan does not depend on the order of the dictionaries. -/
theorem partitionCapacity_of_perm {scores' importance' : Dict Text ℚ} {used' : Dict Text Int}
    (score : scores'.entries.Perm scores.entries)
    (rank : importance'.entries.Perm importance.entries)
    (memory : used'.entries.Perm used.entries) :
    partitionCapacity scores' importance' used' total reserveRatio criticalRatio =
      { partitionCapacity scores importance used total reserveRatio criticalRatio with
        scores := scores' } := by
  have ordered : sortByKeyDescending (criticalRank scores importance) scores'.keys =
      sortByKeyDescending (criticalRank scores importance) scores.keys := by
    refine Perm.eq_of_pairwise (fun first second _ _ above below => ?_)
      (sortByKeyDescending_pairwise ..) (sortByKeyDescending_pairwise ..) ?_
    · exact criticalRank_injective scores importance (le_antisymm below above)
    · exact (sortByKeyDescending_perm ..).trans
        ((score.map Prod.fst).trans (sortByKeyDescending_perm ..).symm)
  have ranks : criticalRank scores' importance' = criticalRank scores importance := by
    unfold criticalRank
    rw [getD_of_perm score, getD_of_perm rank]
  have shares : exactShare scores' used' = exactShare scores used := by
    have sum : used'.sum = used.sum := (memory.map Prod.snd).sum_eq
    unfold exactShare capacityWeight
    rw [getD_of_perm score, getD_of_perm memory, sum]
  unfold partitionCapacity
  rw [ranks, shares, ordered]

/-- The partition is exact and depends on the contents of the dictionaries only. -/
theorem partitionCapacity_exact (nonempty : scores.keys ≠ []) (capacity : 0 ≤ total)
    (reserve : 0 ≤ reserveRatio ∧ reserveRatio ≤ 1) (ratio : criticalRatio ≤ 1) :
    let plan := partitionCapacity scores importance used total reserveRatio criticalRatio
    Apportioned scores importance used total reserveRatio criticalRatio plan ∧
      ∀ (scores' importance' : Dict Text ℚ) (used' : Dict Text Int),
        scores'.entries.Perm scores.entries → importance'.entries.Perm importance.entries →
        used'.entries.Perm used.entries →
        partitionCapacity scores' importance' used' total reserveRatio criticalRatio =
          { plan with scores := scores' } :=
  ⟨partitionCapacity_apportioned nonempty capacity reserve ratio,
    fun _ _ _ score rank memory => partitionCapacity_of_perm score rank memory⟩

theorem partitionCapacity_exact_pair :
    let scores : Dict Text ℚ := .tabulate [1, 2, 3] fun key => key
    let used : Dict Text Int := .tabulate [1, 2, 3] fun key => if key = 2 then 3 else key / 2
    let plan := partitionCapacity scores scores used 110 (1 / 10) (3 / 4)
    (plan.critical = [3, 2] ∧ plan.reserved.entries = [(2, 5), (3, 6)] ∧ plan.shared = 99) ∧
      Apportioned scores scores used 110 (1 / 10) (3 / 4) plan :=
  ⟨by decide +kernel,
    (partitionCapacity_exact (by decide) (by norm_num) (by norm_num) (by norm_num)).1⟩

end Partition

end TokenCake
