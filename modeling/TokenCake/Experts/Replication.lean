import Mathlib.Algebra.BigOperators.Group.Finset.Piecewise
import Mathlib.Algebra.Order.BigOperators.Group.Finset
import Mathlib.Algebra.Order.Field.Basic
import Mathlib.Data.Rat.Cast.Order
import TokenCake.Request.Defs

/-!
# Replication of experts

The experts of a layer are replicated one by one: each further replica goes to the expert
whose replicas have the largest load.  No other numbers of replicas have a smaller maximal
load.  A row of an array is a function on the indices below its length.
-/

namespace TokenCake

open List

/-- The ways in which the placement of experts fails. -/
inductive EplbError where
  | assertionFailed
  /-- The largest value of an empty row. -/
  | emptySequence
deriving DecidableEq, Repr

/-- The expert of each replica, and the number of replicas of each expert. -/
structure Replication where
  phy2log : List Nat
  logcnt : Nat → Nat

/-- A further replica of the first expert whose replicas have the largest load. -/
def Replication.addReplica (weight : Nat → ℚ) (numLog : Nat) (replication : Replication) :
    Except EplbError Replication :=
  match (List.range numLog).argmax fun expert => weight expert / replication.logcnt expert with
  | none => .error .emptySequence
  | some expert => .ok
    { phy2log := replication.phy2log ++ [expert]
      logcnt := Function.update replication.logcnt expert (replication.logcnt expert + 1) }

/-- Replicate the experts of a row to a number of physical ones. -/
def replicateExperts (weight : Nat → ℚ) (numLog numPhy : Nat) : Except EplbError Replication := do
  ensure (decide (numLog ≤ numPhy)) .assertionFailed
  (List.range' numLog (numPhy - numLog)).foldlM
    (fun replication _ => replication.addReplica weight numLog)
    { phy2log := List.range numLog, logcnt := fun _ => 1 }

/-- The counts are those of the replicas, and an expert with several replicas had the largest
load before it got the last of them. -/
structure Greedy (weight : Nat → ℚ) (numLog : Nat) (replication : Replication) : Prop where
  valid : ∀ expert ∈ replication.phy2log, expert < numLog
  count : ∀ expert < numLog, replication.logcnt expert = replication.phy2log.count expert
  positive : ∀ expert, 1 ≤ replication.logcnt expert
  largest : ∀ expert < numLog, 1 < replication.logcnt expert → ∀ other < numLog,
    weight other / replication.logcnt other ≤ weight expert / (replication.logcnt expert - 1 : ℕ)

namespace Greedy

variable {weight : Nat → ℚ} {numLog : Nat} {replication next : Replication}

theorem init (weight : Nat → ℚ) (numLog : Nat) :
    Greedy weight numLog ⟨range numLog, fun _ => 1⟩ where
  valid _ := mem_range.mp
  count _ bound := (count_eq_one_of_mem nodup_range (mem_range.mpr bound)).symm
  positive _ := le_rfl
  largest _ _ several := absurd several (lt_irrefl 1)

variable (greedy : Greedy weight numLog replication)

include greedy

/-- A further replica lowers the loads. -/
theorem addReplica (nonneg : ∀ expert < numLog, 0 ≤ weight expert)
    (added : replication.addReplica weight numLog = .ok next) :
    Greedy weight numLog next ∧ next.phy2log.length = replication.phy2log.length + 1 := by
  unfold Replication.addReplica at added
  split at added
  · cases added
  · next expert chosen =>
    cases added
    have bound := mem_range.mp (argmax_mem chosen)
    have more (other : Nat) : replication.logcnt other ≤
        Function.update replication.logcnt expert (replication.logcnt expert + 1) other := by
      by_cases same : other = expert
      · simp [same]
      · simp [same]
    have lower (other : Nat) (known : other < numLog) := div_le_div_of_nonneg_left
      (nonneg other known) (Nat.cast_pos.mpr (greedy.positive other)) (Nat.cast_le.mpr (more other))
    refine ⟨⟨?_, ?_, ?_, ?_⟩, length_append⟩
    · intro other mem
      rcases mem_append.mp mem with old | new
      · exact greedy.valid other old
      · rwa [mem_singleton.mp new]
    · intro other known
      rw [count_append, ← greedy.count other known, count_singleton]
      by_cases same : other = expert
      · simp [same]
      · simp [same, Ne.symm same]
    · exact fun other => (greedy.positive other).trans (more other)
    · intro repeated known several other inside
      refine (lower other inside).trans ?_
      by_cases same : repeated = expert
      · subst same
        simpa using le_of_mem_argmax (mem_range.mpr inside) chosen
      · dsimp only at several ⊢
        rw [Function.update_of_ne same] at several ⊢
        exact greedy.largest repeated known several other inside

theorem addReplicas (nonneg : ∀ expert < numLog, 0 ≤ weight expert)
    {places : List Nat} (experts : numLog = 0 → places = []) :
    ∃ last, places.foldlM (fun replication _ => replication.addReplica weight numLog) replication =
        .ok last ∧ Greedy weight numLog last ∧
      last.phy2log.length = replication.phy2log.length + places.length := by
  induction places generalizing replication with
  | nil => exact ⟨replication, rfl, greedy, rfl⟩
  | cons place places ih =>
    cases added : replication.addReplica weight numLog with
    | error failure =>
      unfold Replication.addReplica at added
      split at added
      · next nothing =>
        rw [argmax_eq_none, range_eq_nil] at nothing
        cases experts nothing
      · cases added
    | ok next =>
      obtain ⟨kept, length⟩ := greedy.addReplica nonneg added
      obtain ⟨last, returned, greedy, longer⟩ := ih kept fun none => by cases experts none
      refine ⟨last, ?_, greedy, by rw [longer, length, length_cons]; omega⟩
      rw [foldlM_cons, added]
      exact returned

theorem sum_logcnt :
    ∑ expert ∈ Finset.range numLog, replication.logcnt expert = replication.phy2log.length := by
  rw [Finset.sum_congr rfl fun expert mem => greedy.count expert (Finset.mem_range.mp mem)]
  have valid : ∀ expert ∈ (replication.phy2log : Multiset Nat), expert ∈ Finset.range numLog :=
    fun expert mem => Finset.mem_range.mpr (greedy.valid expert mem)
  simpa using Multiset.sum_count_eq_card valid

/-- An expert with more replicas than in another vector bounds all loads. -/
theorem exists_le (nonneg : ∀ expert < numLog, 0 ≤ weight expert)
    {counts : Nat → Nat} (positive : ∀ expert < numLog, 1 ≤ counts expert)
    (total : ∑ expert ∈ Finset.range numLog, counts expert = replication.phy2log.length)
    {other : Nat} (known : other < numLog) :
    ∃ expert < numLog, weight other / replication.logcnt other ≤ weight expert / counts expert := by
  by_cases more : ∃ expert < numLog, counts expert < replication.logcnt expert
  · obtain ⟨expert, bound, more⟩ := more
    have one := positive expert bound
    refine ⟨expert, bound, (greedy.largest expert bound (by omega) other known).trans ?_⟩
    refine div_le_div_of_nonneg_left (nonneg expert bound) (Nat.cast_pos.mpr one) ?_
    exact Nat.cast_le.mpr (Nat.le_pred_of_lt more)
  · push Not at more
    have same := (Finset.sum_eq_sum_iff_of_le fun expert mem =>
      more expert (Finset.mem_range.mp mem)).mp (greedy.sum_logcnt.trans total.symm)
    exact ⟨other, known, by rw [same other (Finset.mem_range.mpr known)]⟩

end Greedy

/-- The largest load of a replica. -/
def maxLoad (weight : Nat → ℚ) (counts : Nat → Nat) (numLog : Nat) : WithBot ℚ :=
  (Finset.range numLog).sup fun expert => ((weight expert / counts expert : ℚ) : WithBot ℚ)

/-- Greedy replication is optimal. -/
theorem replicateExperts_optimal {weight : Nat → ℚ} {numLog numPhy : Nat}
    (nonneg : ∀ expert < numLog, 0 ≤ weight expert) (enough : numLog ≤ numPhy)
    (experts : numLog = 0 → numPhy = 0) :
    ∃ result, replicateExperts weight numLog numPhy = .ok result ∧
      (∀ expert < numLog, 1 ≤ result.logcnt expert ∧
        result.logcnt expert = result.phy2log.count expert) ∧
      ∑ expert ∈ Finset.range numLog, result.logcnt expert = numPhy ∧
      result.phy2log.length = numPhy ∧
      ∀ counts : Nat → Nat, (∀ expert < numLog, 1 ≤ counts expert) →
        ∑ expert ∈ Finset.range numLog, counts expert = numPhy →
        maxLoad weight result.logcnt numLog ≤ maxLoad weight counts numLog := by
  have some (none : numLog = 0) : range' numLog (numPhy - numLog) = [] := by
    rw [experts none, Nat.zero_sub]
    rfl
  obtain ⟨result, returned, greedy, length⟩ := (Greedy.init weight numLog).addReplicas nonneg some
  rw [length_range, length_range', Nat.add_sub_cancel' enough] at length
  refine ⟨result, ?_, fun expert known => ⟨greedy.positive expert, greedy.count expert known⟩,
    greedy.sum_logcnt.trans length, length, fun counts positive total => ?_⟩
  · rw [replicateExperts, decide_eq_true enough]
    exact returned
  · refine Finset.sup_le fun other mem => ?_
    obtain ⟨expert, bound, le⟩ := greedy.exists_le nonneg positive (total.trans length.symm)
      (Finset.mem_range.mp mem)
    exact (WithBot.coe_le_coe.mpr le).trans (Finset.le_sup
      (f := fun expert => ((weight expert / counts expert : ℚ) : WithBot ℚ))
      (Finset.mem_range.mpr bound))

theorem replicateExperts_optimal_pair :
    ∃ result, replicateExperts (fun expert => expert) 2 3 = .ok result ∧
      result.phy2log.length = 3 := by
  obtain ⟨result, returned, -, -, length, -⟩ := replicateExperts_optimal
    (fun expert _ => Nat.cast_nonneg expert) (show 2 ≤ 3 by decide) (by decide)
  exact ⟨result, returned, length⟩

end TokenCake
