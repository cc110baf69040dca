import TokenCake.Scheduler.State

/-!
# The order of candidates within score bands

Requests that share their prefix with running work go first only among requests
whose scores lie within one band.
-/

namespace TokenCake

open List KVCacheManager

namespace SchedulingController

variable {score : α → Int} {band : Nat}

/-- No two elements of one run are further apart than the band. -/
theorem bandGroups_within {fuel : Nat} {items group : List α}
    (sorted : items.Pairwise fun earlier later => score later ≤ score earlier)
    (mem : group ∈ bandGroups score band fuel items) :
    ∀ earlier ∈ group, ∀ later ∈ group, score later ≤ score earlier + band := by
  induction fuel generalizing items with
  | zero => simp [bandGroups] at mem
  | succ fuel ih =>
    cases items with
    | nil => simp [bandGroups] at mem
    | cons first rest =>
      obtain ⟨highest, sorted⟩ := pairwise_cons.mp sorted
      rw [bandGroups, mem_cons] at mem
      rcases mem with rfl | mem
      · -- the first element is the highest, and the others stay within the band below it
        have bounds : ∀ other ∈ first :: rest.takeWhile fun other =>
            decide (score other ≥ score first - band),
            score other ≤ score first ∧ score first ≤ score other + band := by
          refine forall_mem_cons.mpr ⟨⟨le_rfl, by omega⟩, fun other taken => ⟨?_, ?_⟩⟩
          · exact highest other ((takeWhile_sublist _).mem taken)
          · have close := mem_takeWhile_imp taken
            simp only [ge_iff_le, decide_eq_true_eq] at close
            omega
        intro earlier first later second
        exact (bounds later second).1.trans (bounds earlier first).2
      · exact ih (sorted.sublist (drop_sublist ..)) mem

variable {M : Type} [KVCacheManager M] (controller : SchedulingController) (manager : M)
  (heap : RequestHeap) (candidates : List (RequestId × QueueName))

theorem score_le_of_orderKey_le {earlier later : RequestId}
    (ordered : controller.orderKey (heap.object earlier) ≤
      controller.orderKey (heap.object later)) :
    controller.scores.getD later 0 ≤ controller.scores.getD earlier 0 := by
  have scores := neg_le_neg_iff.mp (head_le_of_le ordered)
  simp only [heap.requestId_object] at scores
  exact_mod_cast scores

/-- Whatever the affinity, the candidates are reordered only within the band: of two
candidates whose scores are further apart the higher one goes first, and two
candidates of equal affinity, in one run or not, keep the order of their keys. -/
theorem orderCandidatesBy_within_band (affinity : Request → List ℚ) :
    let result := controller.orderCandidatesBy manager affinity heap.object candidates
    result.Perm candidates ∧ result.Pairwise fun earlier later =>
      controller.scores.getD later.1 0 ≤
        controller.scores.getD earlier.1 0 + controller.settings.cacheAffinityScoreBand ∧
      (affinity (heap.object earlier.1) = affinity (heap.object later.1) →
        controller.orderKey (heap.object earlier.1) ≤
          controller.orderKey (heap.object later.1)) := by
  refine ⟨controller.orderCandidatesBy_perm manager affinity heap.object candidates, ?_⟩
  unfold orderCandidatesBy
  dsimp only
  have ordered := sortByKey_pairwise (fun item : RequestId × QueueName =>
    controller.orderKey (heap.object item.1)) candidates
  generalize sortByKey _ candidates = sorted at ordered
  have scores := ordered.imp fun le => controller.score_le_of_orderKey_le heap le
  split
  · refine (ordered.and scores).imp fun {earlier later} both => ⟨?_, fun _ => both.1⟩
    have higher := both.2
    omega
  · have flat := bandGroups_flatten (fun item : RequestId × QueueName =>
      controller.scores.getD item.1 0) controller.settings.cacheAffinityScoreBand
      sorted.length.le_refl
    have runs := pairwise_flatten.mp (flat ▸ ordered)
    rw [pairwise_flatten, forall_mem_map, pairwise_map]
    refine ⟨fun group member => ?_, runs.2.imp fun {group next} before => ?_⟩
    · -- within a run only the affinity exchanges two candidates
      have stable := sortByKeyDescending_stable (fun item : RequestId × QueueName =>
        affinity (heap.object item.1)) (runs.1 group member)
      refine stable.imp_of_mem fun {earlier later} first second kept => ⟨?_, kept⟩
      exact bandGroups_within scores member _ ((sortByKeyDescending_perm _ group).mem_iff.mp first)
        _ ((sortByKeyDescending_perm _ group).mem_iff.mp second)
    · -- the runs follow each other in the order of the keys
      intro earlier first later second
      have le := before earlier ((sortByKeyDescending_perm _ group).mem_iff.mp first) later
        ((sortByKeyDescending_perm _ next).mem_iff.mp second)
      have higher := controller.score_le_of_orderKey_le heap le
      exact ⟨by omega, fun _ => le⟩

end SchedulingController

end TokenCake
