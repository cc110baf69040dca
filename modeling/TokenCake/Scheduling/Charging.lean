import TokenCake.KVCache.Manager
import TokenCake.Library.Withdrawal
import TokenCake.Scheduling.Controller

/-!
# Charging a demand to the reservations

The capacity that admissions may still use never exceeds what is uncommitted.  A demand is
charged to the shared part, to the reservation of its own agent type and to the donors it may
borrow from, and it is met exactly if these together cover it.
-/

namespace TokenCake.SchedulingController

open List

variable {M : Type} [KVCacheManager M]

/-- An excess is taken from each reservation in turn, as far as it goes. -/
theorem reduceReserved_spec {keys : List Text} {excess : Int} {available : Dict Text Int}
    (nodup : keys.Nodup) (nonneg : ∀ key, 0 ≤ available.getD key 0) (positive : 0 ≤ excess) :
    (∀ key, 0 ≤ (reduceReserved keys excess available).getD key 0 ∧
        (reduceReserved keys excess available).getD key 0 ≤ available.getD key 0) ∧
      (reduceReserved keys excess available).sum =
        available.sum - min excess (keys.map fun key => available.getD key 0).sum := by
  induction keys generalizing excess available with
  | nil => simp [reduceReserved, nonneg, positive]
  | cons head rest ih =>
    obtain ⟨fresh, nodup⟩ := nodup_cons.mp nodup
    set left := available.getD head 0 - min excess (available.getD head 0) with isLeft
    have least := nonneg head
    have found (key : Text) : (available.set head left).getD key 0 =
        if key = head then left else available.getD key 0 := by
      unfold Dict.getD
      rw [Dict.get?_set]
      split <;> rfl
    have bounded (key : Text) : 0 ≤ (available.set head left).getD key 0 ∧
        (available.set head left).getD key 0 ≤ available.getD key 0 := by
      rw [found]
      split
      · next same => rw [same]; omega
      · exact ⟨nonneg key, le_rfl⟩
    have later : rest.map (fun key => (available.set head left).getD key 0) =
        rest.map fun key => available.getD key 0 :=
      map_congr_left fun key mem => by rw [found, if_neg (ne_of_mem_of_not_mem mem fresh)]
    have rest_nonneg : 0 ≤ (rest.map fun key => available.getD key 0).sum :=
      sum_nonneg (forall_mem_map.mpr fun key _ => nonneg key)
    have remains : 0 ≤ excess - min excess (available.getD head 0) := by omega
    obtain ⟨bounds, total⟩ := ih nodup (fun key => (bounded key).1) remains
    refine ⟨fun key => ⟨(bounds key).1, (bounds key).2.trans (bounded key).2⟩, total.trans ?_⟩
    rw [later, Dict.sum_set, map_cons, sum_cons]
    omega

/-- The capacity that is left lies within the plan and within what is uncommitted. -/
structure Refreshed (controller : SchedulingController) (manager : M)
    (updated : SchedulingController) : Prop where
  shared : 0 ≤ updated.sharedAvailable ∧
    updated.sharedAvailable ≤ max 0 (controller.plan.shared - controller.used.getD none 0)
  reserved : ∀ key, 0 ≤ updated.reservedAvailable.getD key 0 ∧
    updated.reservedAvailable.getD key 0 ≤
      max 0 (controller.plan.reserved.getD key 0 - controller.used.getD (some key) 0)
  total : updated.sharedAvailable + updated.reservedAvailable.sum ≤
    max 0 (updated.uncommittedBlocks manager)

theorem refreshed_updateAvailable (controller : SchedulingController) (manager : M) :
    controller.Refreshed manager (controller.updateAvailable manager) := by
  set reserved := Dict.tabulate controller.plan.reserved.keys fun key =>
    max 0 (controller.plan.reserved.getD key 0 - controller.used.getD (some key) 0) with isReserved
  have found (key : Text) : 0 ≤ reserved.getD key 0 ∧ reserved.getD key 0 ≤
      max 0 (controller.plan.reserved.getD key 0 - controller.used.getD (some key) 0) := by
    rw [isReserved, Dict.getD, Dict.get?_tabulate]
    split
    · exact ⟨le_max_left .., le_rfl⟩
    · exact ⟨le_rfl, le_max_left ..⟩
  set order := sortByKey (fun key => [controller.plan.scores.getD key 0]) reserved.keys
  have perm : order.Perm reserved.keys := sortByKey_perm _ _
  have nodup : order.Nodup := perm.nodup_iff.mpr reserved.keys_nodup
  have whole : reserved.sum = (order.map fun key => reserved.getD key 0).sum :=
    Dict.sum_eq nodup fun key => perm.mem_iff.symm
  have nonneg : 0 ≤ reserved.sum := by
    rw [whole]
    exact sum_nonneg (forall_mem_map.mpr fun key _ => (found key).1)
  set shared := max 0 (controller.plan.shared - controller.used.getD none 0) with isShared
  set excess := max 0 (shared + reserved.sum - max 0 (controller.uncommittedBlocks manager))
    with isExcess
  obtain ⟨bounds, total⟩ := reduceReserved_spec nodup (fun key => (found key).1)
    (show 0 ≤ excess - min excess shared by omega)
  rw [← whole] at total
  refine ⟨?_, fun key => ⟨(bounds key).1, (bounds key).2.trans (found key).2⟩, ?_⟩
  · change 0 ≤ shared - min excess shared ∧ shared - min excess shared ≤ shared
    omega
  · change shared - min excess shared + (reduceReserved order (excess - min excess shared)
      reserved).sum ≤ max 0 (controller.uncommittedBlocks manager)
    omega

/-- What an owner has left: a reservation, or the shared part. -/
def available (controller : SchedulingController) : Option Text → Int
  | none => controller.sharedAvailable
  | some key => controller.reservedAvailable.getD key 0

/-- The owners that a request may use: the shared part, its own agent type and its donors. -/
def sources (controller : SchedulingController) (requestId : RequestId) (borrowReserved : Bool) :
    List (Option Text) :=
  none :: match controller.metadata.get? requestId with
    | none => []
    | some metadata =>
      (if metadata.agentType ∈ controller.plan.critical then [some metadata.agentType] else []) ++
        ((controller.donors metadata.agentType).filter
          (controller.mayBorrow requestId borrowReserved)).map some

section Consumption

variable {controller : SchedulingController} {requestId : RequestId} {borrowReserved : Bool}

/-- What was taken, if nothing is left of the demand. -/
def fullyDrawn (taken : List (Option Text × Int) × Int) : Option (List (Option Text × Int)) :=
  if taken.2 = 0 then some taken.1 else none

theorem map_fullyDrawn (entry : Option Text × Int) (taken : List (Option Text × Int) × Int) :
    (fullyDrawn taken).map (entry :: ·) = fullyDrawn (entry :: taken.1, taken.2) := by
  unfold fullyDrawn
  split <;> rfl

theorem borrowFrom_eq (donors : List Text) (remaining : Int) :
    fullyDrawn (controller.borrowFrom requestId borrowReserved donors remaining) =
      draw controller.available
        ((donors.filter (controller.mayBorrow requestId borrowReserved)).map some) remaining := by
  induction donors generalizing remaining with
  | nil => rfl
  | cons owner rest ih =>
    unfold borrowFrom
    by_cases lends : controller.mayBorrow requestId borrowReserved owner = true
    · rw [if_pos lends, filter_cons_of_pos lends, map_cons]
      dsimp only
      by_cases met : remaining - min remaining (controller.reservedAvailable.getD owner 0) = 0
      · rw [draw_cons_of_met controller.available (some owner) _ met, if_pos met]
        rfl
      · rw [draw_cons_of_not_met controller.available (some owner) _ met, if_neg met, ← ih,
          map_fullyDrawn]
        rfl
    · rw [if_neg lends, filter_cons_of_neg lends, ih]

/-- A demand is drawn from the owners that its request may use. -/
theorem consumption_eq (demand : Int) :
    controller.consumption requestId demand borrowReserved =
      draw controller.available (controller.sources requestId borrowReserved) demand := by
  unfold consumption sources
  by_cases met : demand - min demand controller.sharedAvailable = 0
  · rw [draw_cons_of_met controller.available none _ met]
    exact if_pos met
  · rw [draw_cons_of_not_met controller.available none _ met, if_neg met,
      show controller.available none = controller.sharedAvailable from rfl]
    cases controller.metadata.get? requestId with
    | none => simp [draw, met]
    | some metadata =>
      dsimp only
      set remaining := demand - min demand controller.sharedAvailable
      by_cases critical : metadata.agentType ∈ controller.plan.critical
      · rw [if_pos critical, if_pos critical, map_singleton, sum_singleton, singleton_append]
        by_cases own : remaining -
            min remaining (controller.reservedAvailable.getD metadata.agentType 0) = 0
        · rw [draw_cons_of_met controller.available (some _) _ own, if_pos own]
          rfl
        · rw [draw_cons_of_not_met controller.available (some _) _ own, if_neg own, ← borrowFrom_eq,
            map_fullyDrawn, map_fullyDrawn]
          rfl
      · rw [if_neg critical, if_neg critical, map_nil, sum_nil, sub_zero, if_neg met, nil_append,
          ← borrowFrom_eq, map_fullyDrawn]
        rfl

theorem sources_sublist :
    controller.sources requestId false <+ controller.sources requestId true := by
  unfold sources
  split
  · exact .refl _
  · exact (((monotone_filter_right _ fun _ _ => rfl).map some).append_left _).cons_cons none

theorem nodup_sources : (controller.sources requestId borrowReserved).Nodup := by
  unfold sources
  split
  · exact nodup_singleton none
  · next metadata annotated =>
    have listed := sortByKeyDescending_perm (fun donor =>
        [(controller.reservedAvailable.getD donor 0 : ℚ), controller.plan.scores.getD donor 0])
      (controller.reservedAvailable.keys.filter fun donor => !decide (donor = metadata.agentType))
    have separate : (controller.donors metadata.agentType).Nodup :=
      listed.nodup_iff.mpr (controller.reservedAvailable.keys_nodup.filter _)
    refine nodup_cons.mpr ⟨by split <;> simp, nodup_append.mpr ⟨by split <;> simp,
      (separate.filter _).map (Option.some_injective _), ?_⟩⟩
    rintro own isOwn donor lends rfl
    obtain ⟨key, asked, rfl⟩ := mem_map.mp lends
    have other := (mem_filter.mp (listed.mem_iff.mp (mem_filter.mp asked).1)).2
    split at isOwn <;> simp_all

variable (nonneg : ∀ owner, 0 ≤ controller.available owner)

include nonneg

/-- A demand is met exactly if the owners that its request may use cover it. -/
theorem consumption_ne_none_iff (demand : Int) :
    controller.consumption requestId demand borrowReserved ≠ none ↔
      demand ≤ ((controller.sources requestId borrowReserved).map controller.available).sum := by
  rw [consumption_eq]
  exact draw_ne_none_iff nonneg nofun

end Consumption

/-- A demand is charged within the capacity that is left, and less of it or more freedom to
borrow never makes it fail. -/
structure ChargesWell (controller : SchedulingController) (requestId : RequestId) (demand : Int)
    (borrowReserved : Bool) : Prop where
  counts : ∀ usage, controller.consumption requestId demand borrowReserved = some usage →
    (∀ entry ∈ usage, 0 ≤ entry.2 ∧ entry.2 ≤ controller.available entry.1) ∧
      (usage.map Prod.snd).sum = demand ∧ (usage.map Prod.fst).Nodup
  waiting : borrowReserved = false → controller.settings.priorityBorrowScoreMargin = 0 →
    ∀ usage, controller.consumption requestId demand borrowReserved = some usage →
      ∀ owner ∈ controller.waitingCritical, some owner ∈ usage.map Prod.fst →
        (controller.metadata.get? requestId).map (·.agentType) = some owner
  smaller : controller.consumption requestId demand borrowReserved ≠ none →
    ∀ less ≤ demand, controller.consumption requestId less borrowReserved ≠ none
  borrowing : controller.consumption requestId demand false ≠ none →
    controller.consumption requestId demand true ≠ none

/-- Behind every refresh the capacity is within the plan and what is uncommitted, and as long
as it is the capacity of a controller, demands are charged within it. -/
theorem updateAvailable_chargesWell (controller : SchedulingController) (manager : M)
    (state : SchedulingController)
    (shared : state.sharedAvailable = (controller.updateAvailable manager).sharedAvailable)
    (reserved : state.reservedAvailable = (controller.updateAvailable manager).reservedAvailable)
    (requestId : RequestId) (demand : Int) (needed : 0 ≤ demand) (borrowReserved : Bool) :
    controller.Refreshed manager (controller.updateAvailable manager) ∧
      state.ChargesWell requestId demand borrowReserved := by
  have refreshed := refreshed_updateAvailable controller manager
  have nonneg (owner : Option Text) : 0 ≤ state.available owner := by
    cases owner with
    | none => exact refreshed.shared.1.trans_eq shared.symm
    | some key => exact (refreshed.reserved key).1.trans_eq (by rw [available, reserved])
  refine ⟨refreshed, ?_, ?_, ?_, ?_⟩
  · intro usage returned
    obtain ⟨asked, total, counts⟩ :=
      draw_eq_some nonneg needed ((consumption_eq _).symm.trans returned)
    exact ⟨counts, total, asked.nodup nodup_sources⟩
  · intro keeps noMargin usage returned owner waits charged
    subst keeps
    obtain ⟨asked, -⟩ := draw_eq_some nonneg needed ((consumption_eq _).symm.trans returned)
    have used := (mem_cons.mp (asked.subset charged)).resolve_left nofun
    cases annotated : state.metadata.get? requestId with
    | none => simp [annotated] at used
    | some metadata =>
      rw [annotated] at used
      rcases mem_append.mp used with own | lends
      · split at own
        · exact (mem_singleton.mp own).symm
        · cases own
      · obtain ⟨_, lends, same⟩ := mem_map.mp lends
        cases same
        have lends := (mem_filter.mp lends).2
        unfold mayBorrow at lends
        rw [if_pos (by simp [waits])] at lends
        split at lends
        · simp [noMargin] at lends
        · cases lends
  · intro met less smaller
    rw [consumption_ne_none_iff nonneg] at met ⊢
    exact smaller.trans met
  · intro met
    rw [consumption_ne_none_iff nonneg] at met ⊢
    exact met.trans ((sources_sublist.map _).sum_le_sum (forall_mem_map.mpr fun key _ => nonneg key))

/-- A controller with three critical agent types, one of which has waiting requests. -/
def reservingController : SchedulingController :=
  { settings := { priorityBorrowScoreMargin := 0 }
    numLookaheadTokens := 0
    cacheCapacityPrecheck := true
    progressReservation := false
    reclaimReservation := false
    reserveRatio := 1 / 20
    metadata := .tabulate [7] fun _ => { agentType := 1 }
    plan :=
      { critical := [1, 2, 3]
        scores := .tabulate [1, 2, 3] fun key => key
        reserved := .tabulate [1, 2, 3] fun _ => 3
        shared := 4 }
    used := .tabulate [none, some 2] fun _ => 1
    waitingCritical := [3] }

theorem reservingController_chargesWell :
    let manager : NativeKVCacheManager := .init [] 10 16 64 64 true false []
    let updated := reservingController.updateAvailable manager
    updated.consumption 7 5 false = some [(none, 1), (some 1, 3), (some 2, 1)] ∧
      reservingController.Refreshed manager updated ∧ updated.ChargesWell 7 5 false :=
  ⟨by decide +kernel, updateAvailable_chargesWell _ _ _ rfl rfl 7 5 (by decide) false⟩

end TokenCake.SchedulingController
