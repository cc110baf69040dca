import Mathlib.Algebra.Order.BigOperators.Group.List
import Mathlib.Algebra.Order.Ring.Int
import Mathlib.Algebra.GroupWithZero.Nat
import Mathlib.Data.List.Basic
import Mathlib.Data.List.Perm.Subperm

/-!
# Taking from stocks in order

Items or amounts are taken from stocks that come in an order.  A withdrawal removes named items
from a queue and then takes a number of items from its front; a sequence of withdrawals takes
exactly as many items as its cost in the first state says, unless one of them takes from the front
what a later one names.  A draw takes an amount from a list of owners, from each as much as it has,
until the amount is met.
-/

namespace TokenCake

open List

namespace Withdrawal

variable {α : Type} [DecidableEq α]

/-- What a withdrawal leaves of a queue. -/
def leftover (queue : List α) (withdrawal : List α × Nat) : List α :=
  (queue.diff withdrawal.1).drop withdrawal.2

/-- Number of items that withdrawals take from a queue. -/
def cost (queue : List α) (withdrawals : List (List α × Nat)) : Nat :=
  (withdrawals.map fun withdrawal =>
    withdrawal.1.countP (fun item => decide (item ∈ queue)) + withdrawal.2).sum

@[simp] theorem cost_nil (queue : List α) : cost queue [] = 0 := rfl

theorem cost_cons (queue : List α) (withdrawal : List α × Nat) (rest : List (List α × Nat)) :
    cost queue (withdrawal :: rest) =
      withdrawal.1.countP (fun item => decide (item ∈ queue)) + withdrawal.2 + cost queue rest := by
  unfold cost
  rw [map_cons, sum_cons]

/-- No withdrawal takes from the front what a later one names. -/
def Spared (queue : List α) : List (List α × Nat) → Prop
  | [] => True
  | withdrawal :: rest =>
    (∀ later ∈ rest, ∀ item ∈ later.1, item ∉ (queue.diff withdrawal.1).take withdrawal.2) ∧
      Spared (leftover queue withdrawal) rest

instance decidableSpared (queue : List α) (withdrawals : List (List α × Nat)) :
    Decidable (Spared queue withdrawals) :=
  match withdrawals with
  | [] => .isTrue trivial
  | withdrawal :: rest =>
    have := decidableSpared (leftover queue withdrawal) rest
    inferInstanceAs (Decidable (_ ∧ Spared (leftover queue withdrawal) rest))

/-- Withdrawals that name distinct items of a queue which is long enough. -/
structure Admissible (queue : List α) (withdrawals : List (List α × Nat)) : Prop where
  nodup : queue.Nodup
  distinct : ∀ withdrawal ∈ withdrawals, ∀ item ∈ queue, withdrawal.1.count item ≤ 1
  disjoint : withdrawals.Pairwise fun first second =>
    ∀ item ∈ queue, item ∈ first.1 → item ∉ second.1
  spared : Spared queue withdrawals

section Diff

variable {queue items : List α}

/-- Removing distinct items shortens a queue by those it holds. -/
theorem length_diff_add_countP (nodup : queue.Nodup)
    (distinct : ∀ item ∈ queue, items.count item ≤ 1) :
    (queue.diff items).length + items.countP (fun item => decide (item ∈ queue)) =
      queue.length := by
  induction items generalizing queue with
  | nil => simp
  | cons first rest ih =>
    rw [diff_cons]
    have erased := ih (nodup.erase first) fun item mem =>
      Nat.le_trans (count_le_count_cons ..) (distinct item (mem_of_mem_erase mem))
    by_cases mem : first ∈ queue
    · -- The first item occurs only here, so the others are found in the shorter queue.
      have once := distinct first mem
      rw [count_cons_self] at once
      have absent : first ∉ rest := count_eq_zero.mp (by omega)
      have same : rest.countP (fun item => decide (item ∈ queue.erase first)) =
          rest.countP (fun item => decide (item ∈ queue)) := by
        refine countP_congr fun item inRest => ?_
        have different : item ≠ first := fun equal => absent (equal ▸ inRest)
        simp [mem_erase_of_ne different]
      have shorter := length_erase_of_mem mem
      have positive := length_pos_of_mem mem
      rw [countP_cons_of_pos (by simpa using mem)]
      omega
    · rw [erase_of_not_mem mem] at erased ⊢
      rw [countP_cons_of_neg (by simpa using mem)]
      exact erased

end Diff

section Step

variable {queue : List α} {withdrawal : List α × Nat} {rest : List (List α × Nat)}

section

variable (admissible : Admissible queue (withdrawal :: rest))

include admissible

/-- After a withdrawal, what later ones name is still there. -/
theorem Admissible.mem_leftover {later : List α × Nat} (isLater : later ∈ rest) {item : α}
    (named : item ∈ later.1) : item ∈ leftover queue withdrawal ↔ item ∈ queue := by
  refine ⟨fun mem => diff_subset _ _ (mem_of_mem_drop mem), fun mem => ?_⟩
  have notNamed : item ∉ withdrawal.1 := fun inFirst =>
    (pairwise_cons.mp admissible.disjoint).1 later isLater item mem inFirst named
  have kept := mem_diff_of_mem mem notNamed
  rw [← take_append_drop withdrawal.2 (queue.diff withdrawal.1)] at kept
  rcases mem_append.mp kept with taken | left
  · exact absurd taken (admissible.spared.1 later isLater item named)
  · exact left

theorem Admissible.cost_leftover : cost (leftover queue withdrawal) rest = cost queue rest := by
  unfold cost
  congr 1
  refine map_congr_left fun later isLater => ?_
  congr 1
  refine countP_congr fun item named => ?_
  simp [admissible.mem_leftover isLater named]

theorem Admissible.tail : Admissible (leftover queue withdrawal) rest := by
  have smaller : leftover queue withdrawal ⊆ queue := fun item mem =>
    diff_subset _ _ (mem_of_mem_drop mem)
  refine ⟨?_, ?_, ?_, admissible.spared.2⟩
  · exact (admissible.nodup.sublist (diff_sublist ..)).sublist (drop_sublist ..)
  · intro later isLater item mem
    exact admissible.distinct later (mem_cons_of_mem _ isLater) item (smaller mem)
  · refine (pairwise_cons.mp admissible.disjoint).2.imp ?_
    intro first second separate item mem
    exact separate item (smaller mem)

/-- A queue that covers the cost covers the first withdrawal. -/
theorem Admissible.count_le (enough : cost queue (withdrawal :: rest) ≤ queue.length) :
    withdrawal.2 ≤ (queue.diff withdrawal.1).length := by
  have shortened := length_diff_add_countP admissible.nodup
    (admissible.distinct withdrawal mem_cons_self)
  rw [cost_cons] at enough
  omega

theorem Admissible.length_leftover (enough : cost queue (withdrawal :: rest) ≤ queue.length) :
    (leftover queue withdrawal).length + cost queue (withdrawal :: rest) =
      queue.length + cost (leftover queue withdrawal) rest := by
  have shortened := length_diff_add_countP admissible.nodup
    (admissible.distinct withdrawal mem_cons_self)
  have covered := admissible.count_le enough
  rw [admissible.cost_leftover, cost_cons]
  unfold leftover
  rw [length_drop]
  omega

end

end Step

end Withdrawal

/-- What is taken from each owner, if they meet the amount together. -/
def draw (capacity : κ → Int) : List κ → Int → Option (List (κ × Int))
  | [], amount => if amount = 0 then some [] else none
  | owner :: rest, amount =>
    let taken := min amount (capacity owner)
    if amount - taken = 0 then some [(owner, taken)]
    else (draw capacity rest (amount - taken)).map ((owner, taken) :: ·)

section Step

variable (capacity : κ → Int) (owner : κ) (owners : List κ) {amount : Int}

theorem draw_cons_of_met (met : amount - min amount (capacity owner) = 0) :
    draw capacity (owner :: owners) amount = some [(owner, min amount (capacity owner))] :=
  if_pos met

theorem draw_cons_of_not_met (unmet : ¬ amount - min amount (capacity owner) = 0) :
    draw capacity (owner :: owners) amount =
      (draw capacity owners (amount - min amount (capacity owner))).map
        ((owner, min amount (capacity owner)) :: ·) :=
  if_neg unmet

end Step

variable {capacity : κ → Int} {owners : List κ} {amount : Int}
  (nonneg : ∀ owner, 0 ≤ capacity owner)

include nonneg

/-- Every owner is asked at most once, and no more is taken from it than it has. -/
theorem draw_eq_some {usage : List (κ × Int)} (needed : 0 ≤ amount)
    (drawn : draw capacity owners amount = some usage) :
    usage.map Prod.fst <+ owners ∧ (usage.map Prod.snd).sum = amount ∧
      ∀ entry ∈ usage, 0 ≤ entry.2 ∧ entry.2 ≤ capacity entry.1 := by
  induction owners generalizing amount usage with
  | nil =>
    unfold draw at drawn
    split at drawn
    · next met =>
      cases drawn
      exact ⟨.slnil, met.symm, nofun⟩
    · cases drawn
  | cons owner rest ih =>
    have count : 0 ≤ min amount (capacity owner) ∧ min amount (capacity owner) ≤ capacity owner :=
      ⟨le_min needed (nonneg owner), min_le_right ..⟩
    by_cases met : amount - min amount (capacity owner) = 0
    · cases (draw_cons_of_met capacity owner rest met).symm.trans drawn
      refine ⟨by simp, ?_, forall_mem_singleton.mpr count⟩
      rw [map_singleton, sum_singleton]
      omega
    · rw [draw_cons_of_not_met capacity owner rest met] at drawn
      obtain ⟨later, rests, rfl⟩ := Option.map_eq_some_iff.mp drawn
      obtain ⟨asked, total, counts⟩ := ih (by omega) rests
      refine ⟨asked.cons_cons owner, ?_, forall_mem_cons.mpr ⟨count, counts⟩⟩
      rw [map_cons, sum_cons, total]
      omega

/-- An amount is met exactly if the owners have it together. -/
theorem draw_ne_none_iff (needed : owners = [] → 0 ≤ amount) :
    draw capacity owners amount ≠ none ↔ amount ≤ (owners.map capacity).sum := by
  induction owners generalizing amount with
  | nil =>
    have least := needed rfl
    unfold draw
    split <;> simp <;> omega
  | cons owner rest ih =>
    have least : 0 ≤ (rest.map capacity).sum :=
      sum_nonneg (forall_mem_map.mpr fun key _ => nonneg key)
    rw [map_cons, sum_cons]
    by_cases met : amount - min amount (capacity owner) = 0
    · simp [draw_cons_of_met capacity owner rest met]
      omega
    · rw [draw_cons_of_not_met capacity owner rest met, ne_eq, Option.map_eq_none_iff, ← ne_eq,
        ih fun _ => by omega]
      omega

end TokenCake
