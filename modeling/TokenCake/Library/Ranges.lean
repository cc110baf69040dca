import Mathlib.Algebra.GroupWithZero.Nat
import Mathlib.Order.Interval.Finset.Nat
import TokenCake.Library.Sort

/-!
# Unions of half-open ranges

A list of ranges stands for the union of its members.  Sorting and merging gives a
list whose ranges neither overlap nor touch.
-/

namespace TokenCake

open List

/-- The numbers from the first component up to the second, without the second. -/
abbrev Range := Nat × Nat

/-- All numbers in some ranges. -/
def positions : List Range → Finset Nat
  | [] => ∅
  | range :: rest => Finset.Ico range.1 range.2 ∪ positions rest

theorem mem_positions {ranges : List Range} {position : Nat} :
    position ∈ positions ranges ↔ ∃ range ∈ ranges, range.1 ≤ position ∧ position < range.2 := by
  induction ranges with
  | nil => simp [positions]
  | cons range rest ih => simp [positions, ih]

/-- Ascending ranges with a gap between any two of them. -/
def Separate (ranges : List Range) : Prop :=
  (∀ range ∈ ranges, range.1 ≤ range.2) ∧ ranges.Pairwise fun earlier later => earlier.2 < later.1

/-- Add a range to the merged ranges, the last of which comes first. -/
def mergeRange : List Range → Range → List Range
  | [], range => [range]
  | last :: front, range =>
    if range.1 ≤ last.2 then (last.1, max last.2 range.2) :: front else range :: last :: front

/-- Sort ranges and merge those that touch. -/
def mergeRanges (ranges : List Range) : List Range :=
  ((sortByKey (fun range => [(range.1 : ℚ), (range.2 : ℚ)]) ranges).foldl mergeRange []).reverse

/-- How much of a range is in the ranges. -/
def overlap (ranges : List Range) (range : Range) : Nat :=
  (ranges.map fun other => min range.2 other.2 - max range.1 other.1).sum

variable {ranges merged : List Range} {range : Range}

theorem separate_mergeRange (separate : Separate merged.reverse) (proper : range.1 ≤ range.2)
    (behind : ∀ other ∈ merged, other.1 ≤ range.1) :
    Separate (mergeRange merged range).reverse ∧
      (∀ other ∈ mergeRange merged range, other.1 ≤ range.1) ∧ ∀ position,
      position ∈ positions (mergeRange merged range) ↔
        position ∈ positions merged ∨ range.1 ≤ position ∧ position < range.2 := by
  cases merged with
  | nil => simp [mergeRange, Separate, positions, proper]
  | cons last front =>
    simp only [Separate, mem_reverse, pairwise_reverse, forall_mem_cons,
      pairwise_cons] at separate behind ⊢
    obtain ⟨⟨own, each⟩, below, gaps⟩ := separate
    by_cases touching : range.1 ≤ last.2
    · simp only [mergeRange, touching, if_true, forall_mem_cons, pairwise_cons, positions,
        Finset.mem_union, Finset.mem_Ico]
      exact ⟨⟨⟨by omega, each⟩, below, gaps⟩, behind, fun position => by grind⟩
    · simp only [mergeRange, touching, if_false, forall_mem_cons, pairwise_cons,
        positions, Finset.mem_union, Finset.mem_Ico]
      refine ⟨⟨⟨proper, own, each⟩, ⟨by omega, fun other mem => ?_⟩, below, gaps⟩,
        ⟨le_rfl, behind⟩, fun position => by grind⟩
      have gap := below other mem
      omega

theorem separate_foldl_mergeRange (sorted : ranges.Pairwise fun earlier later => earlier.1 ≤ later.1)
    (proper : ∀ range ∈ ranges, range.1 ≤ range.2) (separate : Separate merged.reverse)
    (behind : ∀ other ∈ merged, ∀ range ∈ ranges, other.1 ≤ range.1) :
    Separate (ranges.foldl mergeRange merged).reverse ∧ ∀ position,
      position ∈ positions (ranges.foldl mergeRange merged) ↔
        position ∈ positions merged ∨ position ∈ positions ranges := by
  induction sorted generalizing merged with
  | nil => exact ⟨separate, by simp [positions]⟩
  | @cons range rest first sorted ih =>
    rw [forall_mem_cons] at proper
    obtain ⟨separate, low, grown⟩ := separate_mergeRange separate proper.1 fun other mem =>
      behind other mem range mem_cons_self
    obtain ⟨separate, whole⟩ := ih proper.2 separate fun other mem later inRest =>
      (low other mem).trans (first later inRest)
    refine ⟨separate, fun position => (whole position).trans ?_⟩
    rw [grown, positions, Finset.mem_union, Finset.mem_Ico, or_assoc]

theorem separate_mergeRanges (proper : ∀ range ∈ ranges, range.1 ≤ range.2) :
    Separate (mergeRanges ranges) ∧
      ∀ position, position ∈ positions (mergeRanges ranges) ↔ position ∈ positions ranges := by
  have perm := sortByKey_perm (fun range : Range => [(range.1 : ℚ), (range.2 : ℚ)]) ranges
  have sorted := (sortByKey_pairwise (fun range : Range => [(range.1 : ℚ), (range.2 : ℚ)])
    ranges).imp fun {earlier later} le => show earlier.1 ≤ later.1 by
      exact_mod_cast head_le_of_le le
  have same {first second : List Range} (perm : first.Perm second) (position : Nat) :
      position ∈ positions first ↔ position ∈ positions second := by
    simp only [mem_positions, perm.mem_iff]
  have start : Separate ([] : List Range).reverse := ⟨nofun, .nil⟩
  obtain ⟨separate, whole⟩ := separate_foldl_mergeRange sorted
    (fun range mem => proper range (perm.mem_iff.mp mem)) start nofun
  refine ⟨separate, fun position => (same (reverse_perm _) position).trans ?_⟩
  rw [whole position, same perm position]
  simp [positions]

/-- Separate ranges share no position, so their overlaps add up. -/
theorem Separate.overlap_eq_card (separate : Separate ranges) (range : Range) :
    overlap ranges range = (Finset.Ico range.1 range.2 ∩ positions ranges).card := by
  induction ranges with
  | nil => simp [overlap, positions]
  | cons first rest ih =>
    obtain ⟨each, gaps⟩ := separate
    rw [forall_mem_cons] at each
    rw [pairwise_cons] at gaps
    have apart : Disjoint (Finset.Ico range.1 range.2 ∩ Finset.Ico first.1 first.2)
        (Finset.Ico range.1 range.2 ∩ positions rest) := by
      rw [Finset.disjoint_left]
      intro position inFirst inRest
      simp only [Finset.mem_inter, Finset.mem_Ico, mem_positions] at inFirst inRest
      obtain ⟨-, other, mem, inside⟩ := inRest
      have gap := gaps.1 other mem
      omega
    rw [positions, Finset.inter_union_distrib_left, Finset.card_union_of_disjoint apart,
      ← ih ⟨each.2, gaps.2⟩, Finset.Ico_inter_Ico, Nat.card_Ico]
    rfl

end TokenCake
