import Mathlib.Data.List.Sort
import Mathlib.Logic.Relation
import TokenCake.Request.Defs

/-!
# Ordering a batch by regions

Attention backends take the rows of a batch in four regions.  The rows that stand in a wrong
region are permuted among each other: a map sends them to their places, and its cycles are
walked while it is edited.
-/

namespace TokenCake

open List

/-- The regions of a batch, in their order. -/
inductive Region where
  | decode
  | shortExtend
  | longExtend
  | prefill
  deriving DecidableEq

/-- The place of a region in the order of the batch. -/
def Region.rank : Region → Nat
  | decode => 0
  | shortExtend => 1
  | longExtend => 2
  | prefill => 3

instance : LinearOrder Region :=
  LinearOrder.lift' Region.rank fun left right same => by cases left <;> cases right <;> trivial

/-- What the region of a row depends on.  The other columns of a row move with these. -/
structure BatchRow where
  reqId : RequestId
  numComputedTokens : Nat
  numPromptTokens : Nat

/-- The region of a row: how much of its request is computed, and how much is scheduled. -/
def BatchRow.region (numScheduledTokens : RequestId → Nat) (decodeThreshold : Int)
    (row : BatchRow) : Region :=
  if row.numComputedTokens = 0 then .prefill
  else if decodeThreshold < numScheduledTokens row.reqId then .longExtend
  else if row.numComputedTokens < row.numPromptTokens then .shortExtend
  else .decode

section Regions

variable (numReqs : Nat) (regions : Nat → Region)

end Regions

/-- Exchange the requests of two rows. -/
def swapStates (rows : Nat → BatchRow) (first second : Nat) : Nat → BatchRow :=
  rows ∘ Equiv.swap first second

/-- Bring the rows of a cycle of the map to their places. -/
def walkCycle (src : Nat) :
    Nat → Nat → Dict Nat Nat × (Nat → BatchRow) → Option (Dict Nat Nat × (Nat → BatchRow))
  | 0, _, _ => none
  | fuel + 1, dst, (map, rows) =>
    if src = dst then some (map, rows)
    -- A dictionary must not grow while its keys are visited.
    else if dst ∉ map then none
    else walkCycle src fuel (map.getD dst dst) (map.set dst dst, swapStates rows src dst)

section Cycles

/-- Two different rows of a list are exchanged. -/
def Exchanges (indices : List Nat) (rows next : Nat → BatchRow) : Prop :=
  ∃ first ∈ indices, ∃ second ∈ indices, first ≠ second ∧ next = swapStates rows first second

/-- Where the rows belong: the map knows the places of some rows, and all but some rows are in
their places. -/
structure Placed (region : BatchRow → Region) (goal : Nat → Region) (known unsettled : List Nat)
    (map : Dict Nat Nat) (rows : Nat → BatchRow) (place : Nat → Nat) : Prop where
  injective : place.Injective
  regions : region ∘ rows = goal ∘ place
  found : ∀ row ∈ known, map.get? row = some (place row)
  settled : ∀ row ∉ unsettled, place row = row

variable {region : BatchRow → Region} {goal : Nat → Region} {keys rest left : List Nat}
  {map : Dict Nat Nat} {rows : Nat → BatchRow} {place : Nat → Nat} {src fuel : Nat}

/-- A swap brings one row to its place, and the map says where the row belongs that was there. -/
theorem Placed.swap (placed : Placed region goal rest (src :: left) map rows place)
    (fresh : src ∉ rest) (moves : src ≠ place src) :
    place src ∈ left ∧
      Placed region goal rest (src :: left.erase (place src)) (map.set (place src) (place src))
        (swapStates rows src (place src)) (place ∘ Equiv.swap src (place src)) := by
  generalize isDst : place src = dst at *
  have mem : dst ∈ left := by
    by_contra absent
    have home := placed.settled dst (not_mem_cons_of_ne_of_not_mem moves.symm absent)
    exact moves (placed.injective (isDst.trans home.symm))
  refine ⟨mem, placed.injective.comp (Equiv.swap src dst).injective,
    congrArg (· ∘ Equiv.swap src dst) placed.regions, fun row listed => ?_, fun row settled => ?_⟩
  · by_cases same : row = dst
    · rw [same, Dict.get?_set_self, Function.comp_apply, Equiv.swap_apply_right, isDst]
    · rw [Dict.get?_set_of_ne _ same, placed.found row listed, Function.comp_apply,
        Equiv.swap_apply_of_ne_of_ne (ne_of_mem_of_not_mem listed fresh) same]
  · obtain ⟨other, settled⟩ := not_or.mp (mt mem_cons.mpr settled)
    by_cases same : row = dst
    · rw [same, Function.comp_apply, Equiv.swap_apply_right, isDst]
    · rw [Function.comp_apply, Equiv.swap_apply_of_ne_of_ne other same]
      rw [mem_erase_of_ne same] at settled
      exact placed.settled row (not_mem_cons_of_ne_of_not_mem other settled)

/-- The walk of a cycle ends, and its rows are in their places. -/
theorem Placed.walkCycle (placed : Placed region goal rest (src :: left) map rows place)
    (subset : left ⊆ rest) (fresh : src ∉ rest) (within : src :: rest ⊆ keys)
    (enough : left.length < fuel) :
    ∃ map' rows' place', TokenCake.walkCycle src fuel (place src) (map, rows) = some (map', rows') ∧
      Placed region goal rest rest map' rows' place' ∧
        Relation.ReflTransGen (Exchanges keys) rows rows' := by
  induction fuel generalizing left map rows place with
  | zero => omega
  | succ fuel ih =>
    unfold TokenCake.walkCycle
    by_cases home : src = place src
    · rw [if_pos home]
      refine ⟨map, rows, place, rfl, { placed with settled := fun row settled => ?_ }, .refl⟩
      by_cases same : row = src
      · rw [same, ← home]
      · exact placed.settled row (not_mem_cons_of_ne_of_not_mem same (mt (subset ·) settled))
    · obtain ⟨mem, swapped⟩ := placed.swap fresh home
      have found := placed.found _ (subset mem)
      have shorter := length_erase_of_mem mem
      have := length_pos_of_mem mem
      obtain ⟨map', rows', place', walked, placed', exchanged⟩ := ih swapped
        (Subset.trans erase_subset subset) (by omega)
      refine ⟨map', rows', place', ?_, placed', .head ?_ exchanged⟩
      · rw [if_neg home, if_neg (not_not.mpr (Dict.mem_of_get?_eq_some found)), Dict.getD, found]
        rw [Function.comp_apply, Equiv.swap_apply_left] at walked
        exact walked
      · exact ⟨src, within mem_cons_self, place src, within (mem_cons_of_mem _ (subset mem)),
          home, rfl⟩

end Cycles

section Places

variable {numReqs : Nat} {regions : Nat → Region}

variable {region : BatchRow → Region} {rows : Nat → BatchRow}

variable (numReqs region rows)

end Places

end TokenCake
