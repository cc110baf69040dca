import Mathlib.Data.Rat.Floor
import TokenCake.Request.Defs

/-!
# Cache policies of the CPU cache

A policy organises the blocks of the CPU cache and decides which of them are evicted.
Blocks are objects that the manager shares with the policy; here the policy holds their
values, and `setRefCnt` is the manager's assignment to a block it has looked up.

An eviction of `n` blocks should fail only if fewer than `n` blocks may be evicted.  This
holds for the least recently used policy.  The adaptive policy leaves `t1` alone while it is
smaller than its target, so an eviction may fail although `t1` holds enough blocks.
-/

namespace TokenCake

open List

/-- A block hash together with a KV cache group. -/
structure OffloadKey where
  blockHash : Bytes
  groupIdx : Nat
deriving DecidableEq, Repr

/-- Status of a block of the CPU cache; a count of −1 marks a block that is not ready. -/
structure BlockStatus where
  refCnt : Int := -1
  blockId : Nat
deriving DecidableEq, Repr

/-- Whether the block can be read. -/
def BlockStatus.isReady (block : BlockStatus) : Bool := decide (block.refCnt ≥ 0)

namespace Dict

variable {κ : Type u} {ν : Type v} [DecidableEq κ]

/-- `move_to_end` of an ordered dictionary. -/
def moveToEnd (dict : Dict κ ν) (key : κ) : Dict κ ν :=
  match dict.get? key with
  | none => dict
  | some value => (dict.erase key).set key value

/-- Change the value of a present key. -/
def modify (dict : Dict κ ν) (key : κ) (change : ν → ν) : Dict κ ν :=
  match dict.get? key with
  | none => dict
  | some value => dict.set key (change value)

theorem get?_moveToEnd (dict : Dict κ ν) (key other : κ) :
    (dict.moveToEnd key).get? other = dict.get? other := by
  unfold moveToEnd
  split
  · rfl
  · next value found =>
    rw [get?_set, get?_erase]
    split
    · next same => rw [same, found]
    · rfl

theorem get?_modify (dict : Dict κ ν) (key other : κ) (change : ν → ν) :
    (dict.modify key change).get? other =
      if other = key then (dict.get? key).map change else dict.get? other := by
  unfold modify
  split
  · next absent =>
    split
    · next same => rw [same, absent, Option.map_none]
    · rfl
  · next value found => rw [get?_set, found, Option.map_some]

end Dict

/-- Whether a block may be evicted. -/
def isEvictable (protectedKeys : List OffloadKey) (entry : OffloadKey × BlockStatus) : Bool :=
  decide (entry.2.refCnt = 0) && !decide (entry.1 ∈ protectedKeys)

/-- Least recently used blocks are evicted first. -/
structure LRUCachePolicy where
  blocks : Dict OffloadKey BlockStatus

namespace LRUCachePolicy

section

variable (policy : LRUCachePolicy)

/-- The block of a key, if it is cached. -/
def get (key : OffloadKey) : Option BlockStatus := policy.blocks.get? key

/-- Insert a block as the most recently used one. -/
def insert (key : OffloadKey) (block : BlockStatus) : LRUCachePolicy :=
  ⟨policy.blocks.set key block⟩

/-- Remove a block. -/
def remove (key : OffloadKey) : LRUCachePolicy :=
  ⟨policy.blocks.erase key⟩

/-- Mark keys as used, the first one last. -/
def touch (keys : List OffloadKey) : LRUCachePolicy :=
  ⟨keys.reverse.foldl Dict.moveToEnd policy.blocks⟩

/-- Change the reference count of a block. -/
def setRefCnt (key : OffloadKey) (refCnt : Int) : LRUCachePolicy :=
  ⟨policy.blocks.modify key fun block => { block with refCnt := refCnt }⟩

/-- Evict the first blocks that may be evicted, or none at all. -/
def evict (n : Nat) (protectedKeys : List OffloadKey) :
    Option (List (OffloadKey × BlockStatus) × LRUCachePolicy) :=
  let candidates := (policy.blocks.entries.filter (isEvictable protectedKeys)).take n
  if candidates.length < n then none
  else some (candidates, ⟨candidates.foldl (fun blocks entry => blocks.erase entry.1)
    policy.blocks⟩)

end

end LRUCachePolicy

/-- Adaptive replacement: `t1` holds blocks that were used once, `t2` blocks that were used
again, and the ghost lists `b1` and `b2` remember what was evicted from them.  The target is a
float: `round` rounds the results of its arithmetic, and is the identity for exact numbers. -/
structure ARCCachePolicy where
  cacheCapacity : Nat
  round : ℚ → ℚ := id
  targetT1Size : ℚ := 0
  t1 : Dict OffloadKey BlockStatus := .empty
  t2 : Dict OffloadKey BlockStatus := .empty
  b1 : Dict OffloadKey Unit := .empty
  b2 : Dict OffloadKey Unit := .empty

namespace ARCCachePolicy

/-- The block of a key, if it is cached. -/
def get (policy : ARCCachePolicy) (key : OffloadKey) : Option BlockStatus :=
  (policy.t1.get? key).or (policy.t2.get? key)

/-- Insert a block as one that was used once, and forget that it was evicted. -/
def insert (policy : ARCCachePolicy) (key : OffloadKey) (block : BlockStatus) : ARCCachePolicy :=
  { policy with
    t1 := policy.t1.set key block
    b1 := policy.b1.erase key
    b2 := policy.b2.erase key }

/-- Remove a block. -/
def remove (policy : ARCCachePolicy) (key : OffloadKey) : ARCCachePolicy :=
  if key ∈ policy.t1 then { policy with t1 := policy.t1.erase key }
  else { policy with t2 := policy.t2.erase key }

/-- One key of `touch`: a hit is moved, a ghost hit adapts the target. -/
def touchKey (policy : ARCCachePolicy) (key : OffloadKey) : ARCCachePolicy :=
  match policy.t1.get? key with
  | some block =>
    if block.isReady then
      { policy with t1 := policy.t1.erase key, t2 := policy.t2.set key block }
    else { policy with t1 := (policy.t1.erase key).set key block }
  | none =>
    if key ∈ policy.t2 then { policy with t2 := policy.t2.moveToEnd key }
    else if key ∈ policy.b1 then
      let delta := max 1 (policy.round (policy.b2.entries.length / policy.b1.entries.length))
      { policy with
        targetT1Size := min (policy.round (policy.targetT1Size + delta)) policy.cacheCapacity
        b1 := policy.b1.moveToEnd key }
    else if key ∈ policy.b2 then
      let delta := max 1 (policy.round (policy.b1.entries.length / policy.b2.entries.length))
      { policy with
        targetT1Size := max (policy.round (policy.targetT1Size - delta)) 0
        b2 := policy.b2.moveToEnd key }
    else policy

/-- Mark keys as used, the first one last. -/
def touch (policy : ARCCachePolicy) (keys : List OffloadKey) : ARCCachePolicy :=
  keys.reverse.foldl touchKey policy

/-- Change the reference count of a block. -/
def setRefCnt (policy : ARCCachePolicy) (key : OffloadKey) (refCnt : Int) : ARCCachePolicy :=
  if key ∈ policy.t1 then
    { policy with t1 := policy.t1.modify key fun block => { block with refCnt := refCnt } }
  else { policy with t2 := policy.t2.modify key fun block => { block with refCnt := refCnt } }

/-- The next block to evict, and whether it comes from `t1`. -/
def candidate (policy : ARCCachePolicy) (excluded : List OffloadKey)
    (virtualT1Size : Int) : Option (OffloadKey × BlockStatus × Bool) :=
  let fromT1 :=
    if virtualT1Size ≥ ⌊policy.targetT1Size⌋ then
      policy.t1.entries.find? (isEvictable excluded)
    else none
  match fromT1 with
  | some (key, block) => some (key, block, true)
  | none =>
    (policy.t2.entries.find? (isEvictable excluded)).map fun entry => (entry.1, entry.2, false)

/-- The next `n` blocks to evict, while only the size of `t1` is simulated. -/
def candidates (policy : ARCCachePolicy) :
    Nat → List OffloadKey → Int → Option (List (OffloadKey × BlockStatus × Bool))
  | 0, _, _ => some []
  | n + 1, excluded, virtualT1Size => do
      let chosen ← policy.candidate excluded virtualT1Size
      let rest ← policy.candidates n (chosen.1 :: excluded)
        (if chosen.2.2 then virtualT1Size - 1 else virtualT1Size)
      return chosen :: rest

/-- Evict a chosen block and remember its key. -/
def discard (policy : ARCCachePolicy) (chosen : OffloadKey × BlockStatus × Bool) : ARCCachePolicy :=
  if chosen.2.2 then
    { policy with t1 := policy.t1.erase chosen.1, b1 := policy.b1.set chosen.1 () }
  else { policy with t2 := policy.t2.erase chosen.1, b2 := policy.b2.set chosen.1 () }

/-- Evict `n` blocks, or none at all, and trim the ghost lists. -/
def evict (policy : ARCCachePolicy) (n : Nat) (protectedKeys : List OffloadKey) :
    Option (List (OffloadKey × BlockStatus) × ARCCachePolicy) :=
  if n = 0 then some ([], policy)
  else do
    let chosen ← policy.candidates n protectedKeys policy.t1.entries.length
    let discarded := chosen.foldl discard policy
    return (chosen.map fun entry => (entry.1, entry.2.1),
      { discarded with
        b1 := discarded.b1.dropOldest (discarded.b1.entries.length - policy.cacheCapacity)
        b2 := discarded.b2.dropOldest (discarded.b2.entries.length - policy.cacheCapacity) })

end ARCCachePolicy

/-- The supported policies. -/
inductive CachePolicy where
  | lru (policy : LRUCachePolicy)
  | arc (policy : ARCCachePolicy)

namespace CachePolicy

/-- Find a block. -/
def get : CachePolicy → OffloadKey → Option BlockStatus
  | lru policy => policy.get
  | arc policy => policy.get

/-- Add a newly allocated block. -/
def insert : CachePolicy → OffloadKey → BlockStatus → CachePolicy
  | lru policy, key, block => lru (policy.insert key block)
  | arc policy, key, block => arc (policy.insert key block)

/-- Remove a block after a failed store. -/
def remove : CachePolicy → OffloadKey → CachePolicy
  | lru policy, key => lru (policy.remove key)
  | arc policy, key => arc (policy.remove key)

/-- Mark blocks as recently used. -/
def touch : CachePolicy → List OffloadKey → CachePolicy
  | lru policy, keys => lru (policy.touch keys)
  | arc policy, keys => arc (policy.touch keys)

/-- Assign to the reference count of a block. -/
def setRefCnt : CachePolicy → OffloadKey → Int → CachePolicy
  | lru policy, key, refCnt => lru (policy.setRefCnt key refCnt)
  | arc policy, key, refCnt => arc (policy.setRefCnt key refCnt)

/-- Evict exactly `n` blocks that are not protected, or none at all. -/
def evict : CachePolicy → Nat → List OffloadKey →
    Option (List (OffloadKey × BlockStatus) × CachePolicy)
  | lru policy, n, keys => (policy.evict n keys).map fun result => (result.1, lru result.2)
  | arc policy, n, keys => (policy.evict n keys).map fun result => (result.1, arc result.2)

/-- Remove all blocks. -/
def clear : CachePolicy → CachePolicy
  | lru _ => lru ⟨.empty⟩
  | arc policy => arc { cacheCapacity := policy.cacheCapacity, round := policy.round }

end CachePolicy

section Dictionaries

variable {κ : Type u} {ν : Type v} [DecidableEq κ]

theorem Dict.mem_moveToEnd {dict : Dict κ ν} {key other : κ} :
    other ∈ dict.moveToEnd key ↔ other ∈ dict := by
  rw [Dict.mem_iff_exists_get?, Dict.mem_iff_exists_get?, Dict.get?_moveToEnd]

theorem Dict.mem_modify {dict : Dict κ ν} {key other : κ} {change : ν → ν} :
    other ∈ dict.modify key change ↔ other ∈ dict := by
  unfold Dict.modify
  split
  · rfl
  · next value found =>
    rw [Dict.mem_set]
    refine ⟨fun mem => ?_, .inr⟩
    rcases mem with rfl | mem
    · exact Dict.mem_of_get?_eq_some found
    · exact mem

variable (keys : List κ) (dict : Dict κ ν)

/-- Erasing keys one after the other. -/
theorem Dict.get?_foldl_erase (other : κ) :
    (keys.foldl Dict.erase dict).get? other = if other ∈ keys then none else dict.get? other := by
  induction keys generalizing dict with
  | nil => simp
  | cons key rest ih =>
    rw [foldl_cons, ih, Dict.get?_erase]
    by_cases head : other = key <;> by_cases tail : other ∈ rest <;> simp [head, tail]

theorem Dict.get?_foldl_moveToEnd
    (other : κ) : (keys.foldl Dict.moveToEnd dict).get? other = dict.get? other := by
  induction keys generalizing dict with
  | nil => rfl
  | cons key rest ih =>
    rw [foldl_cons, ih, Dict.get?_moveToEnd]

/-- A listed entry is the one its key finds. -/
theorem Dict.get?_of_mem_entries {dict : Dict κ ν}
    (mem : entry ∈ dict.entries) : dict.get? entry.1 = some entry.2 :=
  Dict.get?_eq_some_iff.mpr mem

end Dictionaries

theorem isEvictable_iff {protectedKeys : List OffloadKey} {entry : OffloadKey × BlockStatus} :
    isEvictable protectedKeys entry = true ↔ entry.2.refCnt = 0 ∧ entry.1 ∉ protectedKeys := by
  simp [isEvictable]

/-- What an eviction returns and leaves behind. -/
structure Evicted (before after : OffloadKey → Option BlockStatus) (n : Nat)
    (protectedKeys : List OffloadKey) (evicted : List (OffloadKey × BlockStatus)) : Prop where
  length : evicted.length = n
  distinct : (evicted.map Prod.fst).Nodup
  found : ∀ entry ∈ evicted, before entry.1 = some entry.2
  unused : ∀ entry ∈ evicted, entry.2.refCnt = 0
  unprotected : ∀ entry ∈ evicted, entry.1 ∉ protectedKeys
  rest : ∀ key, after key = if key ∈ evicted.map Prod.fst then none else before key

variable {evicted : List (OffloadKey × BlockStatus)} {protectedKeys : List OffloadKey} {n : Nat}

namespace LRUCachePolicy

theorem evicted_of_evict {policy next : LRUCachePolicy}
    (returned : policy.evict n protectedKeys = some (evicted, next)) :
    Evicted policy.get next.get n protectedKeys evicted := by
  unfold evict at returned
  dsimp only at returned
  split at returned
  · cases returned
  · next enough =>
    cases returned
    set chosen := (policy.blocks.entries.filter (isEvictable protectedKeys)).take n
    have listed : ∀ entry ∈ chosen, entry ∈ policy.blocks.entries ∧
        isEvictable protectedKeys entry = true := fun entry mem =>
      mem_filter.mp (mem_of_mem_take mem)
    have short : chosen.length ≤ n := length_take_le ..
    have sublist : chosen.Sublist policy.blocks.entries :=
      (take_sublist ..).trans filter_sublist
    refine ⟨by omega, policy.blocks.nodup.sublist (sublist.map Prod.fst),
      fun entry mem => ?_, fun entry mem => ?_, fun entry mem => ?_,
      fun key => ?_⟩
    · exact Dict.get?_of_mem_entries (listed entry mem).1
    · exact (isEvictable_iff.mp (listed entry mem).2).1
    · exact (isEvictable_iff.mp (listed entry mem).2).2
    · have erased := Dict.get?_foldl_erase (chosen.map Prod.fst) policy.blocks key
      rw [foldl_map] at erased
      exact erased

end LRUCachePolicy

namespace ARCCachePolicy

/-- No block is in both parts of the cache. -/
def Disjoint (policy : ARCCachePolicy) : Prop := ∀ key ∈ policy.t1, key ∉ policy.t2

variable {policy next : ARCCachePolicy} {key : OffloadKey}

theorem get_of_mem_t1 (mem : key ∈ policy.t1) : policy.get key = policy.t1.get? key := by
  obtain ⟨block, found⟩ := Dict.exists_get?_of_mem mem
  rw [get, found]
  rfl

theorem get_of_notMem_t1 (absent : key ∉ policy.t1) : policy.get key = policy.t2.get? key := by
  rw [get, Dict.get?_eq_none_iff.mpr absent]
  rfl

theorem get_touchKey (disjoint : policy.Disjoint) (key other : OffloadKey) :
    (policy.touchKey key).get other = policy.get other := by
  unfold touchKey
  split
  · next block found =>
    have notInT2 : policy.t2.get? key = none :=
      Dict.get?_eq_none_iff.mpr (disjoint key (Dict.mem_of_get?_eq_some found))
    split
    · unfold get
      rw [Dict.get?_erase, Dict.get?_set]
      split
      · next same => rw [same, found]; rfl
      · rfl
    · unfold get
      rw [Dict.get?_set, Dict.get?_erase]
      split
      · next same => rw [same, found]
      · rfl
  · split
    · unfold get
      rw [Dict.get?_moveToEnd]
    · split
      · rfl
      · split <;> rfl

theorem Disjoint.touchKey (disjoint : policy.Disjoint) (key : OffloadKey) :
    (policy.touchKey key).Disjoint := by
  unfold ARCCachePolicy.touchKey
  split
  · next block found =>
    have mem := Dict.mem_of_get?_eq_some found
    split
    · intro other inT1 inT2
      rw [Dict.mem_erase] at inT1
      rw [Dict.mem_set] at inT2
      exact disjoint other inT1.2 (inT2.resolve_left inT1.1)
    · intro other inT1 inT2
      rw [Dict.mem_set, Dict.mem_erase] at inT1
      rcases inT1 with rfl | inT1
      · exact disjoint other mem inT2
      · exact disjoint other inT1.2 inT2
  · split
    · intro other inT1 inT2
      exact disjoint other inT1 (Dict.mem_moveToEnd.mp inT2)
    · split
      · exact disjoint
      · split <;> exact disjoint

theorem get_touch (disjoint : policy.Disjoint) (keys : List OffloadKey) :
    (policy.touch keys).Disjoint ∧ ∀ other, (policy.touch keys).get other = policy.get other := by
  unfold touch
  generalize keys.reverse = order
  induction order generalizing policy with
  | nil => exact ⟨disjoint, fun _ => rfl⟩
  | cons key rest ih =>
    obtain ⟨stays, same⟩ := ih (disjoint.touchKey key)
    exact ⟨stays, fun other => (same other).trans (get_touchKey disjoint key other)⟩

variable {chosen : List (OffloadKey × BlockStatus × Bool)} {excluded : List OffloadKey}
  {virtualT1Size : Int}

section

variable (disjoint : policy.Disjoint)

include disjoint

/-- A candidate is a block that may be evicted. -/
theorem candidate_spec {chosen : OffloadKey × BlockStatus × Bool}
    (returned : policy.candidate excluded virtualT1Size = some chosen) :
    policy.get chosen.1 = some chosen.2.1 ∧ chosen.2.1.refCnt = 0 ∧ chosen.1 ∉ excluded ∧
      (chosen.2.2 = true ↔ chosen.1 ∈ policy.t1) := by
  unfold candidate at returned
  dsimp only at returned
  split at returned
  · next key block found =>
    cases returned
    rw [Option.ite_none_right_eq_some] at found
    have listed := Dict.get?_of_mem_entries (mem_of_find?_eq_some found.2)
    have mem := Dict.mem_of_get?_eq_some listed
    obtain ⟨unused, free⟩ := isEvictable_iff.mp (find?_some found.2)
    exact ⟨(get_of_mem_t1 mem).trans listed, unused, free, fun _ => mem, fun _ => rfl⟩
  · obtain ⟨⟨key, block⟩, found, rfl⟩ := Option.map_eq_some_iff.mp returned
    have listed := Dict.get?_of_mem_entries (mem_of_find?_eq_some found)
    have notInT1 : key ∉ policy.t1 := fun mem =>
      disjoint key mem (Dict.mem_of_get?_eq_some listed)
    obtain ⟨unused, free⟩ := isEvictable_iff.mp (find?_some found)
    exact ⟨(get_of_notMem_t1 notInT1).trans listed, unused, free, nofun, fun mem =>
      absurd mem notInT1⟩

/-- The candidates are distinct blocks that may be evicted. -/
theorem candidates_spec (returned : policy.candidates n excluded virtualT1Size = some chosen) :
    chosen.length = n ∧ (chosen.map Prod.fst).Nodup ∧
      ∀ entry ∈ chosen, policy.get entry.1 = some entry.2.1 ∧ entry.2.1.refCnt = 0 ∧
        entry.1 ∉ excluded ∧ (entry.2.2 = true ↔ entry.1 ∈ policy.t1) := by
  induction n generalizing excluded virtualT1Size chosen with
  | zero =>
    cases returned
    exact ⟨rfl, nodup_nil, nofun⟩
  | succ n ih =>
    obtain ⟨first, isFirst, returned⟩ := Option.bind_eq_some_iff.mp returned
    obtain ⟨rest, isRest, returned⟩ := Option.bind_eq_some_iff.mp returned
    cases returned
    obtain ⟨length, nodup, others⟩ := ih isRest
    have head := candidate_spec disjoint isFirst
    refine ⟨congrArg (· + 1) length, ?_, ?_⟩
    · rw [map_cons, nodup_cons]
      refine ⟨fun mem => ?_, nodup⟩
      obtain ⟨entry, inRest, same⟩ := mem_map.mp mem
      exact (others entry inRest).2.2.1 (same ▸ mem_cons_self)
    · intro entry mem
      rcases mem_cons.mp mem with rfl | inRest
      · exact head
      · obtain ⟨found, unused, free, part⟩ := others entry inRest
        exact ⟨found, unused, fun isExcluded => free (mem_cons_of_mem _ isExcluded), part⟩

theorem discard_spec {chosen : OffloadKey × BlockStatus × Bool}
    (part : chosen.2.2 = true ↔ chosen.1 ∈ policy.t1) :
    (policy.discard chosen).Disjoint ∧ (∀ other, (policy.discard chosen).get other =
        if other = chosen.1 then none else policy.get other) ∧
      ∀ other, other ≠ chosen.1 → (other ∈ (policy.discard chosen).t1 ↔ other ∈ policy.t1) := by
  unfold discard
  split
  · next isT1 =>
    have notInT2 : policy.t2.get? chosen.1 = none :=
      Dict.get?_eq_none_iff.mpr (disjoint _ (part.mp isT1))
    refine ⟨fun other inT1 => disjoint other (Dict.mem_erase.mp inT1).2, fun other => ?_,
      fun other different => ?_⟩
    · unfold get
      rw [Dict.get?_erase]
      split
      · next same => rw [same, notInT2]; rfl
      · rfl
    · rw [Dict.mem_erase]
      exact ⟨And.right, fun mem => ⟨different, mem⟩⟩
  · next notT1 =>
    have notInT1 : policy.t1.get? chosen.1 = none :=
      Dict.get?_eq_none_iff.mpr fun mem => notT1 (part.mpr mem)
    refine ⟨fun other inT1 inT2 => disjoint other inT1 (Dict.mem_erase.mp inT2).2,
      fun other => ?_, fun _ _ => Iff.rfl⟩
    unfold get
    rw [Dict.get?_erase]
    split
    · next same => rw [same, notInT1]; rfl
    · rfl

theorem foldl_discard_spec (nodup : (chosen.map Prod.fst).Nodup)
    (part : ∀ entry ∈ chosen, (entry.2.2 = true ↔ entry.1 ∈ policy.t1)) :
    (chosen.foldl discard policy).Disjoint ∧ ∀ other, (chosen.foldl discard policy).get other =
        if other ∈ chosen.map Prod.fst then none else policy.get other := by
  induction chosen generalizing policy with
  | nil => exact ⟨disjoint, fun other => (if_neg not_mem_nil).symm⟩
  | cons head rest ih =>
    rw [map_cons, nodup_cons] at nodup
    obtain ⟨stays, gone, others⟩ := discard_spec disjoint (part head mem_cons_self)
    have restPart : ∀ entry ∈ rest, (entry.2.2 = true ↔ entry.1 ∈ (policy.discard head).t1) := by
      intro entry mem
      have different : entry.1 ≠ head.1 := fun same =>
        nodup.1 (same ▸ mem_map_of_mem mem)
      rw [others entry.1 different]
      exact part entry (mem_cons_of_mem _ mem)
    obtain ⟨final, found⟩ := ih stays nodup.2 restPart
    refine ⟨final, fun other => (found other).trans ?_⟩
    rw [gone, map_cons]
    by_cases isHead : other = head.1 <;> by_cases inRest : other ∈ rest.map Prod.fst <;>
      simp only [isHead, inRest, mem_cons, true_or, or_true, false_or, if_true, if_false, ite_self]

theorem evicted_of_evict (returned : policy.evict n protectedKeys = some (evicted, next)) :
    next.Disjoint ∧ Evicted policy.get next.get n protectedKeys evicted := by
  unfold evict at returned
  split at returned
  · next nothing =>
    cases returned
    exact ⟨disjoint, nothing.symm, nodup_nil, nofun, nofun, nofun, fun key =>
      (if_neg not_mem_nil).symm⟩
  · obtain ⟨chosen, isChosen, returned⟩ := Option.bind_eq_some_iff.mp returned
    cases returned
    obtain ⟨length, nodup, spec⟩ := candidates_spec disjoint isChosen
    obtain ⟨stays, found⟩ := foldl_discard_spec disjoint nodup fun entry mem =>
      (spec entry mem).2.2.2
    have keys : (chosen.map fun entry => (entry.1, entry.2.1)).map Prod.fst =
        chosen.map Prod.fst := by
      rw [map_map]
      rfl
    refine ⟨stays, ?_, ?_, ?_, ?_, ?_, fun key => ?_⟩
    · rw [length_map, length]
    · rw [keys]
      exact nodup
    · intro entry mem
      obtain ⟨choice, inChosen, rfl⟩ := mem_map.mp mem
      exact (spec choice inChosen).1
    · intro entry mem
      obtain ⟨choice, inChosen, rfl⟩ := mem_map.mp mem
      exact (spec choice inChosen).2.1
    · intro entry mem
      obtain ⟨choice, inChosen, rfl⟩ := mem_map.mp mem
      exact (spec choice inChosen).2.2.1
    · rw [keys]
      exact found key

end

end ARCCachePolicy

namespace CachePolicy

/-- The parts of the cache are disjoint. -/
def Valid : CachePolicy → Prop
  | lru _ => True
  | arc policy => policy.Disjoint

/-- The key can be inserted: it is new, or was just inserted. -/
def MayInsert : CachePolicy → OffloadKey → Prop
  | lru _, _ => True
  | arc policy, key => key ∉ policy.t2

variable {policy next : CachePolicy} {key : OffloadKey}

theorem mayInsert_of_get_eq_none (absent : policy.get key = none) : policy.MayInsert key := by
  cases policy with
  | lru policy => trivial
  | arc policy =>
    intro mem
    obtain ⟨block, found⟩ := Dict.exists_get?_of_mem mem
    change (policy.t1.get? key).or (policy.t2.get? key) = none at absent
    rw [Option.or_eq_none_iff, found] at absent
    cases absent.2

theorem mayInsert_insert {key other : OffloadKey} {block : BlockStatus} :
    (policy.insert other block).MayInsert key ↔ policy.MayInsert key := by
  cases policy <;> exact Iff.rfl

theorem get_insert (policy : CachePolicy) (key other : OffloadKey) (block : BlockStatus) :
    (policy.insert key block).get other = if other = key then some block else policy.get other := by
  cases policy with
  | lru policy => exact Dict.get?_set ..
  | arc policy =>
    change ((policy.t1.set key block).get? other).or (policy.t2.get? other) = _
    rw [Dict.get?_set]
    split <;> rfl

section

variable (valid : policy.Valid)

include valid

theorem Valid.insert (mayInsert : policy.MayInsert key)
    (block : BlockStatus) : (policy.insert key block).Valid := by
  cases policy with
  | lru policy => trivial
  | arc policy =>
    intro other mem
    rcases Dict.mem_set.mp mem with rfl | mem
    · exact mayInsert
    · exact valid other mem

theorem get_remove (key other : OffloadKey) :
    (policy.remove key).get other = if other = key then none else policy.get other := by
  cases policy with
  | lru policy => exact Dict.get?_erase ..
  | arc policy =>
    change (policy.remove key).get other = _
    unfold ARCCachePolicy.remove
    split
    · next mem =>
      have notInT2 := Dict.get?_eq_none_iff.mpr (valid key mem)
      change ((policy.t1.erase key).get? other).or (policy.t2.get? other) = _
      rw [Dict.get?_erase]
      split
      · next same => rw [same, notInT2]; rfl
      · rfl
    · next absent =>
      change (policy.t1.get? other).or ((policy.t2.erase key).get? other) = _
      rw [Dict.get?_erase]
      split
      · next same => rw [same, Dict.get?_eq_none_iff.mpr absent]; rfl
      · rfl

theorem Valid.remove (key : OffloadKey) : (policy.remove key).Valid := by
  cases policy with
  | lru policy => trivial
  | arc policy =>
    change (policy.remove key).Disjoint
    unfold ARCCachePolicy.remove
    split
    · exact fun other mem => valid other (Dict.mem_erase.mp mem).2
    · exact fun other mem inT2 => valid other mem (Dict.mem_erase.mp inT2).2

theorem get_touch (keys : List OffloadKey) (other : OffloadKey) :
    (policy.touch keys).get other = policy.get other := by
  cases policy with
  | lru policy => exact Dict.get?_foldl_moveToEnd ..
  | arc policy => exact (ARCCachePolicy.get_touch valid keys).2 other

theorem Valid.touch (keys : List OffloadKey) : (policy.touch keys).Valid := by
  cases policy with
  | lru policy => trivial
  | arc policy => exact (ARCCachePolicy.get_touch valid keys).1

end

theorem get_setRefCnt (policy : CachePolicy) (key other : OffloadKey) (refCnt : Int) :
    (policy.setRefCnt key refCnt).get other =
      if other = key then (policy.get key).map fun block => { block with refCnt := refCnt }
      else policy.get other := by
  cases policy with
  | lru policy => exact Dict.get?_modify ..
  | arc policy =>
    change (policy.setRefCnt key refCnt).get other = if _ then (policy.get key).map _ else _
    unfold ARCCachePolicy.setRefCnt
    split
    · next mem =>
      rw [ARCCachePolicy.get_of_mem_t1 mem]
      unfold ARCCachePolicy.get
      rw [Dict.get?_modify]
      obtain ⟨block, found⟩ := Dict.exists_get?_of_mem mem
      split
      · rw [found]
        rfl
      · rfl
    · next absent =>
      rw [ARCCachePolicy.get_of_notMem_t1 absent]
      unfold ARCCachePolicy.get
      rw [Dict.get?_modify]
      split
      · next same => rw [same, Dict.get?_eq_none_iff.mpr absent]; rfl
      · rfl

theorem Valid.setRefCnt (valid : policy.Valid) (key : OffloadKey)
    (refCnt : Int) : (policy.setRefCnt key refCnt).Valid := by
  cases policy with
  | lru policy => trivial
  | arc policy =>
    change (policy.setRefCnt key refCnt).Disjoint
    unfold ARCCachePolicy.setRefCnt
    split
    · exact fun other mem => valid other (Dict.mem_modify.mp mem)
    · exact fun other mem inT2 => valid other mem (Dict.mem_modify.mp inT2)

theorem Valid.evict (valid : policy.Valid)
    (returned : policy.evict n protectedKeys = some (evicted, next)) :
    next.Valid ∧ Evicted policy.get next.get n protectedKeys evicted := by
  cases policy with
  | lru policy =>
    obtain ⟨⟨result, changed⟩, found, same⟩ := Option.map_eq_some_iff.mp returned
    cases same
    exact ⟨trivial, LRUCachePolicy.evicted_of_evict found⟩
  | arc policy =>
    obtain ⟨⟨result, changed⟩, found, same⟩ := Option.map_eq_some_iff.mp returned
    cases same
    exact ARCCachePolicy.evicted_of_evict valid found

theorem valid_clear (policy : CachePolicy) : policy.clear.Valid := by
  cases policy with
  | lru policy => trivial
  | arc policy => exact fun key mem => absurd mem (Dict.not_mem_empty key)

end CachePolicy

open List Option

/-- Number of listed blocks that may be evicted. -/
def numEvictable (excluded : List OffloadKey) (entries : List (OffloadKey × BlockStatus)) : Nat :=
  entries.countP (isEvictable excluded)

section Counting

variable {entries : List (OffloadKey × BlockStatus)} {excluded : List OffloadKey}

theorem isEvictable_cons (key : OffloadKey) (excluded : List OffloadKey)
    (entry : OffloadKey × BlockStatus) (different : entry.1 ≠ key) :
    isEvictable (key :: excluded) entry = isEvictable excluded entry := by
  unfold isEvictable
  simp [different]

theorem numEvictable_cons_of_notMem (absent : key ∉ entries.map Prod.fst) :
    numEvictable (key :: excluded) entries = numEvictable excluded entries := by
  apply countP_congr
  intro entry mem
  rw [isEvictable_cons key excluded entry]
  rintro rfl
  exact absent (mem_map_of_mem mem)

/-- Excluding a block that may be evicted lowers the count by one. -/
theorem numEvictable_cons_of_mem (distinct : (entries.map Prod.fst).Nodup)
    (mem : entry ∈ entries) (evictable : isEvictable excluded entry = true) :
    numEvictable (entry.1 :: excluded) entries + 1 = numEvictable excluded entries := by
  obtain ⟨front, back, rfl⟩ := append_of_mem mem
  rw [map_append, map_cons, nodup_middle, nodup_cons, ← map_append] at distinct
  have others : numEvictable (entry.1 :: excluded) (front ++ back) =
      numEvictable excluded (front ++ back) := numEvictable_cons_of_notMem distinct.1
  have excludedNow : isEvictable (entry.1 :: excluded) entry = false := by
    unfold isEvictable
    simp
  unfold numEvictable at others ⊢
  rw [countP_append] at others ⊢
  rw [countP_append] at others
  rw [countP_append, countP_cons_of_neg (by simp [excludedNow]), countP_cons_of_pos evictable]
  omega

/-- A search finds nothing exactly if no block may be evicted. -/
theorem find?_isEvictable_eq_none_iff :
    entries.find? (isEvictable excluded) = none ↔ numEvictable excluded entries = 0 := by
  rw [find?_eq_none, numEvictable, countP_eq_zero]

end Counting

variable {n : Nat}

namespace ARCCachePolicy

variable {policy : ARCCachePolicy}

/-- Number of blocks that evictions may take from `t1` before it reaches its target. -/
def numAboveTarget (policy : ARCCachePolicy) (virtualT1Size : Int) : Nat :=
  (virtualT1Size + 1 - ⌊policy.targetT1Size⌋).toNat

/-- The candidates that can be found: those of `t1` down to its target, and those of `t2`. -/
def numCandidates (policy : ARCCachePolicy) (excluded : List OffloadKey)
    (virtualT1Size : Int) : Nat :=
  min (numEvictable excluded policy.t1.entries) (policy.numAboveTarget virtualT1Size) +
    numEvictable excluded policy.t2.entries

variable {excluded : List OffloadKey} {virtualT1Size : Int}

theorem candidate_cases (returned : policy.candidate excluded virtualT1Size = some chosen) :
    isEvictable excluded (chosen.1, chosen.2.1) = true ∧
      (chosen.2.2 = true ∧ (chosen.1, chosen.2.1) ∈ policy.t1.entries ∧
          0 < policy.numAboveTarget virtualT1Size ∨
        chosen.2.2 = false ∧ (chosen.1, chosen.2.1) ∈ policy.t2.entries ∧
          (policy.numAboveTarget virtualT1Size = 0 ∨
            numEvictable excluded policy.t1.entries = 0)) := by
  unfold candidate at returned
  dsimp only at returned
  unfold numAboveTarget
  split at returned
  · next key block found =>
    cases returned
    rw [ite_none_right_eq_some] at found
    exact ⟨find?_some found.2, .inl ⟨rfl, mem_of_find?_eq_some found.2, by omega⟩⟩
  · next notFound =>
    obtain ⟨⟨key, block⟩, found, rfl⟩ := map_eq_some_iff.mp returned
    refine ⟨find?_some found, .inr ⟨rfl, mem_of_find?_eq_some found, ?_⟩⟩
    split at notFound
    · exact .inr (find?_isEvictable_eq_none_iff.mp notFound)
    · exact .inl (by omega)

theorem candidate_eq_none_iff {excluded : List OffloadKey} {virtualT1Size : Int} :
    policy.candidate excluded virtualT1Size = none ↔
      policy.numCandidates excluded virtualT1Size = 0 := by
  have empty1 : policy.t1.entries.find? (isEvictable excluded) = none ↔ _ :=
    find?_isEvictable_eq_none_iff
  have empty2 : policy.t2.entries.find? (isEvictable excluded) = none ↔ _ :=
    find?_isEvictable_eq_none_iff
  unfold candidate numCandidates numAboveTarget
  dsimp only
  split
  · next key block found =>
    rw [ite_none_right_eq_some] at found
    have some1 : numEvictable excluded policy.t1.entries ≠ 0 := fun none1 => by
      rw [empty1.mpr none1] at found
      cases found.2
    exact ⟨nofun, fun nothing => by omega⟩
  · next notFound =>
    rw [map_eq_none_iff, empty2]
    split at notFound
    · have none1 := empty1.mp notFound
      omega
    · omega

/-- As many candidates are found as `t1` above its target and `t2` provide. -/
theorem candidates_isSome_iff (disjoint : policy.Disjoint) :
    (policy.candidates n excluded virtualT1Size).isSome = true ↔
      n ≤ policy.numCandidates excluded virtualT1Size := by
  induction n generalizing excluded virtualT1Size with
  | zero => exact ⟨fun _ => Nat.zero_le _, fun _ => rfl⟩
  | succ n ih =>
    cases first : policy.candidate excluded virtualT1Size with
    | none =>
      have nothing := candidate_eq_none_iff.mp first
      unfold candidates
      rw [first]
      exact ⟨nofun, fun enough => by omega⟩
    | some chosen =>
      have rest : (policy.candidates (n + 1) excluded virtualT1Size).isSome =
          (policy.candidates n (chosen.1 :: excluded)
            (if chosen.2.2 then virtualT1Size - 1 else virtualT1Size)).isSome := by
        rw [candidates, first]
        change ((policy.candidates n (chosen.1 :: excluded) _).bind fun rest =>
          some (chosen :: rest)).isSome = _
        cases policy.candidates n (chosen.1 :: excluded) _ <;> rfl
      rw [rest, ih]
      have oneLess : policy.numCandidates (chosen.1 :: excluded)
          (if chosen.2.2 then virtualT1Size - 1 else virtualT1Size) + 1 =
            policy.numCandidates excluded virtualT1Size := by
        obtain ⟨evictable, origin⟩ := candidate_cases first
        unfold numCandidates
        rcases origin with ⟨isT1, listed, above⟩ | ⟨isT2, listed, exhausted⟩
        · have inT1 : chosen.1 ∈ policy.t1 :=
            Dict.mem_of_get?_eq_some (Dict.get?_of_mem_entries listed)
          have fewer := numEvictable_cons_of_mem policy.t1.nodup listed evictable
          have same : numEvictable (chosen.1 :: excluded) policy.t2.entries = _ :=
            numEvictable_cons_of_notMem (disjoint chosen.1 inT1)
          rw [isT1]
          unfold numAboveTarget at above ⊢
          simp only [if_true]
          simp only at fewer
          omega
        · have notInT1 : chosen.1 ∉ policy.t1 := fun inT1 =>
            disjoint chosen.1 inT1 (Dict.mem_of_get?_eq_some (Dict.get?_of_mem_entries listed))
          have fewer := numEvictable_cons_of_mem policy.t2.nodup listed evictable
          have same : numEvictable (chosen.1 :: excluded) policy.t1.entries = _ :=
            numEvictable_cons_of_notMem notInT1
          rw [isT2]
          simp only [Bool.false_eq_true, if_false]
          simp only at fewer
          omega
      omega

end ARCCachePolicy

variable {protectedKeys : List OffloadKey}

namespace LRUCachePolicy

theorem evict_eq_none_iff {policy : LRUCachePolicy} :
    policy.evict n protectedKeys = none ↔ numEvictable protectedKeys policy.blocks.entries < n := by
  unfold evict numEvictable
  dsimp only
  rw [length_take, ← countP_eq_length_filter]
  split
  · next few => exact ⟨fun _ => by omega, fun _ => rfl⟩
  · next enough => exact ⟨nofun, fun few => by omega⟩

end LRUCachePolicy

theorem ARCCachePolicy.evict_eq_none_iff {policy : ARCCachePolicy} (disjoint : policy.Disjoint) :
    policy.evict n protectedKeys = none ↔
      policy.numCandidates protectedKeys policy.t1.entries.length < n := by
  have found : (policy.candidates n protectedKeys policy.t1.entries.length).isSome = true ↔ _ :=
    candidates_isSome_iff disjoint
  unfold evict
  split
  · exact ⟨nofun, fun few => by omega⟩
  · cases isChosen : policy.candidates n protectedKeys policy.t1.entries.length with
    | none =>
      rw [isChosen] at found
      refine ⟨fun _ => Nat.lt_of_not_le fun enough => ?_, fun _ => rfl⟩
      cases found.mpr enough
    | some chosen =>
      rw [isChosen] at found
      exact ⟨nofun, fun few => absurd (found.mp rfl) (by omega)⟩

namespace CachePolicy

/-- Number of cached blocks that may be evicted. -/
def numEvictable : CachePolicy → List OffloadKey → Nat
  | lru policy, protectedKeys => TokenCake.numEvictable protectedKeys policy.blocks.entries
  | arc policy, protectedKeys =>
    TokenCake.numEvictable protectedKeys policy.t1.entries +
      TokenCake.numEvictable protectedKeys policy.t2.entries

/-- The states that operations reach from an empty policy.  No key is inserted that is in
`t2`, and the counts of cached blocks are assigned freely. -/
inductive Reachable (first : CachePolicy) : CachePolicy → Prop where
  | init : Reachable first first.clear
  | insert (reached : Reachable first policy) (mayInsert : policy.MayInsert key)
      (block : BlockStatus) : Reachable first (policy.insert key block)
  | remove (reached : Reachable first policy) (key : OffloadKey) :
      Reachable first (policy.remove key)
  | touch (reached : Reachable first policy) (keys : List OffloadKey) :
      Reachable first (policy.touch keys)
  | evict (reached : Reachable first policy) {n : Nat} {protectedKeys : List OffloadKey}
      {evicted : List (OffloadKey × BlockStatus)} {next : CachePolicy}
      (returned : policy.evict n protectedKeys = some (evicted, next)) : Reachable first next
  | clear (reached : Reachable first policy) : Reachable first policy.clear
  | setRefCnt (reached : Reachable first policy) (key : OffloadKey) (refCnt : Int) :
      Reachable first (policy.setRefCnt key refCnt)

variable {first policy : CachePolicy}

theorem Reachable.valid (reached : Reachable first policy) : policy.Valid := by
  induction reached with
  | init => exact valid_clear _
  | insert _ mayInsert block valid => exact valid.insert mayInsert block
  | remove _ key valid => exact valid.remove key
  | touch _ keys valid => exact valid.touch keys
  | evict _ returned valid => exact (valid.evict returned).1
  | clear => exact valid_clear _
  | setRefCnt _ key refCnt valid => exact valid.setRefCnt key refCnt

/-- An eviction fails only for want of blocks; otherwise it removes `n` distinct blocks that
may be evicted, and returns them.  A failed eviction has no state to return: nothing changes. -/
def EvictsCompletely (policy : CachePolicy) (n : Nat) (protectedKeys : List OffloadKey) : Prop :=
  (policy.evict n protectedKeys = none → policy.numEvictable protectedKeys < n) ∧
    ∀ evicted next, policy.evict n protectedKeys = some (evicted, next) →
      Evicted policy.get next.get n protectedKeys evicted

/-- The blocks that may be evicted are too few, or they are found without taking more blocks
from `t1` than it has above its target. -/
def Reclaims : CachePolicy → Nat → List OffloadKey → Prop
  | lru _, _, _ => True
  | arc policy, n, protectedKeys =>
    TokenCake.numEvictable protectedKeys policy.t1.entries +
        TokenCake.numEvictable protectedKeys policy.t2.entries < n ∨
      n ≤ policy.numCandidates protectedKeys policy.t1.entries.length

/-- Evictions are complete exactly where the target of `t1` does not stand in the way. -/
theorem Reachable.evictsCompletely_iff (reached : Reachable first policy) (n : Nat)
    (protectedKeys : List OffloadKey) :
    policy.EvictsCompletely n protectedKeys ↔ policy.Reclaims n protectedKeys := by
  have removes : ∀ evicted next, policy.evict n protectedKeys = some (evicted, next) →
      Evicted policy.get next.get n protectedKeys evicted :=
    fun evicted next returned => (reached.valid.evict returned).2
  unfold EvictsCompletely
  cases policy with
  | lru policy =>
    refine ⟨fun _ => trivial, fun _ => ⟨fun failed => ?_, removes⟩⟩
    exact LRUCachePolicy.evict_eq_none_iff.mp (Option.map_eq_none_iff.mp failed)
  | arc policy =>
    have failure : (arc policy).evict n protectedKeys = none ↔
        policy.numCandidates protectedKeys policy.t1.entries.length < n :=
      Option.map_eq_none_iff.trans (ARCCachePolicy.evict_eq_none_iff reached.valid)
    rw [failure]
    constructor
    · intro complete
      by_cases enough : n ≤ policy.numCandidates protectedKeys policy.t1.entries.length
      · exact .inr enough
      · exact .inl (complete.1 (by omega))
    · rintro (few | enough)
      · exact ⟨fun _ => few, removes⟩
      · exact ⟨fun failed => by omega, removes⟩

/-- A key. -/
def firstKey : OffloadKey := { blockHash := 1, groupIdx := 0 }

/-- A second key. -/
def secondKey : OffloadKey := { blockHash := 2, groupIdx := 0 }

/-- A third key. -/
def thirdKey : OffloadKey := { blockHash := 3, groupIdx := 0 }

/-- An empty policy for two blocks. -/
def emptyPolicy : CachePolicy := arc { cacheCapacity := 2 }

/-- A cache with one block. -/
def freshPolicy : CachePolicy :=
  (emptyPolicy.insert firstKey { blockId := 0 }).setRefCnt firstKey 0

theorem freshPolicy_reachable : Reachable emptyPolicy freshPolicy :=
  (Reachable.init.insert (mayInsert_of_get_eq_none rfl) _).setRefCnt _ _

theorem freshPolicy_evictsCompletely : freshPolicy.EvictsCompletely 1 [] :=
  (freshPolicy_reachable.evictsCompletely_iff 1 []).mpr (.inr (by decide +kernel))

/-- The cache after its block was evicted, missed twice and replaced by another one. -/
def adaptedPolicy : CachePolicy :=
  ((((freshPolicy.evict 1 []).get (by decide +kernel)).2.touch [firstKey, firstKey]).insert
    secondKey { blockId := 0 }).setRefCnt secondKey 0

theorem adaptedPolicy_reachable : Reachable emptyPolicy adaptedPolicy := by
  have returned : freshPolicy.evict 1 [] = some ((freshPolicy.evict 1 []).get _) :=
    (Option.some_get (by decide +kernel)).symm
  exact (((freshPolicy_reachable.evict returned).touch _).insert
    (mayInsert_of_get_eq_none (by decide +kernel)) _).setRefCnt _ _

/-- The only block may be evicted, and yet the eviction of one block fails: `t1` has one block,
two misses of an evicted key raised its target to two, and `t2` is empty. -/
theorem adaptedPolicy_not_evictsCompletely :
    Reachable emptyPolicy adaptedPolicy ∧ ¬adaptedPolicy.EvictsCompletely 1 [] := by
  refine ⟨adaptedPolicy_reachable, fun complete => ?_⟩
  have failed : adaptedPolicy.evict 1 [] = none := by
    rw [← Option.isNone_iff_eq_none]
    decide +kernel
  have evictable : adaptedPolicy.numEvictable [] = 1 := by decide +kernel
  have few := complete.1 failed
  omega

end CachePolicy

end TokenCake
