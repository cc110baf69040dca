import Mathlib.Data.List.Dedup
import TokenCake.Library.Machine
import TokenCake.Offload.CachePolicy

/-!
# The manager of the CPU cache

Reference counting, the pool of CPU blocks and the two phases of loads and stores.  Which
blocks are evicted is left to the cache policy.

What making room, inserting blocks and ending a store do to the counts of the keys in the
cache.
-/

namespace TokenCake

/-- The failures of offloading that end a call with an exception. -/
inductive OffloadError where
  /-- `prepare_load` of a block that is not in the cache. -/
  | loadOfMissingBlock
  /-- `prepare_load` of a block that is still being stored. -/
  | loadOfUnreadyBlock
  /-- `release` of a block without references. -/
  | releaseOfUnreferencedBlock
  /-- `complete_load` of a block that is not in the cache. -/
  | completionOfMissingBlock
  /-- `complete_load` of a block without references. -/
  | completionOfUnreferencedBlock
  /-- The pool of CPU blocks has fewer blocks than it counts. -/
  | freeListExhausted
  /-- `popitem` on the empty tracker of block references. -/
  | emptyTracker
  /-- A job that is missing from `_jobs`. -/
  | unknownJob
  /-- A request that is missing from `_req_status`. -/
  | unknownRequest
  /-- A block or job that is missing from `_block_id_to_pending_jobs`. -/
  | unknownFence
  /-- Any other assertion of the source. -/
  | assertionFailed
  /-- An index outside a list. -/
  | indexError
  /-- A second generation claims a lifecycle. -/
  | duplicateLifecycle
  /-- A bounded loop of the model that did not end within its bound. -/
  | outOfFuel
deriving DecidableEq, Repr

/-- What `prepare_store` decided: the keys to store, their CPU blocks and the evicted keys. -/
structure PrepareStoreOutput where
  keysToStore : List OffloadKey
  storeSpec : List Nat
  evictedKeys : List OffloadKey
deriving DecidableEq, Repr

/-- The CPU cache. -/
structure CPUOffloadingManager where
  numBlocks : Nat
  numAllocatedBlocks : Nat := 0
  freeList : List Nat := []
  policy : CachePolicy
  storeThreshold : Nat := 1
  maxTrackerSize : Nat := 64000
  /-- Number of references to keys, least recently used first; only kept for a threshold of
  at least two. -/
  counts : Option (Dict OffloadKey Nat)

namespace CPUOffloadingManager

/-- The manager of an empty cache. -/
def init (numBlocks : Nat) (policy : CachePolicy)
    (storeThreshold maxTrackerSize : Nat) : CPUOffloadingManager where
  numBlocks := numBlocks
  policy := policy.clear
  storeThreshold := storeThreshold
  maxTrackerSize := maxTrackerSize
  counts := if storeThreshold ≥ 2 then some .empty else none

/-- Number of blocks that can be allocated without an eviction. -/
def getNumFreeBlocks (manager : CPUOffloadingManager) : Int :=
  manager.freeList.length + manager.numBlocks - manager.numAllocatedBlocks

variable (manager : CPUOffloadingManager)

/-- Take fresh blocks first, then those at the end of the free list. -/
def allocateBlocks
    (count : Nat) : Except OffloadError (List BlockStatus × CPUOffloadingManager) := do
  let numFresh := min count (manager.numBlocks - manager.numAllocatedBlocks)
  let numReused := count - numFresh
  ensure (decide (manager.freeList.length ≥ numReused)) .freeListExhausted
  let fresh := (List.range numFresh).map fun index =>
    ({ blockId := manager.numAllocatedBlocks + index } : BlockStatus)
  let reused := (manager.freeList.reverse.take numReused).map fun blockId =>
    ({ blockId := blockId } : BlockStatus)
  return (fresh ++ reused,
    { manager with
      numAllocatedBlocks := manager.numAllocatedBlocks + numFresh
      freeList := manager.freeList.take (manager.freeList.length - numReused) })

/-- Make the slot of a block free again. -/
def freeBlock (manager : CPUOffloadingManager) (block : BlockStatus) : CPUOffloadingManager :=
  { manager with freeList := manager.freeList ++ [block.blockId] }

/-- Count a reference to a key; the least recently used key is forgotten when the tracker is
full. -/
def track (counts : Dict OffloadKey Nat) (maxTrackerSize : Nat)
    (key : OffloadKey) : Except OffloadError (Dict OffloadKey Nat) :=
  match counts.get? key with
  | some count => .ok ((counts.moveToEnd key).set key (count + 1))
  | none =>
    if counts.entries.length ≥ maxTrackerSize then do
      ensure (!counts.entries.isEmpty) .emptyTracker
      return (counts.dropOldest 1).set key 1
    else .ok (counts.set key 1)

/-- Count a lookup of a key if references are counted. -/
def countReference (key : OffloadKey) : Except OffloadError CPUOffloadingManager :=
  match manager.counts with
  | none => .ok manager
  | some counts => do
      let counts ← track counts manager.maxTrackerSize key
      return { manager with counts := some counts }

/-- The state of a key in the cache: `none` while it is being stored. -/
def isStored (manager : CPUOffloadingManager) (key : OffloadKey) : Option Bool :=
  match manager.policy.get key with
  | none => some false
  | some block => if block.isReady then some true else none

/-- Whether a block is stored; `none` while it is being stored. -/
def lookup (key : OffloadKey) : Except OffloadError (Option Bool × CPUOffloadingManager) := do
  let tracked ← manager.countReference key
  return (tracked.isStored key, tracked)

/-- Change the reference count of a block by an amount. -/
def addReference (key : OffloadKey) (block : BlockStatus) (amount : Int) : CPUOffloadingManager :=
  { manager with policy := manager.policy.setRefCnt key (block.refCnt + amount) }

/-- Take a reference to every block of a load. -/
def prepareLoad :
    List OffloadKey → CPUOffloadingManager → Except OffloadError (List Nat × CPUOffloadingManager)
  | [], manager => .ok ([], manager)
  | key :: rest, manager =>
    match manager.policy.get key with
    | none => .error .loadOfMissingBlock
    | some block =>
      if block.isReady then do
        let (blockIds, prepared) ← prepareLoad rest (manager.addReference key block 1)
        return (block.blockId :: blockIds, prepared)
      else .error .loadOfUnreadyBlock

/-- Mark keys as used. -/
def touch (manager : CPUOffloadingManager) (keys : List OffloadKey) : CPUOffloadingManager :=
  { manager with policy := manager.policy.touch keys }

/-- Take a reference to the block of a key if it is ready. -/
def retainKey (state : List OffloadKey × CPUOffloadingManager)
    (key : OffloadKey) : List OffloadKey × CPUOffloadingManager :=
  match state.2.policy.get key with
  | none => state
  | some block =>
    if block.isReady then (state.1 ++ [key], state.2.addReference key block 1) else state

/-- Retain each distinct ready key; the answer lists them. -/
def retain (manager : CPUOffloadingManager) (keys : List OffloadKey) :
    List OffloadKey × CPUOffloadingManager :=
  keys.dedup.foldl retainKey ([], manager)

/-- Whether a key has a reference that can be released. -/
def isReferenced (manager : CPUOffloadingManager) (key : OffloadKey) : Bool :=
  match manager.policy.get key with
  | none => false
  | some block => decide (block.refCnt > 0)

/-- Give one reference of a key back. -/
def dropReference (manager : CPUOffloadingManager) (key : OffloadKey) : CPUOffloadingManager :=
  match manager.policy.get key with
  | none => manager
  | some block => manager.addReference key block (-1)

/-- Release one retained reference for each distinct key. -/
def release (keys : List OffloadKey) : Except OffloadError CPUOffloadingManager := do
  ensure (keys.dedup.all manager.isReferenced) .releaseOfUnreferencedBlock
  return keys.dedup.foldl dropReference manager

/-- Give the references of a load back. -/
def completeLoad :
    List OffloadKey → CPUOffloadingManager → Except OffloadError CPUOffloadingManager
  | [], manager => .ok manager
  | key :: rest, manager =>
    match manager.policy.get key with
    | none => .error .completionOfMissingBlock
    | some block =>
      if block.refCnt > 0 then completeLoad rest (manager.addReference key block (-1))
      else .error .completionOfUnreferencedBlock

/-- Make the slots of evicted blocks free again. -/
def freeEvicted (evicted : List (OffloadKey × BlockStatus)) : CPUOffloadingManager :=
  evicted.foldl (fun manager entry => manager.freeBlock entry.2) manager

/-- Make room for the keys to store, if the policy finds enough blocks to evict. -/
def makeRoom (count : Nat)
    (protectedKeys : List OffloadKey) : Option (List OffloadKey × CPUOffloadingManager) :=
  let numBlocksToEvict := (count : Int) - manager.getNumFreeBlocks
  if numBlocksToEvict > 0 then do
    let (evicted, policy) ← manager.policy.evict numBlocksToEvict.toNat protectedKeys
    return (evicted.map Prod.fst, { manager with policy := policy }.freeEvicted evicted)
  else some ([], manager)

/-- Insert new blocks into the policy. -/
def insertBlocks (entries : List (OffloadKey × BlockStatus)) : CPUOffloadingManager :=
  { manager with
    policy := entries.foldl (fun policy entry => policy.insert entry.1 entry.2) manager.policy }

/-- Whether a key was looked up often enough to be stored.  Without a tracker every key is. -/
def reachesThreshold (key : OffloadKey) : Bool :=
  match manager.counts with
  | none => true
  | some counts => decide (counts.getD key 0 ≥ manager.storeThreshold)

/-- The keys that were looked up often enough. -/
def keysAboveThreshold (keys : List OffloadKey) : List OffloadKey :=
  keys.filter manager.reachesThreshold

/-- Allocate blocks for the keys that are not stored yet; `none` if there is no room. -/
def prepareStore (keys : List OffloadKey) :
    Except OffloadError (Option PrepareStoreOutput × CPUOffloadingManager) :=
  let keys := manager.keysAboveThreshold keys
  let keysToStore := keys.filter fun key => (manager.policy.get key).isNone
  if keysToStore.isEmpty then
    .ok (some { keysToStore := [], storeSpec := [], evictedKeys := [] }, manager)
  else
    match manager.makeRoom keysToStore.length keys with
    | none => .ok (none, manager)
    | some (evictedKeys, roomy) => do
        let (blocks, allocated) ← roomy.allocateBlocks keysToStore.length
        ensure (decide (blocks.length = keysToStore.length)) .assertionFailed
        return (some
          { keysToStore := keysToStore
            storeSpec := blocks.map BlockStatus.blockId
            evictedKeys := evictedKeys },
          allocated.insertBlocks (keysToStore.zip blocks))

/-- The end of the store of one key. -/
def completeKey (success : Bool) (manager : CPUOffloadingManager)
    (key : OffloadKey) : CPUOffloadingManager :=
  match manager.policy.get key with
  | none => manager
  | some block =>
    if block.isReady then manager
    else if success then { manager with policy := manager.policy.setRefCnt key 0 }
    else { manager with policy := manager.policy.remove key }.freeBlock block

/-- The end of a store: the blocks become ready, or are removed if the store failed. -/
def completeStore (keys : List OffloadKey) (success : Bool) : CPUOffloadingManager :=
  keys.foldl (completeKey success) manager

/-- Clear all blocks. -/
def resetCache (manager : CPUOffloadingManager) : CPUOffloadingManager :=
  { manager with policy := manager.policy.clear, freeList := [], numAllocatedBlocks := 0 }

end CPUOffloadingManager

open List CachePolicy

namespace CPUOffloadingManager

/-- The parts of the policy's cache are disjoint. -/
def Valid (manager : CPUOffloadingManager) : Prop := manager.policy.Valid

/-- The reference count of a key that is in the cache. -/
def refCnts (manager : CPUOffloadingManager) (key : OffloadKey) : Option Int :=
  (manager.policy.get key).map BlockStatus.refCnt

variable {manager next : CPUOffloadingManager} {key : OffloadKey} {keys : List OffloadKey}

theorem refCnts_of_get {block : BlockStatus} (found : manager.policy.get key = some block) :
    manager.refCnts key = some block.refCnt := by
  rw [refCnts, found, Option.map_some]

/-- Freeing evicted blocks appends them to the free list. -/
theorem freeEvicted_eq (manager : CPUOffloadingManager) (evicted : List (OffloadKey × BlockStatus)) :
    manager.freeEvicted evicted =
      { manager with freeList := manager.freeList ++ evicted.map fun entry => entry.2.blockId } := by
  unfold freeEvicted
  induction evicted generalizing manager with
  | nil => simp
  | cons entry rest ih =>
    rw [foldl_cons, ih, freeBlock]
    simp

variable {blocks : List BlockStatus} {count : Nat}

/-- What making room evicts and leaves behind. -/
theorem makeRoom_spec (valid : manager.Valid) {protectedKeys evictedKeys : List OffloadKey}
    (returned : manager.makeRoom count protectedKeys = some (evictedKeys, next)) :
    next.Valid ∧ (∀ key ∈ evictedKeys, manager.getNumFreeBlocks < count ∧ key ∉ protectedKeys ∧
        manager.refCnts key = some 0) ∧
      ∀ key, next.policy.get key = if key ∈ evictedKeys then none else manager.policy.get key := by
  unfold makeRoom at returned
  dsimp only at returned
  split at returned
  · next short =>
    obtain ⟨⟨evicted, policy⟩, found, returned⟩ := Option.bind_eq_some_iff.mp returned
    cases returned
    obtain ⟨nextValid, spec⟩ := Valid.evict valid found
    rw [freeEvicted_eq]
    refine ⟨nextValid, fun key mem => ?_, spec.rest⟩
    obtain ⟨entry, isEntry, rfl⟩ := mem_map.mp mem
    refine ⟨by omega, spec.unprotected entry isEntry, ?_⟩
    rw [refCnts_of_get (spec.found entry isEntry), spec.unused entry isEntry]
  · cases returned
    exact ⟨valid, nofun, fun key => (if_neg not_mem_nil).symm⟩

/-- Insert blocks under keys.  A key may occur twice: its block is then inserted again, over
the first one. -/
theorem foldl_insert_spec {policy : CachePolicy} (valid : policy.Valid)
    (sameLength : blocks.length = keys.length) (mayInsert : ∀ key ∈ keys, policy.MayInsert key) :
    ((keys.zip blocks).foldl (fun policy entry => policy.insert entry.1 entry.2) policy).Valid ∧
      ∀ key,
        (key ∉ keys → ((keys.zip blocks).foldl (fun policy entry => policy.insert entry.1 entry.2)
          policy).get key = policy.get key) ∧
        (key ∈ keys → ∃ block ∈ blocks, ((keys.zip blocks).foldl
          (fun policy entry => policy.insert entry.1 entry.2) policy).get key = some block) := by
  induction keys generalizing blocks policy with
  | nil => exact ⟨valid, fun key => ⟨fun _ => rfl, nofun⟩⟩
  | cons first rest ih =>
    obtain _ | ⟨block, blocks⟩ := blocks
    · cases sameLength
    · obtain ⟨finalValid, final⟩ := ih
        (valid.insert (mayInsert first mem_cons_self) block) (Nat.succ_inj.mp sameLength)
        (fun other mem => mayInsert_insert.mpr (mayInsert other (.tail _ mem)))
      refine ⟨finalValid, fun key => ⟨fun absent => ?_, fun mem => ?_⟩⟩
      · rw [mem_cons, not_or] at absent
        rw [zip_cons_cons, foldl_cons, (final key).1 absent.2, get_insert, if_neg absent.1]
      · rw [zip_cons_cons, foldl_cons]
        by_cases again : key ∈ rest
        · obtain ⟨found, isBlock, isFound⟩ := (final key).2 again
          exact ⟨found, .tail _ isBlock, isFound⟩
        · have isFirst : key = first := (mem_cons.mp mem).resolve_right again
          refine ⟨block, mem_cons_self, ?_⟩
          rw [(final key).1 again, get_insert, if_pos isFirst]

/-- The keys that a call of `prepare_store` evicted. -/
def evicted : Option PrepareStoreOutput → List OffloadKey
  | none => []
  | some output => output.evictedKeys

/-- The blocks taken from the pool are not ready, and the cache stays as it was. -/
theorem allocateBlocks_spec (returned : manager.allocateBlocks count = .ok (blocks, next)) :
    next.policy = manager.policy ∧ ∀ block ∈ blocks, block.refCnt = -1 := by
  obtain ⟨-, -, returned⟩ := bind_eq_ok.mp returned
  cases returned
  refine ⟨rfl, fun block mem => ?_⟩
  rcases mem_append.mp mem with mem | mem <;>
    obtain ⟨_, -, rfl⟩ := mem_map.mp mem <;> rfl

/-- The count of a key after the end of its store: a block that was being written becomes
ready or is removed, and every other one stays. -/
def ended (success : Bool) : Option Int → Option Int
  | none => none
  | some count => if count ≥ 0 then some count else if success then some 0 else none

theorem ended_ended (success : Bool) (count : Option Int) :
    ended success (ended success count) = ended success count := by
  cases count with
  | none => rfl
  | some count =>
    by_cases ready : count ≥ 0
    · rw [ended, if_pos ready, ended, if_pos ready]
    · rw [ended, if_neg ready]
      cases success <;> rfl

theorem completeKey_spec (valid : manager.Valid) (key : OffloadKey) (success : Bool) :
    (completeKey success manager key).Valid ∧
      ∀ other, (completeKey success manager key).refCnts other =
        if other = key then ended success (manager.refCnts other) else manager.refCnts other := by
  unfold completeKey
  split
  · next absent =>
    refine ⟨valid, fun other => ?_⟩
    split
    · next same => rw [same, refCnts, absent]; rfl
    · rfl
  · next block found =>
    have isCount := refCnts_of_get found
    split
    · next ready =>
      refine ⟨valid, fun other => ?_⟩
      split
      · next same => rw [same, isCount, ended, if_pos (of_decide_eq_true ready)]
      · rfl
    · next unready =>
      have isEnded : ended success (manager.refCnts key) = if success then some 0 else none := by
        rw [isCount, ended, if_neg fun nonneg => unready (decide_eq_true nonneg)]
      split
      · refine ⟨valid.setRefCnt key 0, fun other => ?_⟩
        have changed := get_setRefCnt manager.policy key other 0
        rw [refCnts, changed, found]
        split
        · next success same => rw [same, isEnded, if_pos success]; rfl
        · rfl
      · refine ⟨valid.remove key, fun other => ?_⟩
        have changed := get_remove valid key other
        rw [refCnts, freeBlock, changed]
        split
        · next failed same => rw [same, isEnded, if_neg failed]; rfl
        · rfl

theorem completeStore_spec (valid : manager.Valid) (keys : List OffloadKey) (success : Bool) :
    (manager.completeStore keys success).Valid ∧
      ∀ key, (manager.completeStore keys success).refCnts key =
        if key ∈ keys then ended success (manager.refCnts key) else manager.refCnts key := by
  unfold completeStore
  induction keys generalizing manager with
  | nil => exact ⟨valid, fun key => by simp⟩
  | cons key rest ih =>
    obtain ⟨stepValid, stepCounts⟩ := completeKey_spec valid key success
    obtain ⟨finalValid, finalCounts⟩ := ih stepValid
    refine ⟨finalValid, fun other => ?_⟩
    rw [foldl_cons, finalCounts, stepCounts]
    by_cases same : other = key
    · subst same
      rw [if_pos rfl, if_pos mem_cons_self, ended_ended, ite_self]
    · rw [if_neg same]
      by_cases mem : other ∈ rest
      · rw [if_pos mem, if_pos (.tail _ mem)]
      · rw [if_neg mem, if_neg (by simp [same, mem])]

end CPUOffloadingManager

end TokenCake
