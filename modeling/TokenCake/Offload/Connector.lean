import TokenCake.KVCache.SingleType
import TokenCake.Offload.CpuManager
import TokenCake.Scheduler.State

/-!
# The lookup of the offloading connector

How many tokens of a request the offloading connector can load from the CPU cache.  An
offloaded block covers `block_size_factor` blocks of the GPU, and the connector keeps the keys
of a request's offloaded blocks for every group.  Groups with full attention need a prefix of
hits, groups with sliding windows a run of hits at the end; every group may shorten the hit, and
the groups are looked up again until the hit does not change.

Block sizes are positive, so that differences of token counts may be cut off at zero.  Events
and logging are left out.
-/

namespace TokenCake

/-- The KV cache groups that can be offloaded. -/
inductive OffloadedSpec where
  | fullAttention
  | slidingWindow (slidingWindow : Nat)
  | mamba
deriving DecidableEq, Repr

/-- The offloaded blocks of one group. -/
structure GroupOffloadConfig where
  groupIdx : Nat
  gpuBlockSize : Nat
  offloadedBlockSize : Nat
  hashBlockSizeFactor : Nat
  /-- `none` stands for full attention. -/
  slidingWindowSizeInBlocks : Option Nat
  /-- Number of offloaded blocks in a segment of the full-attention alignment, if only the
  last ones of each segment are stored. -/
  alignmentBlockCount : Option Nat := none
deriving DecidableEq, Repr

/-- The layout of the offloaded blocks; the groups are numbered in their order. -/
structure SchedulerOffloadConfig where
  kvGroupConfigs : List GroupOffloadConfig
  blockSizeFactor : Nat
  groupIdx_eq : kvGroupConfigs.map GroupOffloadConfig.groupIdx = List.range kvGroupConfigs.length

/-- What the layout is computed from. -/
structure OffloadingSpec where
  /-- Specification and GPU block size of every group. -/
  groups : List (OffloadedSpec × Nat)
  blockSizeFactor : Nat
  hashBlockSize : Nat
deriving DecidableEq, Repr

/-- Number of offloaded blocks that a hit needs at its end. -/
def getSlidingWindowSizeInBlocks (spec : OffloadedSpec) (offloadedBlockSize : Nat) : Option Nat :=
  match spec with
  | .slidingWindow window => some (cdiv window offloadedBlockSize).toNat
  -- Mamba depends on a single state.
  | .mamba => some 1
  | .fullAttention => none

namespace SchedulerOffloadConfig

section

variable (spec : OffloadingSpec)

/-- The block size of the full-attention groups, if they all have the same. -/
def alignmentTokens : Option Nat :=
  let sizes := (spec.groups.filter fun group => group.1 = .fullAttention).map fun group =>
    group.2 * spec.blockSizeFactor
  match sizes.dedup with
  | [size] => some size
  | _ => none

/-- Number of offloaded blocks between the ends of hits of a group with a window, if hits end at few
positions only. -/
def alignmentBlockCount (offloadedBlockSize : Nat)
    (slidingWindowSizeInBlocks : Option Nat) : Option Nat :=
  match alignmentTokens spec, slidingWindowSizeInBlocks with
  | some alignment, some window =>
    if alignment ≤ offloadedBlockSize then none
    else if window ≥ alignment / offloadedBlockSize then none
    else some (alignment / offloadedBlockSize)
  | _, _ => none

/-- The configuration of one group. -/
def groupConfig (index : Nat) (group : OffloadedSpec × Nat) : GroupOffloadConfig :=
  let offloadedBlockSize := group.2 * spec.blockSizeFactor
  let window := getSlidingWindowSizeInBlocks group.1 offloadedBlockSize
  { groupIdx := index
    gpuBlockSize := group.2
    offloadedBlockSize := offloadedBlockSize
    hashBlockSizeFactor := offloadedBlockSize / spec.hashBlockSize
    slidingWindowSizeInBlocks := window
    alignmentBlockCount := alignmentBlockCount spec offloadedBlockSize window }

/-- The configuration that a specification asks for. -/
def fromSpec : SchedulerOffloadConfig where
  kvGroupConfigs := spec.groups.mapIdx (groupConfig spec)
  blockSizeFactor := spec.blockSizeFactor
  groupIdx_eq := by
    exact List.ext_getElem (by simp) fun index _ _ => by simp [groupConfig]

end

/-- The groups without a window. -/
def fullAttentionGroups (config : SchedulerOffloadConfig) : List Nat :=
  (config.kvGroupConfigs.filter fun group => group.slidingWindowSizeInBlocks.isNone).map
    GroupOffloadConfig.groupIdx

/-- The groups with a window, those with a long one first. -/
def slidingWindowGroups (config : SchedulerOffloadConfig) : List Nat :=
  ((config.kvGroupConfigs.filter fun group =>
    group.slidingWindowSizeInBlocks.isSome).insertionSort fun left right =>
      left.slidingWindowSizeInBlocks.getD 0 ≥ right.slidingWindowSizeInBlocks.getD 0).map
        GroupOffloadConfig.groupIdx

/-- The groups in the order in which they are looked up. -/
def lookupGroups (config : SchedulerOffloadConfig) : List Nat :=
  config.fullAttentionGroups ++ config.slidingWindowGroups

end SchedulerOffloadConfig

/-- The keys of a request's offloaded blocks in one group. -/
structure RequestGroupState where
  offloadKeys : List OffloadKey := []
deriving DecidableEq, Repr

/-- What the connector keeps for a request. -/
structure RequestOffloadState where
  groupStates : List RequestGroupState
  numLocallyComputedTokens : Nat := 0
deriving DecidableEq, Repr

/-- Every `stride`-th element of a list, from a start on. -/
def islice (items : List α) (start stride : Nat) : List α :=
  (List.range items.length).filterMap fun index => items[start + index * stride]?

namespace RequestOffloadState

/-- The state of a request whose keys are not known yet. -/
def init (config : SchedulerOffloadConfig) : RequestOffloadState where
  groupStates := config.kvGroupConfigs.map fun _ => {}

variable (status : RequestOffloadState) (config : SchedulerOffloadConfig)

/-- Change the states of all groups. -/
def mapGroups
    (change : GroupOffloadConfig → RequestGroupState → RequestGroupState) : RequestOffloadState :=
  { status with groupStates := config.kvGroupConfigs.zipWith change status.groupStates }

/-- Append the keys of new block hashes to those of a group. -/
def updateGroupKeys (blockHashes : List Bytes) (group : GroupOffloadConfig)
    (state : RequestGroupState) : RequestGroupState :=
  let factor := group.hashBlockSizeFactor
  let hashes := islice blockHashes (factor * state.offloadKeys.length + factor - 1) factor
  { state with
    offloadKeys := state.offloadKeys ++ hashes.map fun blockHash =>
      { blockHash := blockHash, groupIdx := group.groupIdx } }

/-- Add the keys of new block hashes in all groups. -/
def updateOffloadKeys (blockHashes : List Bytes) : RequestOffloadState :=
  status.mapGroups config (updateGroupKeys blockHashes)

end RequestOffloadState

/-- A query of one key: true for a hit, `none` if the answer is deferred. -/
abbrev BlockLookup :=
  CPUOffloadingManager → OffloadKey → Except OffloadError (Option Bool × CPUOffloadingManager)

/-- A count of hits, unless a lookup was deferred. -/
def unlessDeferred (deferred : Bool) (count : Nat) : Option Nat :=
  if deferred then none else some count

/-- Number of consecutive hits from the start. -/
def maximalPrefixLookup (query : BlockLookup) :
    List OffloadKey → Nat → Bool → CPUOffloadingManager →
      Except OffloadError (Option Nat × CPUOffloadingManager)
  | [], hitCount, deferred, manager => .ok (unlessDeferred deferred hitCount, manager)
  | key :: rest, hitCount, deferred, manager => do
      let (answer, manager) ← query manager key
      match answer with
      | none => maximalPrefixLookup query rest (hitCount + 1) true manager
      | some true => maximalPrefixLookup query rest (hitCount + 1) deferred manager
      | some false => return (unlessDeferred deferred hitCount, manager)

/-- End of the last run of `window` consecutive hits; the keys are given from the last to the
first one, so that the index of a key is the number of keys behind it. -/
def slidingWindowLookup (query : BlockLookup) (window : Nat) :
    List OffloadKey → Nat → Bool → CPUOffloadingManager →
      Except OffloadError (Option Nat × CPUOffloadingManager)
  | [], consecutiveHits, deferred, manager =>
    .ok (unlessDeferred deferred consecutiveHits, manager)
  | key :: rest, consecutiveHits, deferred, manager => do
      let (answer, manager) ← query manager key
      match answer with
      | none => slidingWindowLookup query window rest 0 true manager
      | some false => slidingWindowLookup query window rest 0 deferred manager
      | some true =>
        if consecutiveHits + 1 = window then
          return (unlessDeferred deferred (rest.length + window), manager)
        else slidingWindowLookup query window rest (consecutiveHits + 1) deferred manager

/-- The state of a lookup between two groups. -/
structure LookupProgress where
  maxHitSizeTokens : Nat
  numHitTokens : Nat := 0
  deferLookup : Bool := false
  lookedUpSlidingWindow : Bool := false
  /-- The groups of the next round. -/
  lookupGroups : List Nat := []
deriving DecidableEq, Repr

/-- What a lookup needs to know of the request and the connector. -/
structure LookupContext where
  config : SchedulerOffloadConfig
  status : RequestOffloadState
  numTokens : Nat
  query : BlockLookup

namespace LookupContext

/-- Number of tokens in front of the lookup. -/
def numComputedTokens (context : LookupContext) : Nat := context.status.numLocallyComputedTokens

variable (context : LookupContext)

/-- Query the keys of a group as its kind of attention needs it. -/
def queryGroup
    (group : GroupOffloadConfig) (keys : List OffloadKey) (manager : CPUOffloadingManager) :
    Except OffloadError (Option Nat × CPUOffloadingManager) :=
  match group.slidingWindowSizeInBlocks with
  | none => maximalPrefixLookup context.query keys 0 false manager
  | some window => slidingWindowLookup context.query window keys.reverse 0 false manager

/-- The progress after a group has answered; `none` ends the lookup without a hit. -/
def tighten (group : GroupOffloadConfig) (progress : LookupProgress)
    (numHitBlocks : Option Nat) : Option LookupProgress :=
  let size := group.offloadedBlockSize
  let startBlockIdx := context.numComputedTokens / size
  if numHitBlocks = some 0 then none
  else
    let deferLookup := progress.deferLookup || numHitBlocks.isNone
    let maxHit :=
      match numHitBlocks with
      | none => progress.maxHitSizeTokens
      | some blocks => min progress.maxHitSizeTokens (size * (startBlockIdx + blocks))
    let newNumHitTokens := maxHit - context.numComputedTokens
    if newNumHitTokens < size then none
    else
      let shorter := decide (newNumHitTokens < progress.numHitTokens)
      -- A deferred answer may not be needed for the shorter hit.
      let retryAll := shorter && deferLookup
      let retryWindows := shorter && !deferLookup && progress.lookedUpSlidingWindow &&
        progress.lookupGroups.isEmpty
      some
        { maxHitSizeTokens := maxHit
          numHitTokens := newNumHitTokens
          deferLookup := deferLookup && !retryAll
          lookedUpSlidingWindow :=
            progress.lookedUpSlidingWindow || group.slidingWindowSizeInBlocks.isSome
          lookupGroups :=
            if retryAll then context.config.lookupGroups
            else if retryWindows then context.config.slidingWindowGroups
            else progress.lookupGroups }

/-- Look up the keys of one group and shorten the hit. -/
def lookupGroup (progress : LookupProgress) (groupIdx : Nat) (manager : CPUOffloadingManager) :
    Except OffloadError (Option LookupProgress × CPUOffloadingManager) :=
  match context.config.kvGroupConfigs[groupIdx]?, context.status.groupStates[groupIdx]? with
  | some group, some state => do
      let size := group.offloadedBlockSize
      ensure (decide (state.offloadKeys.length ≥ context.numTokens / size)) .assertionFailed
      let maxHit := min progress.maxHitSizeTokens (state.offloadKeys.length * size)
      if maxHit - context.numComputedTokens < size then return (none, manager)
      else
        let numBlocks := min (cdiv maxHit size).toNat state.offloadKeys.length
        let keys := slice state.offloadKeys (context.numComputedTokens / size) numBlocks
        let (numHitBlocks, manager) ← context.queryGroup group keys manager
        return (context.tighten group { progress with maxHitSizeTokens := maxHit } numHitBlocks,
          manager)
  | _, _ => .error .indexError

/-- Look up some groups, one after the other. -/
def lookupRound (context : LookupContext) :
    List Nat → LookupProgress → CPUOffloadingManager →
      Except OffloadError (Option LookupProgress × CPUOffloadingManager)
  | [], progress, manager => .ok (some progress, manager)
  | groupIdx :: rest, progress, manager => do
      let (tightened, manager) ← context.lookupGroup progress groupIdx manager
      match tightened with
      | none => return (none, manager)
      | some progress => lookupRound context rest progress manager

/-- Repeat the lookup while a round asks for another one. -/
def lookupRounds (context : LookupContext) :
    Nat → LookupProgress → CPUOffloadingManager →
      Except OffloadError (Option LookupProgress × CPUOffloadingManager)
  | 0, _, _ => .error .outOfFuel
  | fuel + 1, progress, manager =>
    if progress.lookupGroups.isEmpty then .ok (some progress, manager)
    else do
      let (tightened, manager) ← context.lookupRound progress.lookupGroups
        { progress with lookupGroups := [], lookedUpSlidingWindow := false } manager
      match tightened with
      | none => return (none, manager)
      | some progress => lookupRounds context fuel progress manager

/-- The keys of a group that a hit uses. -/
def hitKeys (numHitTokens : Nat) (group : GroupOffloadConfig)
    (state : RequestGroupState) : List OffloadKey :=
  let size := group.offloadedBlockSize
  let numBlocks := (cdiv (context.numComputedTokens + numHitTokens : Nat) size).toNat
  let keys := slice state.offloadKeys (context.numComputedTokens / size) numBlocks
  match group.slidingWindowSizeInBlocks with
  | none => keys
  | some window => if window = 0 then keys else keys.drop (keys.length - window)

/-- Number of tokens behind the computed ones that can be loaded; `none` if the answer has to
wait. -/
def lookup (blocksBeingLoaded : Option (List OffloadKey)) (manager : CPUOffloadingManager) :
    Except OffloadError (Option Nat × CPUOffloadingManager) := do
  let start : LookupProgress :=
    { maxHitSizeTokens :=
        -- The last token is computed again, which a sliding window has to leave room for.
        if context.config.slidingWindowGroups.isEmpty then context.numTokens
        else context.numTokens - 1
      lookupGroups := context.config.lookupGroups }
  let (result, manager) ← context.lookupRounds (context.numTokens + 2) start manager
  match result with
  | none => return (some 0, manager)
  | some progress =>
    if progress.deferLookup then return (none, manager)
    else
      let covered := (context.config.kvGroupConfigs.zipWith
        (context.hitKeys progress.numHitTokens) context.status.groupStates).flatten
      if covered.any fun key => decide (key ∈ blocksBeingLoaded.getD []) then
        return (none, manager)
      else return (some progress.numHitTokens, manager)

end LookupContext

end TokenCake
