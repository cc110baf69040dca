import TokenCake.Offload.Lifecycle
import TokenCake.Offload.Connector

/-!
# Blocks of a snapshot that are worth preserving

When a generation ends, the offloadable blocks of its prefix are remembered.  Those that are
still on the GPU or already in the CPU cache are candidates for preservation, and a selection
of them is bounded such that a later lookup can hit it.  Metrics are left out.
-/

namespace TokenCake

/-- A candidate: the offloaded block of a group at an index. -/
structure SnapshotBlock where
  group : Nat
  index : Nat
  key : OffloadKey
  blockIds : List BlockId
  blockIndex : Nat
deriving DecidableEq, Repr

/-- What the selection of candidates reads. -/
structure SnapshotContext where
  config : SchedulerOffloadConfig
  /-- Groups of exactly the full-attention type; its subtypes do not count. -/
  shareableGroups : List Nat
  policy : CachePolicy
  pool : BlockPool

namespace SnapshotContext

/-- Number of leading placeholders, which only groups with windows have. -/
def placeholders (group : GroupOffloadConfig) (ids : List BlockId) : Nat :=
  if group.slidingWindowSizeInBlocks.isSome then
    (ids.takeWhile fun blockId => decide (blockId = nullBlock)).length
  else 0

variable (context : SnapshotContext)

/-- Whether the GPU blocks of an offloaded block still have its contents. -/
def matchesPool (group : GroupOffloadConfig) (ids : List BlockId)
    (hashes : List (Option BlockHashWithGroupId)) : Bool :=
  let offset := placeholders group ids
  let sourceIds := ids.drop offset
  !sourceIds.isEmpty && decide (ids.length = context.config.blockSizeFactor) &&
    (sourceIds.zip (hashes.drop offset)).all fun (blockId, expected) =>
      decide (blockId ≠ nullBlock) && expected.isSome &&
        decide (context.pool.blockHash blockId = expected)

/-- Whether a block that is not in the CPU cache may still change. -/
def isBusy (groupIndex : Nat) (group : GroupOffloadConfig) (ids : List BlockId) : Bool :=
  !decide (groupIndex ∈ context.shareableGroups) &&
    (ids.drop (placeholders group ids)).any fun blockId =>
      decide (context.pool.refCnt blockId ≠ 0)

/-- The candidates of one group from an index on, up to the first block that is lost. -/
def groupCandidates (context : SnapshotContext) (record : Lifecycle) (groupIndex : Nat)
    (group : GroupOffloadConfig) :
    Nat → List (OffloadKey × List BlockId × List (Option BlockHashWithGroupId)) → List SnapshotBlock
  | _, [] => []
  | index, (key, ids, hashes) :: rest =>
    let missing := (context.policy.get key).isNone
    if missing && !context.matchesPool group ids hashes then []
    else
      let later := groupCandidates context record groupIndex group (index + 1) rest
      if key ∈ record.retained ∨ key ∈ record.pendingRetention then later
      else if missing && context.isBusy groupIndex group ids then later
      else
        let offset := placeholders group ids
        { group := groupIndex
          index := index
          key := key
          blockIds := ids.drop offset
          blockIndex := index * context.config.blockSizeFactor + offset } :: later

/-- The offloaded blocks of a snapshot with their GPU blocks. -/
def entries (snapshot : SnapshotGroup) :
    List (OffloadKey × List BlockId × List (Option BlockHashWithGroupId)) :=
  snapshot.keys.zip (snapshot.blockIds.zip snapshot.gpuHashes)

/-- Number of tokens up to the end of a candidate. -/
def endTokens (context : SnapshotContext) (candidate : SnapshotBlock) : Nat :=
  (candidate.index + 1) * ((context.config.kvGroupConfigs[candidate.group]?).map
      GroupOffloadConfig.offloadedBlockSize).getD 0

/-- The order of candidates: by their ends, then by their groups. -/
def precedes (context : SnapshotContext) (left right : SnapshotBlock) : Bool :=
  decide (context.endTokens left < context.endTokens right) ||
    (decide (context.endTokens left = context.endTokens right) && decide (left.group ≤ right.group))

/-- The candidates of one group of a snapshot.  Of a group with a window only the last window
counts. -/
def candidatesOf (record : Lifecycle) (groupIndex : Nat) (snapshot : SnapshotGroup)
    (group : GroupOffloadConfig) : List SnapshotBlock :=
  let start :=
    match group.slidingWindowSizeInBlocks with
    | none => 0
    | some window => snapshot.keys.length - window
  context.groupCandidates record groupIndex group start ((entries snapshot).drop start)

/-- The blocks of a snapshot that may be preserved, in the order of preference. -/
def snapshotCandidates (record : Lifecycle) : Except OffloadError (List SnapshotBlock) :=
  match record.snapshot with
  | none => .error .assertionFailed
  | some snapshot =>
    let candidates := ((snapshot.groups.zip context.config.kvGroupConfigs).mapIdx
      fun index (snapshot, group) =>
        context.candidatesOf record index snapshot group).flatten
    .ok (candidates.insertionSort fun left right => context.precedes left right)

/-- The positions of the candidates of a group. -/
def indicesOf (candidates : List SnapshotBlock) (group : GroupOffloadConfig) : List Nat :=
  (candidates.filter fun candidate => decide (candidate.group = group.groupIdx)).map
    SnapshotBlock.index

/-- The boundary that a hit can have in all groups. -/
def commonEnd (configs : List GroupOffloadConfig) (candidates : List SnapshotBlock) : Nat :=
  let alignment := (configs.map GroupOffloadConfig.offloadedBlockSize).foldl Nat.lcm 1
  let ends := configs.map fun group =>
    (((indicesOf candidates group).max?).getD 0 + 1) * group.offloadedBlockSize
  (ends.min?).getD 0 / alignment * alignment

/-- Whether the window in front of a boundary is complete. -/
def windowComplete (stop : Nat) (candidates : List SnapshotBlock)
    (group : GroupOffloadConfig) : Bool :=
  match group.slidingWindowSizeInBlocks with
  | none => true
  | some window =>
    let last := stop / group.offloadedBlockSize
    (List.range' (last - window) (last - (last - window))).all fun index =>
      decide (index ∈ indicesOf candidates group)

/-- Whether full attention in a single group is all there is. -/
def isSingleFull : List GroupOffloadConfig → Bool
  | [group] => group.slidingWindowSizeInBlocks.isNone
  | _ => false

/-- Bound a selection such that a lookup can hit all of it. -/
def boundCandidates (candidates : List SnapshotBlock) (limit : Nat) : List SnapshotBlock :=
  let candidates := candidates.take (limit / context.config.blockSizeFactor)
  let configs := context.config.kvGroupConfigs
  if candidates.isEmpty || isSingleFull configs then candidates
  else if !configs.all fun group => !(indicesOf candidates group).isEmpty then []
  else
    let stop := commonEnd configs candidates
    if configs.all (windowComplete stop candidates) then
      candidates.filter fun candidate => decide (context.endTokens candidate ≤ stop)
    else []

end SnapshotContext

end TokenCake
