import Mathlib.Algebra.GCDMonoid.Nat
import TokenCake.KVCache.SingleType

/-!
# The KV cache manager

The coordinator applies every operation to the managers of all groups, which share one block pool,
and finds the longest prefix of a request for which every group has cached blocks.  The search of
one attention type returns rows: for every block position the blocks of the groups of that type.  A
layout with several attention types shortens the hit until all types agree.  On top of the
coordinator, the manager checks that the pool can provide the blocks of an allocation before it
changes anything.
-/

namespace TokenCake

/-- The groups of one attention type. -/
structure AttentionGroup where
  spec : KVCacheSpec
  groupIds : List Nat
deriving DecidableEq, Repr

namespace AttentionGroup

/-- The longest prefix of at most `count` blocks whose length is a multiple of
the alignment. -/
def alignedLength (blockSize alignmentTokens : Nat) : Nat → Nat
  | 0 => 0
  | count + 1 =>
    if blockSize = alignmentTokens ∨ (count + 1) * blockSize % alignmentTokens = 0 then
      count + 1
    else alignedLength blockSize alignmentTokens count

variable (group : AttentionGroup) (pool : BlockPool)

/-- Drop rows until the length is a multiple of the alignment. -/
def alignRows (alignmentTokens : Nat) (rows : List (List BlockId)) : List (List BlockId) :=
  rows.take (alignedLength group.spec.blockSize alignmentTokens rows.length)

/-- Rows from the left up to the first miss. -/
def matchedRows (group : AttentionGroup)
    (pool : BlockPool) : List (List Bytes) → List (List BlockId)
  | [] => []
  | hashes :: rest =>
    match pool.getCachedBlock hashes group.groupIds with
    | none => []
    | some row => row :: group.matchedRows pool rest

/-- The hit of full attention: rows up to the first miss. -/
def fullAttentionHit (blockHashes : List (List Bytes)) (maxLength : Nat) (useEagle : Bool)
    (alignmentTokens : Nat) : List (List BlockId) :=
  let rows := group.matchedRows pool (blockHashes.take (maxLength / group.spec.blockSize))
  group.alignRows alignmentTokens (if useEagle then rows.dropLast else rows)

/-- Search a window of cached blocks from right to left.  The answer says whether
the window was found.  A position without hashes is a miss; the source indexes the hashes, which
cover the positions up to the searched length, and would raise an error. -/
def searchWindow (group : AttentionGroup) (pool : BlockPool) (blockHashes : List (List Bytes))
    (useEagle : Bool) (alignmentTokens windowBlocks : Nat) :
    Nat → Nat → List (List BlockId) → Bool × List (List BlockId)
  | 0, contiguous, rows => (false, rows.take contiguous)
  | index + 1, contiguous, rows =>
    match blockHashes[index]?.bind fun hashes =>
        pool.getCachedBlock hashes group.groupIds with
    | none => searchWindow group pool blockHashes useEagle alignmentTokens windowBlocks index 0 rows
    | some row =>
      let blocksAfterPop := if useEagle then index else index + 1
      if contiguous = 0 ∧ group.spec.blockSize ≠ alignmentTokens ∧
          blocksAfterPop * group.spec.blockSize % alignmentTokens ≠ 0 then
        searchWindow group pool blockHashes useEagle alignmentTokens windowBlocks index 0 rows
      else
        let placed := rows.set index row
        if contiguous + 1 ≥ windowBlocks then (true, placed.take (index + contiguous + 1))
        else
          searchWindow group pool blockHashes useEagle alignmentTokens windowBlocks index
            (contiguous + 1) placed

/-- The hit of a sliding window: blocks in front of the window count as computed. -/
def slidingWindowHit (slidingWindow : Nat) (blockHashes : List (List Bytes)) (maxLength : Nat)
    (useEagle : Bool) (alignmentTokens : Nat) : List (List BlockId) :=
  let windowBlocks :=
    (cdiv ((slidingWindow : Int) - 1) group.spec.blockSize).toNat + (if useEagle then 1 else 0)
  let maxNumBlocks := maxLength / group.spec.blockSize
  let rows := List.replicate maxNumBlocks (group.groupIds.map fun _ => nullBlock)
  let (found, rows) :=
    group.searchWindow pool blockHashes useEagle alignmentTokens windowBlocks maxNumBlocks 0 rows
  let rows := if found then rows else group.alignRows alignmentTokens rows
  if useEagle && !rows.isEmpty then group.alignRows alignmentTokens rows.dropLast else rows

/-- The hit of a chunked-local type: blocks in front of the current chunk count
as computed.  As for a window, a position without hashes is a miss. -/
def chunkedLocalHit (attentionChunkSize : Nat) (blockHashes : List (List Bytes))
    (maxLength : Nat) : List (List BlockId) :=
  let start := maxLength / attentionChunkSize * attentionChunkSize / group.spec.blockSize
  List.replicate start (group.groupIds.map fun _ => nullBlock) ++
    group.matchedRows pool (slice blockHashes start (maxLength / group.spec.blockSize))

/-- The hit of one attention type. -/
def findLongestCacheHit (blockHashes : List (List Bytes)) (maxLength : Nat) (useEagle : Bool)
    (alignmentTokens : Nat) : List (List BlockId) :=
  match group.spec.kind with
  | .fullAttention => group.fullAttentionHit pool blockHashes maxLength useEagle alignmentTokens
  | .slidingWindow window =>
    group.slidingWindowHit pool window blockHashes maxLength useEagle alignmentTokens
  | .chunkedLocalAttention chunk => group.chunkedLocalHit pool chunk blockHashes maxLength

/-- Whether a type attends to all tokens. -/
def isFullAttention (group : AttentionGroup) : Bool :=
  decide (group.spec.kind = .fullAttention)

end AttentionGroup

/-- The search over several attention types. -/
structure HybridSearch where
  attentionGroups : List AttentionGroup
  /-- The alignment of hits: the least common multiple of the block sizes. -/
  lcmBlockSize : Nat
  eagleAttnGroupIndices : List Nat

/-- What is known of the hit of one attention type. -/
abbrev FoundRows := Option (List (List BlockId))

namespace HybridSearch

/-- Collect the groups of equal specification, in the order of their first
member. -/
def addGroup (groups : List AttentionGroup) (groupId : Nat)
    (spec : KVCacheSpec) : List AttentionGroup :=
  if groups.any fun group => decide (group.spec = spec) then
    groups.map fun group =>
      if group.spec = spec then { group with groupIds := group.groupIds ++ [groupId] } else group
  else groups ++ [{ spec := spec, groupIds := [groupId] }]

/-- Group the specifications of all groups; full attention comes first. -/
def init (specs : List KVCacheSpec) (eagleGroupIds : List Nat) : HybridSearch :=
  let groups := (specs.zipIdx).foldl (fun groups entry => addGroup groups entry.2 entry.1) []
  let ordered :=
    groups.filter AttentionGroup.isFullAttention ++
      groups.filter fun group => !group.isFullAttention
  { attentionGroups := ordered
    lcmBlockSize := (groups.map fun group => group.spec.blockSize).foldl Nat.lcm 1
    eagleAttnGroupIndices :=
      (List.range ordered.length).filter fun index =>
        (ordered[index]?.map AttentionGroup.groupIds).getD [] |>.any fun groupId =>
          decide (groupId ∈ eagleGroupIds) }

/-- State of a pass over the attention types. -/
structure Pass where
  currHitLength : Nat
  eagleVerified : List Nat
  found : List FoundRows

variable (search : HybridSearch) (pool : BlockPool)

/-- Let one attention type accept or shorten the candidate length. -/
def visit (blockHashes : List Bytes) (maxCacheHitLength : Nat) (pass : Pass) (index : Nat)
    (group : AttentionGroup) : Pass :=
  let blockSize := group.spec.blockSize
  match group.isFullAttention, (pass.found[index]?).join with
  | true, some _ =>
    -- Full attention is closed under prefixes, so the first search is enough.
    { pass with currHitLength := pass.currHitLength / blockSize * blockSize }
  | _, _ =>
    let useEagle :=
      decide (index ∈ search.eagleAttnGroupIndices) && !decide (index ∈ pass.eagleVerified)
    let maxLength :=
      if useEagle then min (pass.currHitLength + blockSize) maxCacheHitLength
      else pass.currHitLength
    let rows :=
      group.findLongestCacheHit pool (pool.scaledHashes blockHashes blockSize) maxLength
        useEagle search.lcmBlockSize
    let newHitLength := rows.length * blockSize
    { currHitLength := newHitLength
      eagleVerified :=
        if useEagle then index :: pass.eagleVerified
        else if newHitLength < pass.currHitLength then []
        else pass.eagleVerified
      found := pass.found.set index (some rows) }

/-- Visit all attention types once. -/
def runPass (blockHashes : List Bytes) (maxCacheHitLength : Nat) (pass : Pass) : Pass :=
  (search.attentionGroups.zipIdx).foldl (fun pass entry =>
      search.visit pool blockHashes maxCacheHitLength pass entry.2 entry.1) pass

/-- A layout of full attention and one other type needs one pass. -/
def isSimpleHybrid (search : HybridSearch) : Bool :=
  decide (search.attentionGroups.length = 2) &&
    (search.attentionGroups.head?.map AttentionGroup.isFullAttention).getD false

/-- Repeat passes until no type shortens the hit.  Every pass but the last one
shortens it, so the number of passes is bounded by the first length. -/
def passes (search : HybridSearch) (pool : BlockPool) (blockHashes : List Bytes)
    (maxCacheHitLength : Nat) : Nat → Nat → Pass → Nat × Pass
  | 0, hitLength, pass => (hitLength, pass)
  | fuel + 1, hitLength, pass =>
    let done :=
      search.runPass pool blockHashes maxCacheHitLength { pass with currHitLength := hitLength }
    if done.currHitLength ≥ hitLength then (hitLength, done)
    else if search.isSimpleHybrid then (done.currHitLength, done)
    else search.passes pool blockHashes maxCacheHitLength fuel done.currHitLength done

/-- The rows of the attention types; the first type is cut to the final length if
it is full attention. -/
def truncated (hitLength : Nat) (found : List FoundRows) : List (List (List BlockId)) :=
  ((search.attentionGroups.zip found).zipIdx).map fun entry =>
    let rows := entry.1.2.getD []
    if entry.2 = 0 && entry.1.1.isFullAttention then
      rows.take (hitLength / entry.1.1.spec.blockSize)
    else rows

/-- The blocks of one group in the rows of its attention type. -/
def column (groups : List (AttentionGroup × List (List BlockId))) (groupId : Nat) : List BlockId :=
  match groups.find? fun entry => decide (groupId ∈ entry.1.groupIds) with
  | none => []
  | some (group, rows) => rows.map fun row => row.getD (group.groupIds.idxOf groupId) nullBlock

/-- The longest hit of all attention types. -/
def findLongestCacheHit (numGroups : Nat) (blockHashes : List Bytes)
    (maxCacheHitLength : Nat) : KVCacheBlocks × Nat :=
  let (hitLength, pass) :=
    search.passes pool blockHashes maxCacheHitLength (maxCacheHitLength + 1) maxCacheHitLength
      { currHitLength := maxCacheHitLength
        eagleVerified := []
        found := search.attentionGroups.map fun _ => none }
  let groups := search.attentionGroups.zip (search.truncated hitLength pass.found)
  ((List.range numGroups).map (column groups), hitLength)

end HybridSearch

/-- The managers of all groups over one block pool. -/
structure KVCacheCoordinator where
  blockPool : BlockPool
  singleTypeManagers : List SingleTypeKVCacheManager
  enableCaching : Bool
  /-- Groups that drop the last block of a hit. -/
  eagleGroupIds : List Nat := []

namespace KVCacheCoordinator

/-- The managers of the groups of a new engine. -/
def init (specs : List KVCacheSpec) (numGpuBlocks hashBlockSize : Nat)
    (enableCaching useEagle : Bool) (flaggedEagleGroupIds : List Nat)
    (maxNumBatchedTokens maxModelLen : Nat) : KVCacheCoordinator where
  blockPool := .init numGpuBlocks enableCaching hashBlockSize
  singleTypeManagers := specs.zipIdx.map fun entry =>
    { kvCacheSpec := entry.1
      kvCacheGroupId := entry.2
      enableCaching := enableCaching
      maxAdmissionBlocksPerRequest :=
        entry.1.maxAdmissionBlocksPerRequest maxNumBatchedTokens maxModelLen }
  enableCaching := enableCaching
  eagleGroupIds :=
    if useEagle && flaggedEagleGroupIds.isEmpty then List.range specs.length
    else flaggedEagleGroupIds

/-- Apply an operation to the managers in order, passing the pool along. -/
def eachManager (operation : Nat → SingleTypeKVCacheManager → BlockPool →
      Except ResourceError (α × SingleTypeKVCacheManager × BlockPool)) :
    Nat → List SingleTypeKVCacheManager → BlockPool →
      Except ResourceError (List α × List SingleTypeKVCacheManager × BlockPool)
  | _, [], pool => .ok ([], [], pool)
  | index, manager :: managers, pool => do
      let (result, changed, pool) ← operation index manager pool
      let (results, rest, pool) ← eachManager operation (index + 1) managers pool
      return (result :: results, changed :: rest, pool)

/-- Apply an operation that cannot fail to the managers in order. -/
def mapManagers
    (operation : SingleTypeKVCacheManager → BlockPool → SingleTypeKVCacheManager × BlockPool) :
    List SingleTypeKVCacheManager → BlockPool → List SingleTypeKVCacheManager × BlockPool
  | [], pool => ([], pool)
  | manager :: managers, pool =>
    let (changed, pool) := operation manager pool
    let (rest, pool) := mapManagers operation managers pool
    (changed :: rest, pool)

variable (coordinator : KVCacheCoordinator)

/-- The state after an operation on all managers. -/
def withManagers (managers : List SingleTypeKVCacheManager)
    (pool : BlockPool) : KVCacheCoordinator :=
  { coordinator with blockPool := pool, singleTypeManagers := managers }

/-- Number of blocks to allocate for a request in all groups. -/
def getNumBlocksToAllocate (coordinator : KVCacheCoordinator) (arguments : DemandArguments) : Int :=
  (coordinator.singleTypeManagers.zipIdx.map fun entry =>
    entry.1.getNumBlocksToAllocate coordinator.blockPool arguments.requestId
      arguments.numTokens (arguments.newComputedBlocks.getD entry.2 [])
      arguments.totalComputedTokens arguments.applyAdmissionCap).sum

/-- A request whose blocks are recorded as cached brings no further hit. -/
def acceptsHits (requestId : RequestId) (newComputedBlocks : KVCacheBlocks) : Bool :=
  coordinator.singleTypeManagers.zipIdx.all fun entry =>
    !decide (requestId ∈ entry.1.numCachedBlock) || (newComputedBlocks.getD entry.2 []).isEmpty

/-- Give a new request its cached blocks and blocks for external tokens. -/
def allocateNewComputedBlocks (coordinator : KVCacheCoordinator) (requestId : RequestId)
    (newComputedBlocks : KVCacheBlocks) (numLocalComputedTokens numExternalComputedTokens : Int) :
    Except ResourceError KVCacheCoordinator := do
  let (_, managers, pool) ←
    eachManager (fun index manager pool => do
        let (manager, pool) ←
          manager.allocateNewComputedBlocks pool requestId (newComputedBlocks.getD index [])
            numLocalComputedTokens numExternalComputedTokens
        return ((), manager, pool))
      0 coordinator.singleTypeManagers coordinator.blockPool
  return coordinator.withManagers managers pool

/-- Allocate blocks until a request has slots for its tokens. -/
def allocateNewBlocks (coordinator : KVCacheCoordinator) (requestId : RequestId)
    (numTokens : Int) : Except ResourceError (KVCacheBlocks × KVCacheCoordinator) := do
  let (newBlocks, managers, pool) ←
    eachManager (fun _ manager pool => manager.allocateNewBlocks pool requestId numTokens)
      0 coordinator.singleTypeManagers coordinator.blockPool
  return (newBlocks, coordinator.withManagers managers pool)

/-- The search for a layout with several attention types. -/
def hybridSearch (coordinator : KVCacheCoordinator) : HybridSearch :=
  .init (coordinator.singleTypeManagers.map SingleTypeKVCacheManager.kvCacheSpec)
    coordinator.eagleGroupIds

/-- The number of tokens to cache and the alignment of hits; several groups cache
whole segments only. -/
def cacheExtent (numComputedTokens : Int) : Int × Option Nat :=
  if !coordinator.enableCaching || decide (coordinator.singleTypeManagers.length = 1) then
    (numComputedTokens, none)
  else
    let lcmBlockSize := coordinator.hybridSearch.lcmBlockSize
    (numComputedTokens / lcmBlockSize * lcmBlockSize, some lcmBlockSize)

/-- Cache the full blocks of a request in all groups. -/
def cacheBlocks (request : Request)
    (numComputedTokens : Int) : Except ResourceError KVCacheCoordinator := do
  let (numTokens, alignmentTokens) := coordinator.cacheExtent numComputedTokens
  let (_, managers, pool) ←
    eachManager (fun _ manager pool => do
        let (manager, pool) ← manager.cacheBlocks pool request numTokens alignmentTokens
        return ((), manager, pool))
      0 coordinator.singleTypeManagers coordinator.blockPool
  return coordinator.withManagers managers pool

/-- Free the blocks of a request in all groups. -/
def free (requestId : RequestId) : KVCacheCoordinator :=
  let (managers, pool) :=
    mapManagers (fun manager pool => manager.free pool requestId)
      coordinator.singleTypeManagers coordinator.blockPool
  coordinator.withManagers managers pool

/-- Free the blocks of a request that are outside the attention windows. -/
def removeSkippedBlocks (requestId : RequestId) (totalComputedTokens : Int) : KVCacheCoordinator :=
  let (managers, pool) :=
    mapManagers (fun manager pool => manager.removeSkippedBlocks pool requestId totalComputedTokens)
      coordinator.singleTypeManagers coordinator.blockPool
  coordinator.withManagers managers pool

/-- The blocks of a request in every group. -/
def getBlocks (requestId : RequestId) : KVCacheBlocks :=
  coordinator.singleTypeManagers.map fun manager => manager.blocksOf requestId

/-- The longest prefix hit, for the kind of coordinator that the layout asks for. -/
def findLongestCacheHit (blockHashes : List Bytes)
    (maxCacheHitLength : Nat) : KVCacheBlocks × Nat :=
  let pool := coordinator.blockPool
  if !coordinator.enableCaching then (coordinator.singleTypeManagers.map fun _ => [], 0)
  else
    match coordinator.singleTypeManagers with
    | [manager] =>
      let group : AttentionGroup := { spec := manager.kvCacheSpec, groupIds := [0] }
      let rows :=
        group.findLongestCacheHit pool (pool.scaledHashes blockHashes manager.blockSize)
          maxCacheHitLength (decide (0 ∈ coordinator.eagleGroupIds)) manager.blockSize
      ([rows.map fun row => row.getD 0 nullBlock], rows.length * manager.blockSize)
    | managers =>
      coordinator.hybridSearch.findLongestCacheHit pool managers.length blockHashes
        maxCacheHitLength

end KVCacheCoordinator

/-- The manager of the GPU cache. -/
structure NativeKVCacheManager where
  maxModelLen : Nat
  enableCaching : Bool
  coordinator : KVCacheCoordinator

namespace NativeKVCacheManager

/-- The manager of a new engine. -/
def init
    (specs : List KVCacheSpec) (numGpuBlocks hashBlockSize maxModelLen maxNumBatchedTokens : Nat)
    (enableCaching useEagle : Bool) (flaggedEagleGroupIds : List Nat) : NativeKVCacheManager where
  maxModelLen := maxModelLen
  enableCaching := enableCaching
  coordinator :=
    .init specs numGpuBlocks hashBlockSize enableCaching useEagle flaggedEagleGroupIds
      maxNumBatchedTokens maxModelLen

/-- No blocks in any group. -/
def emptyKvCacheBlocks (manager : NativeKVCacheManager) : KVCacheBlocks :=
  manager.coordinator.singleTypeManagers.map fun _ => []

/-- Number of blocks that can be allocated. -/
def getNumFreeBlocks (manager : NativeKVCacheManager) : Int :=
  manager.coordinator.blockPool.getNumFreeBlocks

variable (manager : NativeKVCacheManager) (request : Request)

/-- The cached blocks of a request and the number of their tokens.  The last token
is always computed again. -/
def getComputedBlocks (request : Request) : KVCacheBlocks × Nat :=
  if !manager.enableCaching || request.skipReadingPrefixCache then
    (manager.emptyKvCacheBlocks, 0)
  else manager.coordinator.findLongestCacheHit request.blockHashes (request.numTokens - 1)

/-- Cache the full blocks of a request, if caching is on. -/
def cacheBlocks (manager : NativeKVCacheManager) (request : Request)
    (numComputedTokens : Int) : Except ResourceError NativeKVCacheManager :=
  if manager.enableCaching then do
    let coordinator ← manager.coordinator.cacheBlocks request numComputedTokens
    return { manager with coordinator := coordinator }
  else .ok manager

/-- Free the blocks of a request that are outside the attention windows. -/
def removeSkippedBlocks (manager : NativeKVCacheManager) (requestId : RequestId)
    (totalComputedTokens : Int) : NativeKVCacheManager :=
  { manager with
    coordinator := manager.coordinator.removeSkippedBlocks requestId totalComputedTokens }

/-- Tokens of a request that are computed when an allocation starts. -/
def totalComputedTokens (request : Request) (arguments : AllocateArguments) : Int :=
  request.numComputedTokens + arguments.numNewComputedTokens + arguments.numExternalComputedTokens

section

variable (arguments : AllocateArguments)

/-- Number of tokens after an allocation, without lookahead tokens. -/
def mainModelTokens : Int :=
  min (totalComputedTokens request arguments) manager.maxModelLen + arguments.numNewTokens

/-- Number of tokens that need slots, with lookahead tokens. -/
def slotTokens : Int :=
  min (manager.mainModelTokens request arguments + arguments.numLookaheadTokens) manager.maxModelLen

/-- The cached blocks an allocation brings along. -/
def computedBlocks : KVCacheBlocks :=
  arguments.newComputedBlocks.getD manager.emptyKvCacheBlocks

/-- Blocks the whole request needs. -/
def fullSequenceDemand : Int :=
  let fullNumTokens : Int := min request.numTokens manager.maxModelLen
  manager.coordinator.getNumBlocksToAllocate
    { requestId := request.requestId
      numTokens := fullNumTokens
      newComputedBlocks := manager.computedBlocks arguments
      numEncoderTokens := arguments.numEncoderTokens
      totalComputedTokens := min (totalComputedTokens request arguments) manager.maxModelLen
      numTokensMainModel := fullNumTokens
      applyAdmissionCap := true }

/-- Blocks an allocation needs. -/
def slotDemand : Int :=
  manager.coordinator.getNumBlocksToAllocate
    { requestId := request.requestId
      numTokens := manager.slotTokens request arguments
      newComputedBlocks := manager.computedBlocks arguments
      numEncoderTokens := arguments.numEncoderTokens
      totalComputedTokens := totalComputedTokens request arguments
      numTokensMainModel := manager.mainModelTokens request arguments }

/-- Add the cached blocks and the blocks of external tokens, if there are any. -/
def addComputedBlocks : Except ResourceError KVCacheCoordinator :=
  let blocks := manager.computedBlocks arguments
  if blocks.any (fun group => !group.isEmpty) || decide (arguments.numExternalComputedTokens > 0)
  then
    manager.coordinator.allocateNewComputedBlocks request.requestId blocks
      (request.numComputedTokens + arguments.numNewComputedTokens)
      arguments.numExternalComputedTokens
  else .ok manager.coordinator

/-- Take the blocks of an allocation and cache the full ones.  Draft tokens are
never cached. -/
def takeSlots :
    Except ResourceError (KVCacheBlocks × NativeKVCacheManager) := do
  let coordinator ← manager.addComputedBlocks request arguments
  let (newBlocks, coordinator) ←
    coordinator.allocateNewBlocks request.requestId (manager.slotTokens request arguments)
  let allocated := { manager with coordinator := coordinator }
  if !manager.enableCaching || arguments.delayCacheBlocks then return (newBlocks, allocated)
  else
    let cached ←
      allocated.cacheBlocks request
        (min (manager.mainModelTokens request arguments) request.numTokens)
    return (newBlocks, cached)

/-- Blocks for new tokens, or `none` if the pool cannot provide them. -/
def allocateSlots : Except ResourceError (Option KVCacheBlocks × NativeKVCacheManager) :=
  if arguments.numNewTokens = 0 ∧ arguments.numExternalComputedTokens = 0 then
    .error .valueError
  else do
    ensure (manager.coordinator.acceptsHits request.requestId (manager.computedBlocks arguments))
      .assertionFailed
    if arguments.fullSequenceMustFit ∧
        manager.fullSequenceDemand request arguments > manager.getNumFreeBlocks then
      return (none, manager)
    else
      let trimmed :=
        manager.removeSkippedBlocks request.requestId
          (min (totalComputedTokens request arguments) manager.maxModelLen)
      if trimmed.slotDemand request arguments > trimmed.getNumFreeBlocks then
        return (none, trimmed)
      else
        let (newBlocks, allocated) ← trimmed.takeSlots request arguments
        return (some newBlocks, allocated)

end

/-- Free the blocks of a request. -/
def free (manager : NativeKVCacheManager) (requestId : RequestId) : NativeKVCacheManager :=
  { manager with coordinator := manager.coordinator.free requestId }

/-- Drop the hashes of blocks that are cached. -/
def evictBlocks (manager : NativeKVCacheManager) (blocks : List BlockId) : NativeKVCacheManager :=
  { manager with
    coordinator :=
      { manager.coordinator with
        blockPool := manager.coordinator.blockPool.evictBlocks blocks } }

/-- Drop all hashes, unless a block is in use. -/
def resetPrefixCache (manager : NativeKVCacheManager) : Bool × NativeKVCacheManager :=
  let (done, pool) := manager.coordinator.blockPool.resetPrefixCache
  (done, { manager with coordinator := { manager.coordinator with blockPool := pool } })

instance : KVCacheManager NativeKVCacheManager where
  maxModelLen := NativeKVCacheManager.maxModelLen
  enableCaching := NativeKVCacheManager.enableCaching
  fullAttentionOnly := fun manager =>
    manager.coordinator.singleTypeManagers.all fun group =>
      decide (group.kvCacheSpec.kind = .fullAttention)
  emptyKvCacheBlocks := emptyKvCacheBlocks
  numBlocks := fun manager => manager.coordinator.blockPool.numGpuBlocks
  getNumFreeBlocks := getNumFreeBlocks
  refCnt := fun manager => manager.coordinator.blockPool.refCnt
  usage := fun manager => manager.coordinator.blockPool.getUsage
  newStepStarts := id
  getBlocks := fun manager => manager.coordinator.getBlocks
  getComputedBlocks := getComputedBlocks
  findLongestCacheHit := fun manager => manager.coordinator.findLongestCacheHit
  getNumBlocksToAllocate := fun manager => manager.coordinator.getNumBlocksToAllocate
  allocateSlots := allocateSlots
  free := free
  removeSkippedBlocks := removeSkippedBlocks
  cacheBlocks := cacheBlocks
  evictBlocks := evictBlocks

end NativeKVCacheManager

end TokenCake
