import TokenCake.KVCache.Interface
import TokenCake.Scheduling.Plan

/-!
# The scheduling controller

Capacity policy for agent work on top of the native scheduler: every occupied
block is charged to shared capacity or to a reservation, and every admitted
request has its remaining growth committed.  Metrics and clocks are left out;
scores that depend on the clock are inputs of a step.
-/

namespace TokenCake

open KVCacheManager

/-- State of the capacity policy. -/
structure SchedulingController where
  settings : SchedulingConfig
  numLookaheadTokens : Nat
  /-- Full attention without lookahead: capacity can be checked before an
  external lookup. -/
  cacheCapacityPrecheck : Bool
  progressReservation : Bool
  reclaimReservation : Bool
  metadata : Dict RequestId TokenCakeMetadata := .empty
  scores : Dict RequestId Int := .empty
  agentScores : Dict RequestId Int := .empty
  /-- Importance of the remembered agent types, least recently used first. -/
  history : Dict Text ℚ := .empty
  started : List RequestId := []
  /-- One charge per occupied block: a reservation owner, or shared capacity. -/
  charges : Dict BlockId (Option Text) := .empty
  used : Dict (Option Text) Int := .empty
  plan : CapacityPlan := {}
  reserveRatio : ℚ
  step : Nat := 0
  waitingCritical : List Text := []
  waitingScores : Dict Text Int := .empty
  sharedAvailable : Int := 0
  reservedAvailable : Dict Text Int := .empty
  accountingActive : Bool := false
  /-- Admitted requests with their encoder tokens. -/
  admitted : Dict RequestId Nat := .empty
  growthCommitments : Dict RequestId Int := .empty
  prefillLimits : Dict RequestId Nat := .empty
  prefillGrowth : Dict RequestId Int := .empty
  reclaimBeneficiaries : List RequestId := []
  /-- Free capacity and completion epoch at a physical preemption. -/
  retryCapacity : Dict RequestId (Int × Nat) := .empty
  completionEpoch : Nat := 0
  reservationDeferred : List RequestId := []

/-- Steps between two revisions of the plan. -/
def adjustmentWindow : Nat := 500

/-- Number of agent types that are remembered. -/
def historyLimit : Nat := 4096

/-- Scores within this distance of the lowest one may be preempted. -/
def preemptionScoreBand : Int := 3000

namespace SchedulingController

variable {M : Type} [KVCacheManager M]

/-- The controller of a new engine. -/
def init (settings : SchedulingConfig) (manager : M)
    (numLookaheadTokens : Nat) : SchedulingController :=
  let precheck := decide (numLookaheadTokens = 0) && fullAttentionOnly manager
  let selectiveGeneration := settings.reserveGenerationTokens && precheck
  { settings := settings
    numLookaheadTokens := if settings.reserveGenerationTokens then numLookaheadTokens else 0
    cacheCapacityPrecheck := precheck
    progressReservation :=
      selectiveGeneration && decide (settings.generationReserveMode = .progress)
    reclaimReservation :=
      selectiveGeneration && decide (settings.generationReserveMode = .reclaim)
    reserveRatio := settings.reserveRatioMin }

variable (controller : SchedulingController) (manager : M) (request : Request)
  (requestId : RequestId) (computed : Int) (demand : Int)

/-- Remember the annotation of a request. -/
def associate (metadata : TokenCakeMetadata) : SchedulingController :=
  { controller with metadata := controller.metadata.set requestId metadata }

/-- Move an agent type to the recent end of the history. -/
def touchHistory (key : Text) (importance : Option ℚ) : SchedulingController :=
  let value := importance.getD (controller.history.getD key 0)
  let moved := (controller.history.erase key).set key value
  { controller with history := moved.dropOldest (moved.entries.length - historyLimit) }

/-- Move the agent type of an annotated request to the recent end. -/
def touchAgent (metadata : Option TokenCakeMetadata)
    (importance : TokenCakeMetadata → Option ℚ) : SchedulingController :=
  match metadata with
  | none => controller
  | some metadata =>
    if metadata.agentType = 0 then controller
    else controller.touchHistory metadata.agentType (importance metadata)

/-- Moving an agent type changes the history only. -/
theorem touchAgent_eq
    (metadata : Option TokenCakeMetadata) (importance : TokenCakeMetadata → Option ℚ) :
    ∃ history, controller.touchAgent metadata importance =
      { controller with history := history } := by
  unfold touchAgent
  split
  · exact ⟨controller.history, rfl⟩
  · split
    · exact ⟨controller.history, rfl⟩
    · exact ⟨_, rfl⟩

/-- The blocks of a request in all groups. -/
def blockIds (manager : M) (requestId : RequestId) : List BlockId :=
  (getBlocks manager requestId).blockIds

/-- Tokens an admission of the request has to provide for. -/
def admissionTokens (request : Request) : Nat :=
  let fullTokens :=
    if controller.settings.reserveGenerationTokens then
      max request.numTokens (request.numPromptTokens + request.maxTokens)
    else request.numTokens
  min fullTokens (maxModelLen manager)

section

variable (controller : SchedulingController)

/-- Generation growth of the request that is cheapest to finish. -/
def generationHeadroom : Int :=
  ((controller.growthCommitments.entries.map fun entry =>
    max 0 (entry.2 - controller.prefillGrowth.getD entry.1 0)).min?).getD 0

/-- Blocks promised to admitted requests. -/
def committedBlocks : Int :=
  if controller.progressReservation then
    controller.prefillGrowth.sum + controller.generationHeadroom
  else if controller.reclaimReservation then
    controller.prefillGrowth.sum +
      ((controller.reclaimBeneficiaries.filter (· ∈ controller.growthCommitments)).map
        fun key => max 0
          (controller.growthCommitments.getD key 0 - controller.prefillGrowth.getD key 0)).sum
  else controller.growthCommitments.sum

/-- Number of free blocks that no request was promised. -/
def uncommittedBlocks (manager : M) : Int :=
  getNumFreeBlocks manager - controller.committedBlocks

end

/-- Tokens up to which growth is committed, for all of the request or for its
input only. -/
def growthLimit (inputOnly : Bool) : Nat :=
  if inputOnly then
    min (controller.prefillLimits.getD request.requestId request.numTokens) (maxModelLen manager)
  else controller.admissionTokens manager request

/-- Blocks the request still needs to reach its limit. -/
def remainingGrowth (inputOnly : Bool) : Int :=
  let fullTokens : Int := controller.growthLimit manager request inputOnly
  if request.numComputedTokens ≥ fullTokens then 0
  else
    getNumBlocksToAllocate manager
      { requestId := request.requestId
        numTokens := min (fullTokens + controller.numLookaheadTokens) (maxModelLen manager)
        newComputedBlocks := emptyKvCacheBlocks manager
        numEncoderTokens := controller.admitted.getD request.requestId 0
        totalComputedTokens := request.numComputedTokens
        numTokensMainModel := fullTokens
        applyAdmissionCap := true }

/-- Blocks a request needs to reach a number of tokens when it is admitted. -/
def requiredBlocks (blocks : KVCacheBlocks) (numEncoderTokens : Nat) (tokens : Nat) : Int :=
  getNumBlocksToAllocate manager
    { requestId := request.requestId
      numTokens := min ((tokens : Int) + controller.numLookaheadTokens) (maxModelLen manager)
      newComputedBlocks := blocks
      numEncoderTokens := numEncoderTokens
      totalComputedTokens := computed
      numTokensMainModel := tokens
      applyAdmissionCap := true }

/-- Blocks an admission adds to the commitments. -/
def admissionDemand (blocks : KVCacheBlocks) (numEncoderTokens : Nat) : Int :=
  let required := controller.requiredBlocks manager request computed blocks numEncoderTokens
  let inputTokens := min request.numTokens (maxModelLen manager)
  if controller.reclaimReservation then required inputTokens
  else
    let full := required (controller.admissionTokens manager request)
    if !controller.progressReservation then full
    else
      let inputs := required inputTokens
      let headroom := max 0 (full - inputs)
      let headroom :=
        if controller.growthCommitments.entries.isEmpty then headroom
        else
          let previous := controller.generationHeadroom
          min previous headroom - previous
      max 0 (inputs + headroom)

/-- Headroom that remains if the commitments of a request shrink by a grant. -/
def headroomAfter (demand : Int) : Option Int :=
  (controller.growthCommitments.entries.map fun entry =>
    let granted := if entry.1 = requestId then demand else 0
    max 0 (entry.2 - granted) - max 0 (controller.prefillGrowth.getD entry.1 0 - granted)).min?

/-- Blocks a running request needs for its next tokens. -/
def growthDemand (manager : M) (request : Request) (numNewTokens : Int) : Int :=
  let mainTokens := request.numComputedTokens + numNewTokens
  getNumBlocksToAllocate manager
    { requestId := request.requestId
      numTokens := mainTokens
      newComputedBlocks := emptyKvCacheBlocks manager
      totalComputedTokens := request.numComputedTokens
      numTokensMainModel := mainTokens }

/-- Whether a running request may grow without breaking the commitment that one
admitted request can always finish. -/
def canGrow (numNewTokens : Int) : Except EngineError Bool :=
  if !controller.progressReservation then .ok true
  else
    let demand := growthDemand manager request numNewTokens
    if demand = 0 then .ok true
    else
      let available := controller.uncommittedBlocks manager
      if available < 0 then
        -- Adopted work may already exceed the commitment; one finisher goes on.
        let cost := fun key : RequestId =>
          [(controller.growthCommitments.getD key 0 : ℚ),
            -(controller.scores.getD key 0 : ℚ), (key : ℚ)]
        match firstMin cost controller.growthCommitments.keys with
        | none => .error .valueError
        | some beneficiary => .ok (decide (request.requestId = beneficiary))
      else
        match controller.headroomAfter request.requestId demand with
        | none => .error .valueError
        | some remainingHeadroom =>
          let inputs := controller.prefillGrowth.getD request.requestId 0
          let released :=
            min demand inputs + controller.generationHeadroom - remainingHeadroom
          .ok (decide (demand ≤ available + released))

/-- Count the blocks of each owner. -/
def countOwners (owners : List (Option Text)) : Dict (Option Text) Int :=
  owners.foldl (fun used owner => used.set owner (used.getD owner 0 + 1)) .empty

/-- Take an excess away from the reservations, lowest scores first. -/
def reduceReserved : List Text → Int → Dict Text Int → Dict Text Int
  | [], _, available => available
  | key :: rest, excess, available =>
    let reduction := min excess (available.getD key 0)
    reduceReserved rest (excess - reduction) (available.set key (available.getD key 0 - reduction))

/-- Recompute the capacity that admissions may still use. -/
def updateAvailable (manager : M) : SchedulingController :=
  let shared := max 0 (controller.plan.shared - controller.used.getD none 0)
  let reserved := Dict.tabulate controller.plan.reserved.keys fun key =>
    max 0 (controller.plan.reserved.getD key 0 - controller.used.getD (some key) 0)
  let excess :=
    max 0 (shared + reserved.sum - max 0 (controller.uncommittedBlocks manager))
  let reduction := min excess shared
  let order := sortByKey (fun key => [controller.plan.scores.getD key 0]) reserved.keys
  { controller with
    sharedAvailable := shared - reduction
    reservedAvailable := reduceReserved order (excess - reduction) reserved }

/-- Drop the charges of blocks that are no longer referenced. -/
def release (controller : SchedulingController) (manager : M) : SchedulingController :=
  if !controller.accountingActive then controller
  else
    let charges := controller.charges.filter fun block _ => decide (refCnt manager block > 0)
    { controller with charges := charges, used := countOwners charges.values }.updateAvailable
      manager

/-- Release the blocks a request skips behind its computed tokens. -/
def releaseSkipped (computed : Int) : SchedulingController × M :=
  let trimmed := removeSkippedBlocks manager requestId computed
  if getNumFreeBlocks manager ≠ getNumFreeBlocks trimmed then
    (controller.release trimmed, trimmed)
  else (controller, trimmed)

/-- Release the blocks a running request skips, before it grows. -/
def prepareRunning (request : Request) : SchedulingController × M :=
  controller.releaseSkipped manager request.requestId request.numComputedTokens

/-- The tokens that may be spent on prefills while requests decode. -/
def prefillBudget (running : List Request) (nativeBudget : Int) : Int :=
  let limit := controller.settings.decodePrefillTokenBudget
  if limit ≠ 0 ∧ running.any fun request =>
      decide (request.numComputedTokens ≥ request.numPromptTokens) then
    min nativeBudget limit
  else nativeBudget

/-- Cut a prefill chunk to its budget. -/
def capPrefill (tokens budget : Int) : Int :=
  if tokens > budget then budget else tokens

/-- Whether a request may use the reservation of another agent type. -/
def mayBorrow (borrowReserved : Bool) (owner : Text) : Bool :=
  if !borrowReserved && decide (owner ∈ controller.waitingCritical) then
    let margin := controller.settings.priorityBorrowScoreMargin
    match controller.waitingScores.get? owner, controller.scores.get? requestId with
    | some ownerScore, some score =>
      decide (margin ≠ 0) && !decide (score - ownerScore < (margin : Int))
    | _, _ => false
  else true

/-- The donors to requests of an agent type, in the order in which they are asked. -/
def donors (controller : SchedulingController) (key : Text) : List Text :=
  sortByKeyDescending (fun donor =>
      [(controller.reservedAvailable.getD donor 0 : ℚ), controller.plan.scores.getD donor 0])
    (controller.reservedAvailable.keys.filter fun donor => !decide (donor = key))

/-- Take capacity from donors in order until the demand is met. -/
def borrowFrom (controller : SchedulingController) (requestId : RequestId) (borrowReserved : Bool) :
    List Text → Int → List (Option Text × Int) × Int
  | [], remaining => ([], remaining)
  | owner :: rest, remaining =>
    if controller.mayBorrow requestId borrowReserved owner then
      let borrowed := min remaining (controller.reservedAvailable.getD owner 0)
      if remaining - borrowed = 0 then ([(some owner, borrowed)], 0)
      else
        let (usage, left) :=
          controller.borrowFrom requestId borrowReserved rest (remaining - borrowed)
        ((some owner, borrowed) :: usage, left)
    else controller.borrowFrom requestId borrowReserved rest remaining

/-- Where the blocks of a demand would be charged, or `none` if they exceed what
the request may use. -/
def consumption (borrowReserved : Bool) : Option (List (Option Text × Int)) :=
  let shared := min demand controller.sharedAvailable
  let remaining := demand - shared
  if remaining = 0 then some [(none, shared)]
  else
    match controller.metadata.get? requestId with
    | none => none
    | some metadata =>
      let key := metadata.agentType
      let own : List (Option Text × Int) :=
        if key ∈ controller.plan.critical then
          [(some key, min remaining (controller.reservedAvailable.getD key 0))]
        else []
      let remaining := remaining - (own.map Prod.snd).sum
      if remaining = 0 then some ((none, shared) :: own)
      else
        let (borrowed, left) :=
          controller.borrowFrom requestId borrowReserved (controller.donors key) remaining
        if left = 0 then some ((none, shared) :: own ++ borrowed) else none

/-- Whether an annotated request cannot be admitted however much of its prefix an
external cache holds. -/
def deferCacheLookup (blocks : KVCacheBlocks) : Bool :=
  if !controller.cacheCapacityPrecheck
      || !decide (request.requestId ∈ controller.metadata)
      || decide (request.requestId ∈ controller.admitted)
      || request.hasEncoderInputs then false
  else
    !decide (controller.admissionDemand manager request computed blocks 0 ≤
      controller.uncommittedBlocks manager)

/-- Blocks an admission needs at least: those of its first tokens and those of
its commitment. -/
def allocationDemand (arguments : AllocateArguments) : Int :=
  let computed :=
    request.numComputedTokens + arguments.numNewComputedTokens + arguments.numExternalComputedTokens
  let mainTokens := min computed (maxModelLen manager) + arguments.numNewTokens
  let blocks := arguments.newComputedBlocks.getD (emptyKvCacheBlocks manager)
  let demand :=
    getNumBlocksToAllocate manager
      { requestId := request.requestId
        numTokens := min (mainTokens + arguments.numLookaheadTokens) (maxModelLen manager)
        newComputedBlocks := blocks
        numEncoderTokens := arguments.numEncoderTokens
        totalComputedTokens := computed
        numTokensMainModel := mainTokens }
  max demand (controller.admissionDemand manager request computed blocks arguments.numEncoderTokens)

/-- Whether a preempted request waits for more room than it left behind. -/
def resumeDeferred (available : Int) : Bool :=
  match controller.retryCapacity.get? requestId with
  | none => false
  | some (capacity, epoch) =>
    !controller.admitted.entries.isEmpty && decide (epoch = controller.completionEpoch)
      && decide (available ≤ capacity)

/-- Decide on a demand, remembering requests that only lack reserved capacity. -/
def judgeDemand (available : Int) (borrowReserved : Bool) : Bool × SchedulingController :=
  if demand > available then (false, controller)
  else if controller.resumeDeferred requestId available then (false, controller)
  else
    match controller.consumption requestId demand borrowReserved with
    | some _ => (true, controller)
    | none =>
      if requestId ∈ controller.metadata then
        (false, { controller with
          reservationDeferred := controller.reservationDeferred.insert requestId })
      else (false, controller)

/-- Decide on the admission of a waiting request.  A request whose load has ended
was admitted before the load. -/
def canAllocate (arguments : AllocateArguments)
    (borrowReserved : Bool) : Bool × SchedulingController × M :=
  if request.requestId ∈ controller.admitted then (true, controller, manager)
  else
    let computed :=
      request.numComputedTokens + arguments.numNewComputedTokens +
        arguments.numExternalComputedTokens
    let (controller, trimmed) :=
      controller.releaseSkipped manager request.requestId computed
    let (allowed, controller) :=
      controller.judgeDemand request.requestId
        (controller.allocationDemand trimmed request arguments)
        (controller.uncommittedBlocks trimmed) borrowReserved
    (allowed, controller, trimmed)

/-- Charge blocks to the owners of a usage list, in order. -/
def chargeUsage :
    List (Option Text × Int) → List BlockId → SchedulingController →
      Except EngineError SchedulingController
  | [], _, controller => .ok controller
  | (owner, count) :: rest, blocks, controller =>
    let charged :=
      { controller with
        charges := (blocks.take count.toNat).foldl
          (fun charges block => charges.set block owner) controller.charges
        used := controller.used.set owner (controller.used.getD owner 0 + count) }
    match owner with
    | none =>
      chargeUsage rest (blocks.drop count.toNat)
        { charged with sharedAvailable := max 0 (charged.sharedAvailable - count) }
    | some key =>
      if key ∈ charged.reservedAvailable then
        chargeUsage rest (blocks.drop count.toNat)
          { charged with
            reservedAvailable := charged.reservedAvailable.set key
              (charged.reservedAvailable.getD key 0 - count) }
      else .error .keyError

/-- Record the promised growth of an admitted request. -/
def recordGrowth (numEncoderTokens : Nat) : SchedulingController :=
  let id := request.requestId
  let admitted :=
    { controller with
      admitted := controller.admitted.set id (max (controller.admitted.getD id 0) numEncoderTokens)
      prefillLimits :=
        if id ∈ controller.prefillLimits then controller.prefillLimits
        else controller.prefillLimits.set id request.numTokens }
  { admitted with
    growthCommitments := admitted.growthCommitments.set id
      (admitted.remainingGrowth manager request false)
    prefillGrowth :=
      if admitted.progressReservation || admitted.reclaimReservation then
        admitted.prefillGrowth.set id (admitted.remainingGrowth manager request true)
      else admitted.prefillGrowth
    retryCapacity := admitted.retryCapacity.erase id
    reservationDeferred := admitted.reservationDeferred.erase id }

/-- Blocks of an allocation that are not charged yet, in ascending order. -/
def unchargedBlocks (running : Bool) (newBlocks : Option KVCacheBlocks) : List BlockId :=
  let held :=
    match running, newBlocks with
    | true, some newBlocks => newBlocks.blockIds
    | _, _ => blockIds manager request.requestId
  sortByKey (fun block => [(block : ℚ)])
    (held.filter fun block => !decide (block ∈ controller.charges))

/-- Where the blocks of an allocation are charged.  Accepted work that outgrows a
revised partition is charged to shared capacity. -/
def commitUsage (running borrowReserved : Bool) : Except EngineError (List (Option Text × Int)) :=
  match controller.consumption requestId demand borrowReserved with
  | some usage => .ok usage
  | none =>
    if running || decide (requestId ∈ controller.admitted) then .ok [(none, demand)]
    else .error .nativeAllocationExceededAdmittedCapacity

/-- Note that an annotated request has started. -/
def recordStart (requestId : RequestId) : SchedulingController :=
  match controller.metadata.get? requestId with
  | none => controller
  | some metadata =>
    { controller.touchAgent (some metadata) fun metadata => some metadata.importance with
      started := controller.started.insert requestId }

/-- Charge an allocation and update the commitments of its request. -/
def commit (running : Bool) (numEncoderTokens : Nat) (newBlocks : Option KVCacheBlocks)
    (borrowReserved : Bool) : Except EngineError SchedulingController := do
  let blocks := controller.unchargedBlocks manager request running newBlocks
  let usage ← controller.commitUsage request.requestId blocks.length running borrowReserved
  let charged ← chargeUsage usage blocks controller
  let committed :=
    (charged.recordGrowth manager request numEncoderTokens).updateAvailable manager
  return committed.recordStart request.requestId

/-- Remember that a request was passed over. -/
def defer (request : Request) : SchedulingController :=
  controller.touchAgent (controller.metadata.get? request.requestId) fun _ => none

/-- Withdraw the commitments of a request. -/
def withdraw (requestId : RequestId) : SchedulingController :=
  { controller with
    admitted := controller.admitted.erase requestId
    growthCommitments := controller.growthCommitments.erase requestId
    prefillLimits := controller.prefillLimits.erase requestId
    prefillGrowth := controller.prefillGrowth.erase requestId
    reclaimBeneficiaries := controller.reclaimBeneficiaries.erase requestId }

/-- Account for a preemption after the blocks were freed. -/
def preempt (physical : Bool) : SchedulingController :=
  let released := (controller.withdraw request.requestId).release manager
  let recorded :=
    if physical then
      { released with
        retryCapacity := released.retryCapacity.set request.requestId
          (released.uncommittedBlocks manager, released.completionEpoch) }
    else released
  recorded.touchAgent (recorded.metadata.get? request.requestId) fun _ => none

/-- Account for the end of a request. -/
def finish (request : Request) : SchedulingController :=
  let id := request.requestId
  let metadata := controller.metadata.get? id
  let wasAdmitted := decide (id ∈ controller.admitted)
  let wasStarted := decide (id ∈ controller.started)
  let withdrawn := controller.withdraw id
  let finished :=
    { withdrawn with
      retryCapacity := withdrawn.retryCapacity.erase id
      completionEpoch :=
        if wasAdmitted then withdrawn.completionEpoch + 1 else withdrawn.completionEpoch
      metadata := withdrawn.metadata.erase id
      started := withdrawn.started.erase id
      scores := withdrawn.scores.erase id
      agentScores := withdrawn.agentScores.erase id }
  if wasStarted then
    finished.touchAgent metadata fun metadata => some metadata.importance
  else finished

end SchedulingController

end TokenCake
