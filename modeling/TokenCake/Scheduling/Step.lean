import Mathlib.Data.List.TakeWhile
import TokenCake.Library.Machine
import TokenCake.Request.Queue
import TokenCake.Scheduling.Controller

/-!
# Beginning a step, ordering candidates and choosing victims

At the start of a scheduling step the controller refreshes commitments, scores
and the plan.  Within the step it orders the annotated candidates and chooses
which running request to preempt.

The decisions of a step change capacity books, never the annotations of requests.
-/

namespace TokenCake

open List KVCacheManager

/-- Whether scheduling is paused from outside. -/
inductive PauseState where
  | unpaused
  | pausedNew
  | pausedAll
deriving DecidableEq, Repr

/-- What a scheduling step learns from outside: scores that depend on clocks and
statistics, and the answers of connectors and of the grammar backend. -/
structure StepEnvironment where
  pauseState : PauseState := .unpaused
  /-- `request_score` of an annotated request. -/
  agentScore : RequestId → Int
  /-- `AgentHistory.score` of an agent type. -/
  historyScore : Text → ℚ
  /-- Whether the offloading connector holds stores it has not published.  It has evaluated the
  pending ones with the scores of the capacity policy. -/
  hasUnpublished : Option SchedulingController → Bool
  /-- Answer of the KV connector to the numbered lookup: external tokens, or
  `none` if undecided, and whether they are loaded asynchronously. -/
  matchedTokens : Nat → RequestId → Nat → Option Nat × Bool
  /-- Whether the grammar of a request is compiled. -/
  grammarReady : RequestId → Bool
  /-- Recompute estimate of the offloading connector, after some preemptions. -/
  recomputeCost : Nat → RequestId → Int
  /-- Whether the encoder cache connector holds an input. -/
  hasCacheItem : Text → Bool

/-- Connectors that hold nothing and scores that are all equal. -/
def StepEnvironment.quiet : StepEnvironment where
  agentScore := fun _ => 0
  historyScore := fun _ => 0
  hasUnpublished := fun _ => false
  matchedTokens := fun _ _ _ => (some 0, false)
  grammarReady := fun _ => false
  recomputeCost := fun _ _ => 0
  hasCacheItem := fun _ => false

/-- The two queues of waiting requests. -/
inductive QueueName where
  | waiting
  | skippedWaiting
deriving DecidableEq, Repr

namespace SchedulingController

variable {M : Type} [KVCacheManager M]

/-- Forget all accounting once no annotated request is left. -/
def deactivate (controller : SchedulingController) : SchedulingController :=
  { controller with
    charges := .empty
    used := .empty
    scores := .empty
    agentScores := .empty
    admitted := .empty
    growthCommitments := .empty
    prefillLimits := .empty
    prefillGrowth := .empty
    reclaimBeneficiaries := []
    retryCapacity := .empty
    accountingActive := false }

variable (controller : SchedulingController) (manager : M) (policy : SchedulingPolicy)
  (lt : RequestId → RequestId → Bool) (environment : StepEnvironment)

/-- Compute the promised growth of all admitted requests again. -/
def refreshCommitments (requests running : List Request) : SchedulingController :=
  let adopted := running.foldl (fun controller request =>
      { controller with
        admitted :=
          if request.requestId ∈ controller.admitted then controller.admitted
          else controller.admitted.set request.requestId 0
        prefillLimits :=
          if request.requestId ∈ controller.prefillLimits then controller.prefillLimits
          else controller.prefillLimits.set request.requestId request.numTokens })
    controller
  let live := requests.filter fun request => decide (request.requestId ∈ adopted.admitted)
  { adopted with
    growthCommitments := live.foldl (fun growth request =>
        growth.set request.requestId (adopted.remainingGrowth manager request false)) .empty
    prefillGrowth :=
      if adopted.progressReservation || adopted.reclaimReservation then
        live.foldl (fun growth request =>
            growth.set request.requestId (adopted.remainingGrowth manager request true)) .empty
      else adopted.prefillGrowth }

/-- The join group of an annotated request, if it belongs to one. -/
def joinGroup (controller : SchedulingController) (requestId : RequestId) : Option (ℚ × Text) :=
  match controller.metadata.get? requestId with
  | none => none
  | some member =>
    if member.applicationStartedAtS > 0 ∧ member.joinGroup ≠ 0 then
      some (member.applicationStartedAtS, member.joinGroup)
    else none

/-- Freeze the scores of the step; members of a join group share the highest. -/
def freezeScores (requests : List Request) : SchedulingController :=
  let annotated :=
    (requests.map Request.requestId).filter fun id => decide (id ∈ controller.metadata)
  let agentScores := Dict.tabulate annotated environment.agentScore
  let inherited := fun id =>
    match controller.joinGroup id with
    | none => environment.agentScore id
    | some group =>
      ((annotated.filter fun other => decide (controller.joinGroup other = some group)).map
        environment.agentScore).foldl max (environment.agentScore id)
  { controller with
    agentScores := agentScores
    scores :=
      if controller.settings.inheritJoinPriority then Dict.tabulate annotated inherited
      else agentScores }

/-- Adopt allocations made before annotated work joined the engine. -/
def adoptCharges (requests : List Request) : SchedulingController :=
  if controller.accountingActive then controller
  else
    { controller with
      charges := requests.foldl (fun charges request =>
          (blockIds manager request.requestId).foldl (fun charges block =>
              if block ∈ charges then charges else charges.set block none) charges)
        controller.charges
      accountingActive := true }

/-- The agent type of an annotated request, unless it is empty. -/
def agentType (controller : SchedulingController) (requestId : RequestId) : Option Text :=
  match controller.metadata.get? requestId with
  | none => none
  | some metadata => if metadata.agentType = 0 then none else some metadata.agentType

/-- Record the best waiting score of every agent type. -/
def recordWaitingScores (waiting : List Request) : SchedulingController :=
  { controller with
    waitingScores := waiting.foldl (fun scores request =>
        match controller.agentType request.requestId with
        | none => scores
        | some agentType =>
          let score := controller.scores.getD request.requestId 0
          scores.set agentType (max (scores.getD agentType score) score))
      .empty }

/-- Make a new plan from the importance of the waiting agents. -/
def revisePlan (requests : List Request) : SchedulingController :=
  let importance := requests.foldl (fun importance request =>
      match controller.metadata.get? request.requestId with
      | none => importance
      | some metadata =>
        if metadata.agentType = 0 then importance
        else
          importance.set metadata.agentType
            (max (importance.getD metadata.agentType 0) metadata.importance))
    controller.history
  let used := requests.foldl (fun (used : Dict Text Int) request =>
      match controller.agentType request.requestId with
      | none => used
      | some agentType =>
        used.set agentType (used.getD agentType 0 + (blockIds manager request.requestId).length))
    .empty
  let scores := Dict.tabulate importance.keys fun key => max 1 (environment.historyScore key)
  let settings := controller.settings
  let adjusted :=
    if usage manager ≥ settings.gpuUsageHigh then
      controller.reserveRatio + settings.reserveAdjustmentStep
    else if usage manager ≤ settings.gpuUsageLow then
      controller.reserveRatio - settings.reserveAdjustmentStep
    else controller.reserveRatio
  let reserveRatio := min settings.reserveRatioMax (max settings.reserveRatioMin adjusted)
  { controller with
    reserveRatio := reserveRatio
    plan := partitionCapacity scores importance used ((numBlocks manager : Int) - 1)
      reserveRatio settings.criticalRatio }

/-- Begin a step.  The answer says whether the policy takes part in it. -/
def beginStep (waiting running : List Request) : Bool × SchedulingController :=
  let cleared := { controller with reservationDeferred := [], waitingScores := .empty }
  if cleared.metadata.entries.isEmpty then (false, cleared.deactivate)
  else
    let requests := waiting ++ running
    let refreshed := cleared.refreshCommitments manager requests running
    let scored := refreshed.freezeScores environment requests
    let counted := { scored with step := scored.step + 1 }
    let adopted := counted.adoptCharges manager requests
    let waitingScored := adopted.recordWaitingScores waiting
    let planned :=
      if waitingScored.plan.scores.entries.isEmpty
          || decide (waitingScored.step % adjustmentWindow = 0) then
        waitingScored.revisePlan manager environment requests
      else waitingScored
    let critical :=
      { planned with
        waitingCritical := planned.plan.critical.filter fun key =>
          decide (key ∈ planned.waitingScores) }
    (true, critical.release manager)

/-- Order of annotated candidates: score, own score, then the native order. -/
def orderKey (controller : SchedulingController) (request : Request) : List ℚ :=
  let score := controller.scores.getD request.requestId 0
  [-(score : ℚ), -(controller.agentScores.getD request.requestId score : ℚ),
    (request.priority : ℚ), request.arrivalTime, (request.requestId : ℚ)]

/-- How much of its demand a request shares with blocks in use. -/
def activePrefixAffinity (request : Request) : List ℚ :=
  if request.numComputedTokens ≠ 0 || request.skipReadingPrefixCache
      || request.hasEncoderInputs then [0, 0]
  else
    let (blocks, computed) :=
      findLongestCacheHit manager request.blockHashes (request.numTokens - 1)
    let shared :=
      (blocks.blockIds.filter fun block => decide (refCnt manager block > 0)).length
    let demand := controller.admissionDemand manager request computed blocks 0
    if shared = 0 ∨ (shared : Int) < demand then [0, 0]
    else [(shared : ℚ) / max 1 ((shared : ℚ) + demand), (shared : ℚ)]

/-- Cut a list into runs whose scores stay within a band below their first. -/
def bandGroups (score : α → Int) (band : Nat) : Nat → List α → List (List α)
  | 0, _ => []
  | _ + 1, [] => []
  | fuel + 1, first :: rest =>
    let group := rest.takeWhile fun other => decide (score other ≥ score first - band)
    (first :: group) :: bandGroups score band fuel (rest.drop group.length)

theorem bandGroups_flatten (score : α → Int) (band : Nat) {fuel : Nat} {items : List α}
    (enough : items.length ≤ fuel) : (bandGroups score band fuel items).flatten = items := by
  induction fuel generalizing items with
  | zero =>
    cases items with
    | nil => rfl
    | cons first rest => simp at enough
  | succ fuel ih =>
    cases items with
    | nil => rfl
    | cons first rest =>
      simp only [bandGroups, flatten_cons, cons_append]
      rw [ih]
      · rw [prefix_iff_eq_append.mp ( takeWhile_prefix _)]
      · simp only [length_drop, length_cons] at enough ⊢
        omega

/-- Order the candidates of a step; within a score band, requests of a higher affinity go
first. -/
def orderCandidatesBy (affinity : Request → List ℚ) (requestOf : RequestId → Request)
    (candidates : List (RequestId × QueueName)) : List (RequestId × QueueName) :=
  let ordered := sortByKey (fun item => controller.orderKey (requestOf item.1)) candidates
  let band := controller.settings.cacheAffinityScoreBand
  let capacity : ℚ := (numBlocks manager : ℚ) - 1
  if band = 0 || !enableCaching manager
      || decide ((controller.uncommittedBlocks manager : ℚ) >
        capacity * (1 - controller.settings.gpuUsageHigh)) then ordered
  else
    ((bandGroups (fun item => controller.scores.getD item.1 0) band ordered.length
      ordered).map fun group =>
        sortByKeyDescending (fun item => affinity (requestOf item.1)) group).flatten

/-- Order the candidates of a step; within a score band, requests that share
their prefix with running work go first. -/
def orderCandidates (requestOf : RequestId → Request)
    (candidates : List (RequestId × QueueName)) : List (RequestId × QueueName) :=
  controller.orderCandidatesBy manager (controller.activePrefixAffinity manager) requestOf
    candidates

theorem orderCandidatesBy_perm (affinity : Request → List ℚ)
    (requestOf : RequestId → Request) (candidates : List (RequestId × QueueName)) :
    (controller.orderCandidatesBy manager affinity requestOf candidates).Perm candidates := by
  unfold orderCandidatesBy
  dsimp only
  have ordered := sortByKey_perm (fun item : RequestId × QueueName =>
    controller.orderKey (requestOf item.1)) candidates
  split
  · exact ordered
  · refine Perm.trans ?_ ordered
    rw [← flatMap_def]
    refine (Perm.flatMap_left _ fun group _ => sortByKeyDescending_perm _ group).trans ?_
    rw [flatMap_id', bandGroups_flatten _ _ le_rfl]

theorem orderCandidates_perm
    (requestOf : RequestId → Request) (candidates : List (RequestId × QueueName)) :
    (controller.orderCandidates manager requestOf candidates).Perm candidates :=
  controller.orderCandidatesBy_perm manager _ requestOf candidates

/-- Merge two queues by the order of requests; ties go to the first queue. -/
def mergeQueues (lt : RequestId → RequestId → Bool) :
    Nat → List (RequestId × QueueName) → List (RequestId × QueueName) → List (RequestId × QueueName)
  | 0, lefts, rights => lefts ++ rights
  | _ + 1, [], rights => rights
  | _ + 1, lefts, [] => lefts
  | fuel + 1, left :: lefts, right :: rights =>
    if lt right.1 left.1 then right :: mergeQueues lt fuel (left :: lefts) rights
    else left :: mergeQueues lt fuel lefts (right :: rights)

theorem mergeQueues_perm (fuel : Nat) (lefts rights : List (RequestId × QueueName)) :
    (mergeQueues lt fuel lefts rights).Perm (lefts ++ rights) := by
  induction fuel generalizing lefts rights with
  | zero => exact Perm.refl _
  | succ fuel ih =>
    cases lefts with
    | nil => exact Perm.refl _
    | cons left lefts =>
      cases rights with
      | nil => simp [mergeQueues]
      | cons right rights =>
        simp only [mergeQueues]
        split
        · exact ((ih ..).cons right).trans perm_middle.symm
        · exact (ih ..).cons left

/-- The order in which the scheduler would examine candidates without the capacity policy. -/
def nativeOrder (waiting skipped : RequestQueue) : List (RequestId × QueueName) :=
  let skippedItems :=
    (RequestQueue.iterate policy lt skipped).map fun id => (id, QueueName.skippedWaiting)
  let waitingItems :=
    (RequestQueue.iterate policy lt waiting).map fun id => (id, QueueName.waiting)
  match policy with
  | .fcfs => skippedItems ++ waitingItems
  | .priority =>
    mergeQueues lt (skippedItems.length + waitingItems.length) skippedItems waitingItems

variable (waiting : RequestQueue) (skipped : RequestQueue)

theorem nativeOrder_perm :
    (nativeOrder policy lt waiting skipped).Perm
      (waiting.map (·, QueueName.waiting) ++ skipped.map (·, QueueName.skippedWaiting)) := by
  have skippedPerm := (RequestQueue.iterate_perm policy lt skipped).map
    (·, QueueName.skippedWaiting)
  have waitingPerm := (RequestQueue.iterate_perm policy lt waiting).map (·, QueueName.waiting)
  have both := (skippedPerm.append waitingPerm).trans perm_append_comm
  cases policy with
  | fcfs => exact both
  | priority => exact (mergeQueues_perm lt ..).trans both

/-- The candidates before the first ordinary request in the native order. -/
def annotatedPrefix (waiting skipped : RequestQueue) : List (RequestId × QueueName) :=
  (nativeOrder policy lt waiting skipped).takeWhile fun item =>
    decide (item.1 ∈ controller.metadata)

/-- The annotated prefix consists of queued requests; it has all of them if all are
annotated. -/
theorem annotatedPrefix_perm :
    ∃ others, (controller.annotatedPrefix policy lt waiting skipped ++ others).Perm
        (waiting.map (·, QueueName.waiting) ++ skipped.map (·, QueueName.skippedWaiting)) ∧
      ((∀ id ∈ waiting ++ skipped, id ∈ controller.metadata) → others = []) := by
  have perm := nativeOrder_perm policy lt waiting skipped
  refine ⟨(nativeOrder policy lt waiting skipped).dropWhile fun item =>
    decide (item.1 ∈ controller.metadata), ?_, ?_⟩
  · unfold annotatedPrefix
    rw [takeWhile_append_dropWhile]
    exact perm
  · intro annotated
    rw [dropWhile_eq_nil_iff]
    intro item mem
    refine decide_eq_true (annotated item.1 ?_)
    have queued := perm.mem_iff.mp mem
    simp only [mem_append, mem_map] at queued ⊢
    rcases queued with ⟨id, queued, rfl⟩ | ⟨id, queued, rfl⟩
    · exact Or.inl queued
    · exact Or.inr queued

/-- Blocks that only the request itself refers to. -/
def releasedBlocks (manager : M) (requestId : RequestId) : Nat :=
  ((blockIds manager requestId).filter fun block => decide (refCnt manager block = 1)).length

/-- Cost of preempting a request; a request close to its end is kept. -/
def victimCost (computed : Int) (request : Request) : List ℚ :=
  let released := releasedBlocks manager request.requestId
  let nearFinish := (request.numOutputTokens : ℚ) ≥ 9 / 10 * (request.maxTokens : ℚ)
  [if nearFinish then 1 else 0, (computed : ℚ) / max 1 (released : ℚ), (computed : ℚ),
    -(released : ℚ), (controller.scores.getD request.requestId 0 : ℚ),
    -(request.priority : ℚ), -request.arrivalTime, (request.requestId : ℚ)]

/-- Blocks that are missing for the next tokens of a running request. -/
def missingBlocks (request : Request) (numNewTokens : Int) (numLookaheadTokens : Nat) : Int :=
  let mainTokens := request.numComputedTokens + numNewTokens
  let needed :=
    getNumBlocksToAllocate manager
      { requestId := request.requestId
        numTokens := min (mainTokens + numLookaheadTokens) (maxModelLen manager)
        newComputedBlocks := emptyKvCacheBlocks manager
        totalComputedTokens := request.numComputedTokens
        numTokensMainModel := mainTokens } - getNumFreeBlocks manager
  if controller.reclaimReservation then max needed (-(controller.uncommittedBlocks manager))
  else needed

/-- Make a request that reclaims blocks a beneficiary of the commitments. -/
def becomeBeneficiary (request : Request) : SchedulingController :=
  if controller.reclaimReservation
      && !decide (request.requestId ∈ controller.reclaimBeneficiaries) then
    { controller with
      reclaimBeneficiaries :=
        controller.reclaimBeneficiaries ++ [request.requestId] }.updateAvailable manager
  else controller

/-- Choose the running request to preempt for an annotated request.  Ordinary
requests leave the choice to the native policy. -/
def victim (computedTokens : Request → Int) (request : Request) (running : List Request)
    (numNewTokens : Int) (numLookaheadTokens : Nat) :
    Except EngineError (Option RequestId × SchedulingController) :=
  let controller := controller.becomeBeneficiary manager request
  if request.requestId ∉ controller.metadata then .ok (none, controller)
  else
    let score := fun request : Request => controller.scores.getD request.requestId 0
    let scored := running.filter fun request =>
      decide (request.requestId ∈ controller.scores)
    match (scored.map score).min? with
    | none => .error .valueError
    | some lowest =>
      let candidates := scored.filter fun request =>
        decide (score request ≤ lowest + preemptionScoreBand)
      let needed := controller.missingBlocks manager request numNewTokens numLookaheadTokens
      let released := fun other : Request => (releasedBlocks manager other.requestId : Int)
      let sufficient := candidates.filter fun other =>
        !decide (other.requestId = request.requestId) && decide (released other ≥ needed)
      let positive := candidates.filter fun other => decide (released other > 0)
      let remaining :=
        if !sufficient.isEmpty then sufficient
        else if !positive.isEmpty then positive
        else candidates
      match firstMin (fun other => controller.victimCost manager (computedTokens other) other)
          remaining with
      | none => .error .valueError
      | some chosen => .ok (some chosen.requestId, controller)

end SchedulingController

namespace SchedulingController

variable {M : Type} [KVCacheManager M]
  (controller : SchedulingController) {request : Request} {new : SchedulingController}
  {manager : M} {failure : EngineError} {computedTokens : Request → Int} {numNewTokens : Int}
  {numLookaheadTokens : Nat} {running : List Request} {borrowReserved : Bool}

@[simp] theorem metadata_touchAgent
    (metadata : Option TokenCakeMetadata) (importance : TokenCakeMetadata → Option ℚ) :
    (controller.touchAgent metadata importance).metadata = controller.metadata := by
  obtain ⟨history, touched⟩ := controller.touchAgent_eq metadata importance
  rw [touched]

@[simp] theorem metadata_release (controller : SchedulingController) (manager : M) :
    (controller.release manager).metadata = controller.metadata := by
  unfold release
  split <;> rfl

@[simp] theorem metadata_defer (controller : SchedulingController) (request : Request) :
    (controller.defer request).metadata = controller.metadata :=
  metadata_touchAgent _ _ _

@[simp] theorem metadata_releaseSkipped (manager : M) (id : RequestId) (computed : Int) :
    (controller.releaseSkipped manager id computed).1.metadata = controller.metadata := by
  unfold releaseSkipped
  dsimp only
  split
  · exact metadata_release ..
  · rfl

variable {usage : List (Option Text × Int)} {newBlocks : Option KVCacheBlocks}
  {numEncoderTokens : Nat} (id : RequestId) {blocks : List BlockId}

@[simp] theorem metadata_judgeDemand (demand available : Int) (borrowReserved : Bool) :
    (controller.judgeDemand id demand available borrowReserved).2.metadata =
      controller.metadata := by
  unfold judgeDemand
  split
  · rfl
  · split
    · rfl
    · split
      · rfl
      · split <;> rfl

theorem metadata_canAllocate {controller : SchedulingController}
    (answer : controller.canAllocate manager request arguments borrowReserved =
      (allowed, new, newManager)) : new.metadata = controller.metadata := by
  unfold canAllocate at answer
  split at answer
  · cases answer
    rfl
  · have same := congrArg (fun result => result.2.1.metadata) answer
    rw [← same]
    simp

theorem metadata_chargeUsage {controller : SchedulingController}
    (charge : chargeUsage usage blocks controller = .ok new) :
    new.metadata = controller.metadata := by
  induction usage generalizing blocks controller with
  | nil =>
    cases charge
    rfl
  | cons entry rest ih =>
    obtain ⟨owner, count⟩ := entry
    cases owner with
    | none =>
      have books := ih charge
      exact books
    | some key =>
      simp only [chargeUsage] at charge
      split at charge
      · have books := ih charge
        exact books
      · cases charge

@[simp] theorem metadata_recordStart :
    (controller.recordStart id).metadata = controller.metadata := by
  unfold recordStart
  split
  · rfl
  · exact metadata_touchAgent ..

theorem metadata_commit {controller : SchedulingController} {running : Bool}
    (commit : controller.commit manager request running numEncoderTokens newBlocks
      borrowReserved = .ok new) : new.metadata = controller.metadata := by
  obtain ⟨usage, _, commit⟩ := bind_eq_ok.mp commit
  obtain ⟨charged, charge, commit⟩ := bind_eq_ok.mp commit
  cases commit
  rw [metadata_recordStart]
  have books := metadata_chargeUsage charge
  exact books

@[simp] theorem metadata_becomeBeneficiary (manager : M) (request : Request) :
    (controller.becomeBeneficiary manager request).metadata = controller.metadata := by
  unfold becomeBeneficiary
  split <;> rfl

theorem metadata_victim {controller : SchedulingController}
    (choice : controller.victim manager computedTokens request running numNewTokens
      numLookaheadTokens = .ok (chosen, new)) : new.metadata = controller.metadata := by
  unfold victim at choice
  dsimp only at choice
  split at choice
  · cases choice
    exact metadata_becomeBeneficiary ..
  · split at choice
    · cases choice
    · split at choice
      · cases choice
      · cases choice
        exact metadata_becomeBeneficiary ..

@[simp] theorem metadata_preempt (manager : M) (request : Request) (physical : Bool) :
    (controller.preempt manager request physical).metadata = controller.metadata := by
  unfold preempt
  rw [metadata_touchAgent]
  split
  · exact metadata_release ..
  · exact metadata_release ..

/-- The end of a request ends its annotation. -/
@[simp] theorem metadata_finish (controller : SchedulingController) (request : Request) :
    (controller.finish request).metadata = controller.metadata.erase request.requestId := by
  unfold finish
  dsimp only
  split
  · exact metadata_touchAgent ..
  · rfl

theorem metadata_refreshCommitments (manager : M) (requests running : List Request) :
    (controller.refreshCommitments manager requests running).metadata = controller.metadata := by
  unfold refreshCommitments
  induction running generalizing controller with
  | nil => rfl
  | cons request running ih =>
    rw [foldl_cons]
    exact ih _

theorem metadata_adoptCharges (manager : M) (requests : List Request) :
    (controller.adoptCharges manager requests).metadata = controller.metadata := by
  unfold adoptCharges
  split <;> rfl

/-- The beginning of a step keeps the annotations. -/
theorem metadata_beginStep
    (manager : M) (environment : StepEnvironment) (waiting running : List Request) :
    (controller.beginStep manager environment waiting running).2.metadata =
      controller.metadata := by
  have refreshed := metadata_refreshCommitments
    { controller with reservationDeferred := [], waitingScores := .empty } manager
    (waiting ++ running) running
  unfold beginStep
  dsimp only
  split
  · rfl
  · rw [metadata_release]
    split
    · exact (metadata_adoptCharges _ manager _).trans refreshed
    · exact (metadata_adoptCharges _ manager _).trans refreshed

variable {controller}

/-- Charging fails only if a reservation is missing. -/
theorem chargeUsage_eq_error (failed : chargeUsage usage blocks controller = .error failure) :
    failure = .keyError := by
  induction usage generalizing blocks controller with
  | nil => cases failed
  | cons entry rest ih =>
    obtain ⟨owner, count⟩ := entry
    cases owner with
    | none => exact ih failed
    | some key =>
      unfold chargeUsage at failed
      dsimp only at failed
      split at failed
      · exact ih failed
      · cases failed
        rfl

/-- A commit fails if a reservation is missing or if the blocks of a request that
was not admitted before exceed what it may use. -/
theorem commit_eq_error {running : Bool}
    (failed : controller.commit manager request running numEncoderTokens newBlocks
      borrowReserved = .error failure) :
    failure = .keyError ∨ failure = .nativeAllocationExceededAdmittedCapacity ∧ running = false ∧
        request.requestId ∉ controller.admitted ∧ controller.consumption request.requestId
          (controller.unchargedBlocks manager request running newBlocks).length
          borrowReserved = none := by
  rcases bind_eq_error.mp failed with stuck | ⟨usage, _, failed⟩
  · unfold commitUsage at stuck
    split at stuck
    · cases stuck
    · next exceeds =>
      split at stuck
      · cases stuck
      · next refused =>
        cases stuck
        simp only [Bool.or_eq_true, decide_eq_true_eq, not_or, Bool.not_eq_true] at refused
        exact Or.inr ⟨rfl, refused.1, refused.2, exceeds⟩
  · rcases bind_eq_error.mp failed with stuck | ⟨charged, _, failed⟩
    · exact Or.inl (chargeUsage_eq_error stuck)
    · cases failed

theorem canGrow_eq_error
    (failed : controller.canGrow manager request numNewTokens = .error failure) :
    failure = .valueError := by
  unfold canGrow at failed
  dsimp only at failed
  split at failed
  · cases failed
  · split at failed
    · cases failed
    · split at failed
      · split at failed
        · cases failed
          rfl
        · cases failed
      · split at failed
        · cases failed
          rfl
        · cases failed

theorem victim_eq_error
    (failed : controller.victim manager computedTokens request running numNewTokens
      numLookaheadTokens = .error failure) : failure = .valueError := by
  unfold victim at failed
  dsimp only at failed
  split at failed
  · cases failed
  · split at failed
    · cases failed
      rfl
    · split at failed
      · cases failed
        rfl
      · cases failed

theorem victim_mem {victim : RequestId}
    (chosen : controller.victim manager computedTokens request running numNewTokens
      numLookaheadTokens = .ok (some victim, new)) :
    ∃ other ∈ running, other.requestId = victim := by
  unfold SchedulingController.victim at chosen
  dsimp only at chosen
  split at chosen
  · cases chosen
  · split at chosen
    · cases chosen
    · split at chosen
      · cases chosen
      · next other cheapest =>
        cases chosen
        refine ⟨other, ?_, rfl⟩
        have mem := firstMin_mem cheapest
        split at mem
        · exact mem_of_mem_filter (mem_of_mem_filter (mem_of_mem_filter mem))
        · split at mem
          · exact mem_of_mem_filter (mem_of_mem_filter (mem_of_mem_filter mem))
          · exact mem_of_mem_filter (mem_of_mem_filter mem)

end SchedulingController

end TokenCake
