import TokenCake.Scheduler.Schedule

/-!
# Moves of the loop over running requests

Every transition of the loop is one of finitely many moves.  Each move is described
by the answers of the managers it relies on and by the step it leads to, so that an
invariant of a call is proved move by move.  The first section has the ways in which a
waiting request is found schedulable or not, and the updates of a step.
-/

namespace TokenCake

open KVCacheManager

variable {M E : Type} [KVCacheManager M]

namespace Scheduler

/-- The scheduler after the load of a request ended. -/
def loadEnded (scheduler : Scheduler M E) (requestId : RequestId) (manager : M)
    (controller : Option SchedulingController) (numComputedTokens : Int) : Scheduler M E :=
  { scheduler.modifyRequest requestId fun request =>
      { request with
        numComputedTokens := numComputedTokens
        status := if request.numPreemptions ≠ 0 then .preempted else .waiting } with
    kvCacheManager := manager
    tokencakeScheduling := controller
    failedRecvingKvReqIds := scheduler.failedRecvingKvReqIds.erase requestId
    finishedRecvingKvReqIds := scheduler.finishedRecvingKvReqIds.erase requestId }

omit [KVCacheManager M] in
theorem requestOf_loadEnded_self (scheduler : Scheduler M E) (id : RequestId) (manager : M)
    (controller : Option SchedulingController) (numComputedTokens : Int) :
    (scheduler.loadEnded id manager controller numComputedTokens).requestOf id =
      { scheduler.requestOf id with
        numComputedTokens := numComputedTokens
        status := if (scheduler.requestOf id).numPreemptions ≠ 0 then .preempted else .waiting } :=
  if_pos rfl

variable {id : RequestId} {env : StepEnvironment} {scheduler settled : Scheduler M E} {ready : Bool}

omit [KVCacheManager M] in
theorem requestOf_loadEnded_of_ne (scheduler : Scheduler M E) (manager : M)
    (controller : Option SchedulingController) (numComputed : Int) (different : other ≠ id) :
    (scheduler.loadEnded id manager controller numComputed).requestOf other =
      scheduler.requestOf other :=
  if_neg different

/-- The ways in which a waiting request is found schedulable or not. -/
inductive Settled (environment : StepEnvironment) (scheduler : Scheduler M E)
    (requestId : RequestId) : Bool → Scheduler M E → Prop where
  | unblocked (status : isBlockedWaitingStatus (scheduler.requestOf requestId).status = false) :
      Settled environment scheduler requestId true scheduler
  | blocked (status : isBlockedWaitingStatus (scheduler.requestOf requestId).status = true) :
      Settled environment scheduler requestId false scheduler
  | grammar (status : (scheduler.requestOf requestId).status = .waitingForStructuredOutputGrammar) :
      Settled environment scheduler requestId true
        (scheduler.modifyRequest requestId fun request => { request with status := .waiting })
  | loadFailed (status : (scheduler.requestOf requestId).status = .waitingForRemoteKvs)
      (finished : requestId ∈ scheduler.finishedRecvingKvReqIds)
      (failed : requestId ∈ scheduler.failedRecvingKvReqIds)
      (nothing : (scheduler.requestOf requestId).numComputedTokens = 0) :
      Settled environment scheduler requestId true
        (scheduler.loadEnded requestId (free scheduler.kvCacheManager requestId)
          (scheduler.tokencakeScheduling.map fun controller =>
            controller.release (free scheduler.kvCacheManager requestId))
          (scheduler.requestOf requestId).numComputedTokens)
  | loaded (status : (scheduler.requestOf requestId).status = .waitingForRemoteKvs)
      (finished : requestId ∈ scheduler.finishedRecvingKvReqIds) (manager : M)
      (cached : cacheBlocks scheduler.kvCacheManager (scheduler.requestOf requestId)
        (scheduler.requestOf requestId).numComputedTokens = .ok manager)
      (numComputedTokens : Int)
      (computed :
        numComputedTokens = (scheduler.requestOf requestId).numComputedTokens ∨
          (scheduler.requestOf requestId).numComputedTokens =
              (scheduler.requestOf requestId).numTokens ∧
            numComputedTokens = (scheduler.requestOf requestId).numComputedTokens - 1) :
      Settled environment scheduler requestId true
        (scheduler.loadEnded requestId manager scheduler.tokencakeScheduling numComputedTokens)

theorem settled_of_updateWaitingForRemoteKv
    (status : (scheduler.requestOf id).status = .waitingForRemoteKvs)
    (finished : id ∈ scheduler.finishedRecvingKvReqIds)
    (update : scheduler.updateWaitingForRemoteKv id = .ok updated) :
    Settled env scheduler id true (updated.modifyRequest id fun request =>
        { request with
          status := if request.numPreemptions ≠ 0 then .preempted else .waiting }) := by
  obtain ⟨_, _, update⟩ := bind_eq_ok.mp update
  dsimp only at update
  split at update
  · next failure =>
    cases update
    exact .loadFailed status finished failure.1 failure.2
  · obtain ⟨manager, cached, update⟩ := bind_eq_ok.mp update
    rw [liftResource_eq_ok] at cached
    split at update
    · next full =>
      cases update
      rw [modifyRequest_modifyRequest]
      refine .loaded status finished manager cached
        ((scheduler.requestOf id).numTokens - 1) (Or.inr ⟨full.2, ?_⟩)
      rw [full.2]
    · cases update
      exact .loaded status finished manager cached _ (Or.inl rfl)

theorem settled_of_settle (settle : scheduler.settle env id = .ok (ready, settled)) :
    Settled env scheduler id ready settled := by
  unfold Scheduler.settle at settle
  split at settle
  · next blocked =>
    unfold tryPromoteBlockedWaitingRequest at settle
    dsimp only at settle
    split at settle
    · next status =>
      split at settle
      · cases settle
        exact .blocked blocked
      · next finished =>
        obtain ⟨updated, update, settle⟩ := bind_eq_ok.mp settle
        cases settle
        exact settled_of_updateWaitingForRemoteKv status (not_not.mp finished) update
    · next status =>
      split at settle
      · cases settle
        exact .grammar status
      · cases settle
        exact .blocked blocked
    · obtain ⟨_, _, settle⟩ := bind_eq_ok.mp settle
      cases settle
      exact .blocked blocked
    · cases settle
  · next unblocked =>
    cases settle
    exact .unblocked (by simpa using unblocked)

/-- Settling a request touches neither the queues nor the encoder cache. -/
theorem Settled.shape (settles : Settled env scheduler id ready settled) :
    ∃ heap manager controller failed finished, settled = { scheduler with
        requestHeap := heap
        kvCacheManager := manager
        tokencakeScheduling := controller
        failedRecvingKvReqIds := failed
        finishedRecvingKvReqIds := finished } := by
  cases settles with
  | unblocked _ | blocked _ | grammar _ | loadFailed _ _ _ _ | loaded _ _ _ _ _ _ =>
    exact ⟨_, _, _, _, _, rfl⟩

theorem Settled.queue_eq (settles : Settled env scheduler id ready settled)
    (name : QueueName) : settled.queue name = scheduler.queue name := by
  obtain ⟨_, _, _, _, _, rfl⟩ := settles.shape
  rfl

end Scheduler

namespace Step

/-- Replace everything the managers own. -/
def withResources (step : Step M E) (manager : M) (controller : Option SchedulingController)
    (encoder : E) : Step M E :=
  { step with
    scheduler :=
      { step.scheduler with
        kvCacheManager := manager
        tokencakeScheduling := controller
        encoderCacheManager := encoder } }

/-- Count lookups in the connector. -/
def withCalls (step : Step M E) (calls : Nat) : Step M E :=
  { step with connectorCalls := calls }

/-- Replace the scheduler. -/
def withScheduler (step : Step M E) (scheduler : Scheduler M E) : Step M E :=
  { step with scheduler := scheduler }

/-- The step with another state of a queue. -/
def withQueue (step : Step M E) (name : QueueName) (queue : RequestQueue) : Step M E :=
  step.withScheduler (step.scheduler.setQueue name queue)

variable [EncoderCache E]

/-- The state of the managers after skipped blocks of a running request were
released. -/
def Prepares (step : Step M E) (requestId : RequestId) (manager : M)
    (controller : Option SchedulingController) : Prop :=
  (step.tokencake = none ∧ manager = step.scheduler.kvCacheManager ∧
      controller = step.scheduler.tokencakeScheduling) ∨
    ∃ old new, step.tokencake = some old ∧ controller = some new ∧
      old.prepareRunning step.scheduler.kvCacheManager (step.request requestId) = (new, manager)

/-- The capacity policy after it charged an allocation. -/
def Commits (step : Step M E) (manager : M) (requestId : RequestId) (running : Bool)
    (numEncoderTokens : Nat) (newBlocks : Option KVCacheBlocks) (borrowReserved : Bool)
    (controller : Option SchedulingController) : Prop :=
  (step.tokencake = none ∧ controller = step.scheduler.tokencakeScheduling) ∨
    ∃ old new, step.tokencake = some old ∧ controller = some new ∧
      old.commit manager (step.request requestId) running numEncoderTokens newBlocks
        borrowReserved = .ok new

/-- The capacity policy after it named a victim or left the choice to the native
policy. -/
def Names (environment : StepEnvironment) (step : Step M E) (manager : M) (probe : RunningProbe)
    (victim : Option RequestId) (controller : Option SchedulingController) : Prop :=
  (step.setManager manager).agentVictim environment probe =
    .ok (victim, step.withResources manager controller step.scheduler.encoderCacheManager)

/-- The moves of the loop over running requests. -/
inductive RunningMove (environment : StepEnvironment) (step : Step M E) : Step M E → Prop where
  | leave (phase : step.phase = .running) :
      RunningMove environment step (step.goto .afterRunning)
  | skipFinished (phase : step.phase = .running) (requestId : RequestId)
      (current : step.scheduler.running[step.reqIndex]? = some requestId) :
      RunningMove environment step step.nextRunning
  | skipProbed (phase : step.phase = .running) (requestId : RequestId)
      (current : step.scheduler.running[step.reqIndex]? = some requestId) (probe : RunningProbe)
      (encoder : E) (probed : step.probeRunning environment requestId = .ok (probe, encoder)) :
      RunningMove environment step (step.setEncoder encoder).nextRunning
  | prepare (phase : step.phase = .running) (requestId : RequestId)
      (current : step.scheduler.running[step.reqIndex]? = some requestId)
      (budget : 0 < step.tokenBudget) (probe : RunningProbe) (encoder : E)
      (probed : step.probeRunning environment requestId = .ok (probe, encoder))
      (nonzero : probe.numNewTokens ≠ 0) (manager : M) (controller : Option SchedulingController)
      (prepared : step.Prepares requestId manager controller) :
      RunningMove environment step
        ((step.withResources manager controller encoder).goto (.growing probe))
  | denyGrowth (probe : RunningProbe) (phase : step.phase = .growing probe) :
      RunningMove environment step step.nextRunning
  | allowGrowth (probe : RunningProbe) (phase : step.phase = .growing probe)
      (allowed : ∀ controller, step.tokencake = some controller →
        controller.canGrow step.scheduler.kvCacheManager (step.request probe.requestId)
          probe.numNewTokens = .ok true) :
      RunningMove environment step (step.goto (.allocating probe))
  | schedule (probe : RunningProbe) (phase : step.phase = .allocating probe)
      (newBlocks : KVCacheBlocks) (manager : M)
      (allocated : allocateSlots step.scheduler.kvCacheManager (step.request probe.requestId)
        { numNewTokens := probe.numNewTokens
          numLookaheadTokens := step.scheduler.config.numLookaheadTokens } =
        .ok (some newBlocks, manager))
      (controller : Option SchedulingController)
      (committed : step.Commits manager probe.requestId true 0 (some newBlocks) false controller)
      (encoder : E)
      (referred :
        referToInputs step.scheduler.encoderCacheManager
          { step.request probe.requestId with specTokenIds := [] }
          (probe.encoderInputsToSchedule ++ probe.externalLoadEncoderInput) = .ok encoder) :
      RunningMove environment step
        ((((step.withResources manager controller encoder).recordRunning probe
          newBlocks).scheduleSpecTokens probe.requestId
            probe.numNewTokens).recordEncoderInputs probe.requestId
              probe.encoderInputsToSchedule probe.newEncoderComputeBudget).nextRunning
  | preempt (probe : RunningProbe) (phase : step.phase = .allocating probe) (manager : M)
      (allocated : allocateSlots step.scheduler.kvCacheManager (step.request probe.requestId)
        { numNewTokens := probe.numNewTokens
          numLookaheadTokens := step.scheduler.config.numLookaheadTokens } =
        .ok (none, manager))
      (agentVictim : Option RequestId)
      (controller : Option SchedulingController)
      (named : step.Names environment manager probe agentVictim controller)
      (victim : RequestId)
      (chosen : (step.setManager manager).nextVictim environment probe = some victim)
      (status : (step.request victim).status = .running)
      (running : List RequestId)
      (removed : step.scheduler.running.Perm (victim :: running))
      (reqIndex : Nat)
      (position : reqIndex ≤ step.reqIndex ∧ step.reqIndex ≤ reqIndex + 1)
      (unscheduled : victim ∉ step.scheduledRunningReqs ∨
        agentVictim = none ∧ step.scheduler.config.policy = .fcfs ∧
          step.scheduler.running = running ++ [victim]) :
      RunningMove environment step (((step.withResources manager controller
          step.scheduler.encoderCacheManager).setRunning running reqIndex).afterPreemption
            probe victim)
  | preemptScheduled (probe : RunningProbe) (phase : step.phase = .allocating probe) (manager : M)
      (allocated : allocateSlots step.scheduler.kvCacheManager (step.request probe.requestId)
        { numNewTokens := probe.numNewTokens
          numLookaheadTokens := step.scheduler.config.numLookaheadTokens } =
        .ok (none, manager))
      (agentVictim : Option RequestId)
      (controller : Option SchedulingController)
      (named : step.Names environment manager probe agentVictim controller)
      (victim : RequestId)
      (chosen : (step.setManager manager).nextVictim environment probe = some victim)
      (status : (step.request victim).status = .running)
      (running : List RequestId)
      (removed : step.scheduler.running.Perm (victim :: running))
      (scheduled : victim ∈ step.scheduledRunningReqs)
      (numTokens : Int)
      (tokens : step.numScheduledTokens.get? victim = some numTokens)
      (embeds : Nat)
      (newEncoderComputeBudget : Int) :
      RunningMove environment step ((((step.withResources manager controller
          step.scheduler.encoderCacheManager).setRunning running step.reqIndex).withdrawn
            victim numTokens embeds).afterPreemption
              { probe with newEncoderComputeBudget := newEncoderComputeBudget } victim)
  | enterWaiting (phase : step.phase = .afterRunning) (nonePreempted : step.preemptedReqs = [])
      (scheduledLoras : List Int) :
      RunningMove environment step
        { step with
          scheduledLoras := scheduledLoras
          cacheAgentOrder :=
            step.tokencake.isSome && step.scheduler.config.maxLoras.isNone
              && (step.scheduler.waiting ++ step.scheduler.skippedWaiting).all step.isAnnotated
          phase := .waiting }
  | skipWaiting (phase : step.phase = .afterRunning) (scheduledLoras : List Int) :
      RunningMove environment step
        { step with scheduledLoras := scheduledLoras, phase := .done }

omit [EncoderCache E] in
theorem prepareRunning_eq (step : Step M E) (id : RequestId) :
    ∃ manager controller, step.Prepares id manager controller ∧ step.prepareRunning id =
        step.withResources manager controller step.scheduler.encoderCacheManager := by
  unfold prepareRunning
  split
  · next inactive => exact ⟨_, _, .inl ⟨inactive, rfl, rfl⟩, rfl⟩
  · next controller active => exact ⟨_, _, .inr ⟨controller, _, active, rfl, rfl⟩, rfl⟩

variable {step next : Step M E} {probe : RunningProbe} {env : StepEnvironment} {victim : RequestId}

theorem runningMove_of_runningTransition (phase : step.phase = .running)
    (moved : step.runningTransition env = .ok next) : RunningMove env step next := by
  unfold runningTransition at moved
  split at moved
  · cases moved
    exact .leave phase
  · next id current =>
    split at moved
    · cases moved
      exact .leave phase
    · next budget =>
      split at moved
      · cases moved
        exact .skipFinished phase id current
      · obtain ⟨⟨probe, encoder⟩, probed, moved⟩ := bind_eq_ok.mp moved
        rw [liftResource_eq_ok] at probed
        dsimp only at moved
        split at moved
        · cases moved
          exact .skipProbed phase id current probe encoder probed
        · next nonzero =>
          obtain ⟨manager, controller, prepared, shape⟩ :=
            (step.setEncoder encoder).prepareRunning_eq id
          cases moved
          rw [shape]
          exact .prepare phase id current (by omega) probe encoder probed nonzero
            manager controller prepared

theorem runningMove_of_growingTransition (phase : step.phase = .growing probe)
    (moved : step.growingTransition probe = .ok next) : RunningMove env step next := by
  unfold growingTransition at moved
  split at moved
  · next inactive =>
    cases moved
    refine .allowGrowth probe phase fun controller active => ?_
    cases inactive.symm.trans active
  · next controller active =>
    obtain ⟨allowed, decision, moved⟩ := bind_eq_ok.mp moved
    cases allowed with
    | false =>
      cases moved
      exact .denyGrowth probe phase
    | true =>
      cases moved
      refine .allowGrowth probe phase fun other same => ?_
      cases active.symm.trans same
      exact decision

variable {removedProbe : RunningProbe} {removedStep : Step M E} {id : RequestId} {byAgent : Bool}

omit [KVCacheManager M] in
theorem allocateEncoderInputs_eq_ok
    (allocated : step.allocateEncoderInputs id inputs external budget = .ok next) :
    ∃ encoder, referToInputs step.scheduler.encoderCacheManager (step.request id)
        (inputs ++ external) = .ok encoder ∧
      next = (step.setEncoder encoder).recordEncoderInputs id inputs budget := by
  obtain ⟨encoder, referred, allocated⟩ := bind_eq_ok.mp allocated
  cases allocated
  exact ⟨encoder, referred, rfl⟩

omit [EncoderCache E] in
theorem commitRunning_eq_ok (committed : step.commitRunning id newBlocks = .ok next) :
    ∃ controller, step.Commits step.scheduler.kvCacheManager id true 0 (some newBlocks) false
        controller ∧ next = step.withResources step.scheduler.kvCacheManager controller
        step.scheduler.encoderCacheManager := by
  unfold commitRunning at committed
  split at committed
  · next inactive =>
    cases committed
    exact ⟨_, .inl ⟨inactive, rfl⟩, rfl⟩
  · next controller active =>
    obtain ⟨new, commit, committed⟩ := bind_eq_ok.mp committed
    cases committed
    exact ⟨_, .inr ⟨controller, new, active, rfl, commit⟩, rfl⟩

omit [KVCacheManager M] [EncoderCache E] in
theorem request_scheduleSpecTokens (step : Step M E) (id : RequestId) (numNewTokens : Int) :
    (step.scheduleSpecTokens id numNewTokens).request id =
      { step.request id with specTokenIds := [] } := by
  simp [request, scheduleSpecTokens]

theorem runningMove_of_scheduleRunning
    {env : StepEnvironment} {next : Step M E} {newBlocks : KVCacheBlocks} {manager : M}
    (phase : step.phase = .allocating probe)
    (allocated : allocateSlots step.scheduler.kvCacheManager (step.request probe.requestId)
      { numNewTokens := probe.numNewTokens
        numLookaheadTokens := step.scheduler.config.numLookaheadTokens } =
      .ok (some newBlocks, manager))
    (moved : (step.setManager manager).scheduleRunning probe newBlocks = .ok next) :
    RunningMove env step next := by
  obtain ⟨committedStep, commit, moved⟩ := bind_eq_ok.mp moved
  obtain ⟨controller, committed, rfl⟩ := commitRunning_eq_ok commit
  obtain ⟨allocatedStep, allocation, moved⟩ := bind_eq_ok.mp moved
  rw [liftResource_eq_ok] at allocation
  obtain ⟨encoder, referred, rfl⟩ := allocateEncoderInputs_eq_ok allocation
  cases moved
  refine .schedule probe phase newBlocks manager allocated controller committed encoder ?_
  rw [← referred, request_scheduleSpecTokens]
  rfl

omit [KVCacheManager M] [EncoderCache E] in
theorem withdrawScheduled_eq_ok (withdraw :
      step.withdrawScheduled probe victim byAgent = .ok (withdrawnProbe, withdrawnStep)) :
    ∃ numTokens embeds budget, step.numScheduledTokens.get? victim = some numTokens ∧
      withdrawnProbe = { probe with newEncoderComputeBudget := budget } ∧
      withdrawnStep = step.withdrawn victim numTokens embeds := by
  unfold withdrawScheduled at withdraw
  split at withdraw
  · next numTokens _ tokens _ =>
    obtain ⟨embeds, _, withdraw⟩ := bind_eq_ok.mp withdraw
    cases withdraw
    exact ⟨numTokens, embeds, _, tokens, rfl, rfl⟩
  · cases withdraw

/-- What taking a victim out of the running list leaves behind. -/
inductive Removed (step : Step M E) (probe : RunningProbe) (victim : RequestId)
    (fromEnd : Prop) : RunningProbe → Step M E → Prop where
  | unscheduled (running : List RequestId)
      (removed : step.scheduler.running.Perm (victim :: running)) (reqIndex : Nat)
      (position : reqIndex ≤ step.reqIndex ∧ step.reqIndex ≤ reqIndex + 1)
      (unscheduled : victim ∉ step.scheduledRunningReqs ∨
        fromEnd ∧ step.scheduler.running = running ++ [victim]) :
      Removed step probe victim fromEnd probe (step.setRunning running reqIndex)
  | scheduled (running : List RequestId) (removed : step.scheduler.running.Perm (victim :: running))
      (scheduled : victim ∈ step.scheduledRunningReqs) (numTokens : Int)
      (tokens : step.numScheduledTokens.get? victim = some numTokens) (embeds : Nat)
      (newEncoderComputeBudget : Int) :
      Removed step probe victim fromEnd
        { probe with newEncoderComputeBudget := newEncoderComputeBudget }
        ((step.setRunning running step.reqIndex).withdrawn victim numTokens embeds)

section

omit [KVCacheManager M] [EncoderCache E]

theorem removed_of_removeVictim
    (removal : step.removeVictim probe victim byAgent = .ok (removedProbe, removedStep)) :
    Removed step probe victim fromEnd removedProbe removedStep := by
  unfold removeVictim at removal
  dsimp only at removal
  split at removal
  · cases removal
  · next mem =>
    have removed := List.perm_cons_erase (not_not.mp mem)
    split at removal
    · next scheduled =>
      obtain ⟨numTokens, embeds, budget, tokens, rfl, rfl⟩ := withdrawScheduled_eq_ok removal
      exact .scheduled _ removed scheduled numTokens tokens embeds budget
    · next unscheduled =>
      split at removal
      · cases removal
        exact .unscheduled _ removed _ (by omega) (.inl unscheduled)
      · cases removal
        exact .unscheduled _ removed _ (by omega) (.inl unscheduled)

theorem removed_of_takeVictim {agentVictim : Option RequestId}
    (take : step.takeVictim probe agentVictim = .ok (victim, removedProbe, removedStep)) :
    (agentVictim = some victim ∨ agentVictim = none ∧ nativeVictim step.scheduler = some victim) ∧
      Removed step probe victim (agentVictim = none ∧ step.scheduler.config.policy = .fcfs)
        removedProbe removedStep := by
  unfold takeVictim at take
  split at take
  · next named _ =>
    obtain ⟨⟨_, _⟩, removal, take⟩ := bind_eq_ok.mp take
    cases take
    exact ⟨.inl rfl, removed_of_removeVictim removal⟩
  · next policy =>
    split at take
    · cases take
    · next lowest =>
      obtain ⟨⟨_, _⟩, removal, take⟩ := bind_eq_ok.mp take
      cases take
      refine ⟨.inr ⟨rfl, ?_⟩, removed_of_removeVictim removal⟩
      unfold nativeVictim
      rw [policy]
      exact lowest
  · next policy =>
    split at take
    · cases take
    · next last =>
      cases take
      have split := List.dropLast_append_getLast? _ (Option.mem_def.mpr last)
      refine ⟨.inr ⟨rfl, ?_⟩, .unscheduled _ ?_ _ (by omega) (.inr ⟨⟨rfl, policy⟩, split.symm⟩)⟩
      · unfold nativeVictim
        rw [policy]
        exact last
      · nth_rewrite 1 [← split]
        exact List.perm_append_singleton ..

end

omit [EncoderCache E] in
theorem agentVictim_eq_ok {named : Step M E} {victim : Option RequestId}
    (naming : step.agentVictim env probe = .ok (victim, named)) :
    ∃ controller, named = step.withResources step.scheduler.kvCacheManager controller
        step.scheduler.encoderCacheManager := by
  unfold agentVictim at naming
  split at naming
  · cases naming
    exact ⟨_, rfl⟩
  · obtain ⟨⟨_, _⟩, _, naming⟩ := bind_eq_ok.mp naming
    cases naming
    exact ⟨_, rfl⟩

theorem runningMove_of_preemptFor {env : StepEnvironment} {next : Step M E} {manager : M}
    (phase : step.phase = .allocating probe)
    (allocated : allocateSlots step.scheduler.kvCacheManager (step.request probe.requestId)
      { numNewTokens := probe.numNewTokens
        numLookaheadTokens := step.scheduler.config.numLookaheadTokens } =
      .ok (none, manager))
    (moved : (step.setManager manager).preemptFor env probe = .ok next) :
    RunningMove env step next := by
  obtain ⟨⟨agentVictim, namedStep⟩, naming, moved⟩ := bind_eq_ok.mp moved
  obtain ⟨controller, rfl⟩ := agentVictim_eq_ok naming
  obtain ⟨⟨victim, removedProbe, removedStep⟩, take, moved⟩ := bind_eq_ok.mp moved
  obtain ⟨_, status, moved⟩ := bind_eq_ok.mp moved
  cases moved
  obtain ⟨choice, removal⟩ := removed_of_takeVictim take
  have chosen : (step.setManager manager).nextVictim env probe = some victim := by
    unfold nextVictim
    rw [naming]
    rcases choice with rfl | ⟨rfl, native⟩
    · rfl
    · exact native
  have running : (removedStep.request victim).status = .running := by simpa using status
  cases removal with
  | unscheduled remaining removed reqIndex position unscheduled =>
    exact .preempt probe phase manager allocated agentVictim controller naming victim chosen
      running remaining removed reqIndex position
      (unscheduled.imp_right fun last => ⟨last.1.1, last.1.2, last.2⟩)
  | scheduled remaining removed scheduled numTokens tokens embeds budget =>
    exact .preemptScheduled probe phase manager allocated agentVictim controller naming victim
      chosen running remaining removed scheduled numTokens tokens embeds budget

theorem runningMove_of_allocatingTransition (phase : step.phase = .allocating probe)
    (moved : step.allocatingTransition env probe = .ok next) : RunningMove env step next := by
  obtain ⟨⟨newBlocks, manager⟩, allocated, moved⟩ := bind_eq_ok.mp moved
  rw [liftResource_eq_ok] at allocated
  cases newBlocks with
  | some newBlocks => exact runningMove_of_scheduleRunning phase allocated moved
  | none => exact runningMove_of_preemptFor phase allocated moved

theorem runningMove_of_afterRunningTransition (phase : step.phase = .afterRunning)
    (moved : step.afterRunningTransition env = .ok next) : RunningMove env step next := by
  obtain ⟨_, _, moved⟩ := bind_eq_ok.mp moved
  dsimp only at moved
  split at moved
  · next condition =>
    cases moved
    exact .enterWaiting phase (by simpa using condition.1) _
  · cases moved
    exact .skipWaiting phase _

end Step

end TokenCake
