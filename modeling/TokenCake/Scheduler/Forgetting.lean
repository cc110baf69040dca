import TokenCake.Library.Agrees
import TokenCake.Scheduler.Output
import TokenCake.Scheduler.Schedule

/-!
# Steps without the capacity policy

In a step in which the capacity policy takes no part, a scheduler does what the scheduler
without a policy does.  The books of the policy may change, but no decision reads them.
Outside of `schedule` the policy only keeps books.
-/

namespace TokenCake

open KVCacheManager Step

variable {M E : Type} [KVCacheManager M] [EncoderCache E]

/-- The scheduler without the capacity policy. -/
def Scheduler.forget (scheduler : Scheduler M E) : Scheduler M E :=
  { scheduler with tokencakeScheduling := none }

/-- A scheduler and the same one without the capacity policy. -/
abbrev Scheduler.Forgets (scheduler plain : Scheduler M E) : Prop :=
  plain = scheduler.forget

namespace Step

/-- The step without the capacity policy. -/
def forget (step : Step M E) : Step M E :=
  { step with scheduler := step.scheduler.forget }

/-- A step in which the capacity policy takes no part, and the same step without a policy. -/
structure Forgets (step plain : Step M E) : Prop where
  inactive : step.tokencakeActive = false
  plain_eq : plain = step.forget

section

omit [KVCacheManager M] [EncoderCache E]

theorem tokencake_forget (step : Step M E) : step.forget.tokencake = none := by
  exact ite_self _

theorem isLimitedPrefill_forget (step : Step M E) (id : RequestId)
    (numNewTokens : Int) : step.forget.isLimitedPrefill id numNewTokens = false := by
  unfold isLimitedPrefill isAnnotated
  rw [tokencake_forget]
  rfl

end

theorem agrees_liftResource (agrees : Agrees relation left right) :
    Agrees relation (liftResource left) (liftResource right) := by
  cases agrees with
  | ok related => exact .ok related
  | error failure => exact .error _

variable {step : Step M E} (env : StepEnvironment) (inactive : step.tokencakeActive = false)

section Running

include inactive

section

omit [KVCacheManager M] [EncoderCache E]

theorem tokencake_of_inactive : step.tokencake = none := by
  unfold tokencake
  rw [inactive]
  rfl

theorem isLimitedPrefill_of_inactive (id : RequestId) (numNewTokens : Int) :
    step.isLimitedPrefill id numNewTokens = false := by
  unfold isLimitedPrefill isAnnotated
  rw [tokencake_of_inactive inactive]
  rfl

end

omit [KVCacheManager M] in
theorem probeRunning_forget (id : RequestId) :
    step.forget.probeRunning env id = step.probeRunning env id := by
  unfold probeRunning runningTokens
  simp only [isLimitedPrefill_of_inactive inactive, isLimitedPrefill_forget]
  rfl

theorem agrees_runningTransition :
    Agrees Forgets (step.runningTransition env) (step.forget.runningTransition env) := by
  have same : step.forget.scheduler.running[step.forget.reqIndex]? =
    step.scheduler.running[step.reqIndex]? := rfl
  unfold runningTransition
  rw [same]
  cases step.scheduler.running[step.reqIndex]? with
  | none => exact .ok ⟨inactive, rfl⟩
  | some id =>
    refine .ite (fun _ => .ok ⟨inactive, rfl⟩) fun _ => .ite (fun _ => .ok ⟨inactive, rfl⟩)
      fun _ => ?_
    rw [probeRunning_forget env inactive]
    refine .bind_self _ fun probed => ?_
    refine .ite (fun _ => .ok ⟨inactive, rfl⟩) fun _ => .ok ?_
    have quiet : (step.setEncoder probed.2).tokencake = none := tokencake_of_inactive inactive
    have plainQuiet : (step.forget.setEncoder probed.2).tokencake = none :=
      tokencake_forget (step.setEncoder probed.2)
    unfold prepareRunning
    rw [quiet, plainQuiet]
    exact ⟨inactive, rfl⟩

omit [EncoderCache E] in
theorem agrees_commitRunning (id : RequestId) (newBlocks : KVCacheBlocks) :
    Agrees Forgets (step.commitRunning id newBlocks) (step.forget.commitRunning id newBlocks) := by
  unfold commitRunning
  rw [tokencake_of_inactive inactive, tokencake_forget]
  exact .ok ⟨inactive, rfl⟩

omit [KVCacheManager M] in
theorem agrees_allocateEncoderInputs
    (id : RequestId) (toSchedule toLoad : List Nat) (budget : Int) :
    Agrees Forgets (step.allocateEncoderInputs id toSchedule toLoad budget)
      (step.forget.allocateEncoderInputs id toSchedule toLoad budget) := by
  exact .bind_self _ fun encoder => .ok ⟨inactive, rfl⟩

theorem agrees_scheduleRunning (probe : RunningProbe) (newBlocks : KVCacheBlocks) :
    Agrees Forgets (step.scheduleRunning probe newBlocks)
      (step.forget.scheduleRunning probe newBlocks) := by
  refine (agrees_commitRunning inactive probe.requestId newBlocks).bind ?_
  rintro committed _ ⟨inactive, rfl⟩
  have drafted : ((committed.recordRunning probe newBlocks).scheduleSpecTokens probe.requestId
      probe.numNewTokens).tokencakeActive = false := inactive
  refine .bind (agrees_liftResource (agrees_allocateEncoderInputs drafted ..)) ?_
  rintro allocated _ ⟨stays, rfl⟩
  exact .ok ⟨stays, rfl⟩

/-- Two results of taking a victim. -/
abbrev ForgetsProbe (left right : RunningProbe × Step M E) : Prop :=
  left.1 = right.1 ∧ left.2.Forgets right.2

section

variable (probe : RunningProbe)

section

omit [KVCacheManager M] [EncoderCache E]

theorem agrees_withdrawScheduled (victim : RequestId) (byAgent : Bool) :
    Agrees ForgetsProbe (step.withdrawScheduled probe victim byAgent)
      (step.forget.withdrawScheduled probe victim byAgent) := by
  have same : step.forget.numScheduledTokens = step.numScheduledTokens ∧
    step.forget.reqToNewBlocks = step.reqToNewBlocks := ⟨rfl, rfl⟩
  unfold withdrawScheduled
  rw [same.1, same.2]
  cases step.numScheduledTokens.get? victim with
  | none => exact .error _
  | some numTokens =>
    cases step.reqToNewBlocks.get? victim with
    | none => exact .error _
    | some blocks => exact .bind_self _ fun embeds => .ok ⟨rfl, inactive, rfl⟩

theorem agrees_removeVictim (victim : RequestId) (byAgent : Bool) :
    Agrees ForgetsProbe (step.removeVictim probe victim byAgent)
      (step.forget.removeVictim probe victim byAgent) := by
  have kept : (step.setRunning (step.scheduler.running.erase victim)
      step.reqIndex).tokencakeActive = false := inactive
  exact .ite (fun _ => .error _) fun _ =>
    .ite (fun _ => agrees_withdrawScheduled kept ..) fun _ =>
      .ite (fun _ => .ok ⟨rfl, inactive, rfl⟩) fun _ => .ok ⟨rfl, inactive, rfl⟩

theorem agrees_takeVictim (agentVictim : Option RequestId) :
    Agrees (fun left right => left.1 = right.1 ∧ ForgetsProbe left.2 right.2)
      (step.takeVictim probe agentVictim) (step.forget.takeVictim probe agentVictim) := by
  unfold takeVictim
  cases agentVictim with
  | some victim =>
    refine (agrees_removeVictim inactive probe victim true).bind ?_
    exact fun removed other related => .ok ⟨rfl, related⟩
  | none =>
    have policy : step.forget.scheduler.config.policy = step.scheduler.config.policy := rfl
    rw [policy]
    cases step.scheduler.config.policy with
    | priority =>
      have lowest : lowestPriority step.forget.scheduler = lowestPriority step.scheduler := rfl
      rw [lowest]
      cases lowestPriority step.scheduler with
      | none => exact .error _
      | some victim =>
        refine (agrees_removeVictim inactive probe victim false).bind ?_
        exact fun removed other related => .ok ⟨rfl, related⟩
    | fcfs =>
      have running : step.forget.scheduler.running = step.scheduler.running := rfl
      rw [running]
      cases step.scheduler.running.getLast? with
      | none => exact .error _
      | some victim => exact .ok ⟨rfl, rfl, inactive, rfl⟩

end

theorem agrees_preemptFor :
    Agrees Forgets (step.preemptFor env probe) (step.forget.preemptFor env probe) := by
  unfold preemptFor agentVictim
  rw [tokencake_of_inactive inactive, tokencake_forget]
  refine (agrees_takeVictim inactive probe none).bind ?_
  rintro ⟨victim, found, removed⟩ ⟨_, _, _⟩ ⟨rfl, rfl, stays, rfl⟩
  exact .bind_self _ fun _ => .ok ⟨stays, rfl⟩

theorem agrees_allocatingTransition :
    Agrees Forgets (step.allocatingTransition env probe)
      (step.forget.allocatingTransition env probe) := by
  refine .bind_self (liftResource (allocateSlots step.scheduler.kvCacheManager
    (step.request probe.requestId)
      { numNewTokens := probe.numNewTokens
        numLookaheadTokens := step.scheduler.config.numLookaheadTokens })) ?_
  rintro ⟨newBlocks, manager⟩
  have kept : (step.setManager manager).tokencakeActive = false := inactive
  cases newBlocks with
  | some newBlocks => exact agrees_scheduleRunning kept probe newBlocks
  | none => exact agrees_preemptFor env kept probe

end

omit [KVCacheManager M] [EncoderCache E] in
theorem agrees_afterRunningTransition :
    Agrees Forgets (step.afterRunningTransition env) (step.forget.afterRunningTransition env) := by
  refine .bind_self _ fun _ => .ite (fun _ => ?_) fun _ => .ok ⟨inactive, rfl⟩
  rw [tokencake_of_inactive inactive, tokencake_forget]
  exact .ok ⟨inactive, rfl⟩

end Running

variable (name : QueueName)

section Waiting

omit [EncoderCache E] in
theorem agrees_updateWaitingForRemoteKv (scheduler : Scheduler M E) (id : RequestId) :
    Agrees Scheduler.Forgets (scheduler.updateWaitingForRemoteKv id)
      (scheduler.forget.updateWaitingForRemoteKv id) := by
  refine .bind_self _ fun _ => .ite (fun _ => .ok rfl) fun _ => .bind_self _ fun manager => ?_
  exact .ite (fun _ => .ok rfl) fun _ => .ok rfl

/-- Two results of an attempt to make a request schedulable. -/
abbrev ForgetsSettled (left right : Bool × Scheduler M E) : Prop :=
  left.1 = right.1 ∧ left.2.Forgets right.2

omit [EncoderCache E] in
theorem agrees_settle (scheduler : Scheduler M E) (id : RequestId) :
    Agrees ForgetsSettled (scheduler.settle env id) (scheduler.forget.settle env id) := by
  refine .ite (fun _ => ?_) fun _ => .ok ⟨rfl, rfl⟩
  unfold Scheduler.tryPromoteBlockedWaitingRequest
  have status : (scheduler.forget.requestOf id).status = (scheduler.requestOf id).status := rfl
  dsimp only
  rw [status]
  cases (scheduler.requestOf id).status with
  | waitingForRemoteKvs =>
    refine .ite (fun _ => .ok ⟨rfl, rfl⟩) fun _ => ?_
    refine (agrees_updateWaitingForRemoteKv scheduler id).bind ?_
    rintro updated _ rfl
    exact .ok ⟨rfl, rfl⟩
  | waitingForStructuredOutputGrammar =>
    exact .ite (fun _ => .ok ⟨rfl, rfl⟩) fun _ => .ok ⟨rfl, rfl⟩
  | waitingForStreamingReq => exact .bind_self _ fun _ => .ok ⟨rfl, rfl⟩
  | waiting | running | preempted => exact .error _
  | finishedStopped | finishedLengthCapped | finishedAborted | finishedIgnored
  | finishedError | finishedRepetition => exact .error _

include inactive

section

omit [KVCacheManager M] [EncoderCache E]

theorem agrees_popFrom : Agrees Forgets (step.popFrom name) (step.forget.popFrom name) := by
  cases name <;> exact .bind_self _ fun popped => .ok ⟨inactive, rfl⟩

theorem agrees_removeFrom (id : RequestId) :
    Agrees Forgets (step.removeFrom name id) (step.forget.removeFrom name id) := by
  cases name <;> exact .bind_self _ fun rest => .ok ⟨inactive, rfl⟩

theorem agrees_takeOut (id : RequestId) :
    Agrees Forgets (step.takeOut name id) (step.forget.takeOut name id) := by
  unfold takeOut
  rw [tokencake_of_inactive inactive, tokencake_forget]
  exact agrees_popFrom inactive name

theorem agrees_setAside (id : RequestId) :
    Agrees Forgets (step.setAside name id) (step.forget.setAside name id) := by
  refine (agrees_takeOut inactive name id).bind ?_
  rintro taken _ ⟨inactive, rfl⟩
  exact .ok ⟨inactive, rfl⟩

theorem agrees_returnDeferred (candidates : List RequestId) :
    Agrees Forgets (returnDeferred candidates step) (returnDeferred candidates step.forget) := by
  induction candidates generalizing step with
  | nil => exact .ok ⟨inactive, rfl⟩
  | cons candidate rest ih => exact .bind_self _ fun skipped => ih inactive

end

section

omit [EncoderCache E]

theorem agrees_visitWaiting :
    Agrees Forgets (step.visitWaiting env name) (step.forget.visitWaiting env name) := by
  have queue : step.forget.scheduler.queue name = step.scheduler.queue name := by
    cases name <;> rfl
  unfold visitWaiting
  rw [queue]
  refine .bind_self _ fun id =>
    (agrees_settle env step.scheduler id).bind ?_
  rintro ⟨ready, scheduler⟩ ⟨_, _⟩ ⟨rfl, rfl⟩
  have settled : { step with scheduler := scheduler }.tokencakeActive = false := inactive
  refine .ite (fun _ => .bind (agrees_popFrom settled name) ?_) fun _ =>
    .ite (fun _ => .bind (agrees_popFrom settled name) ?_) fun _ => ?_
  · rintro popped _ ⟨stays, rfl⟩
    exact .ok ⟨stays, rfl⟩
  · rintro popped _ ⟨stays, rfl⟩
    exact .ok ⟨stays, rfl⟩
  · have none_ : ({ step with scheduler := scheduler } : Step M E).tokencake = none :=
      tokencake_of_inactive inactive
    have plainNone : ({ step.forget with scheduler := scheduler.forget } : Step M E).tokencake =
        none := tokencake_forget { step with scheduler := scheduler }
    rw [none_, plainNone]
    exact .ok ⟨inactive, rfl⟩

theorem agrees_waitingTransition :
    Agrees Forgets (step.waitingTransition env) (step.forget.waitingTransition env) := by
  refine .ite (fun _ => .ok ⟨inactive, rfl⟩) fun _ =>
    .ite (fun _ => (agrees_returnDeferred inactive _).bind ?_) fun _ => ?_
  · rintro returned _ ⟨stays, rfl⟩
    exact .ok ⟨stays, rfl⟩
  · have selected : step.forget.scheduler.selectWaitingQueueForScheduling =
        step.scheduler.selectWaitingQueueForScheduling := rfl
    rw [selected]
    cases step.scheduler.selectWaitingQueueForScheduling with
    | none => exact .error _
    | some name => exact agrees_visitWaiting env inactive name

end

omit [KVCacheManager M] [EncoderCache E] in
theorem keepCandidate_forget (candidate : RequestId × QueueName)
    (pending eligible : List (RequestId × QueueName)) (best : RequestId × QueueName) :
    step.forget.keepCandidate candidate pending eligible best =
      step.keepCandidate candidate pending eligible best := by
  unfold keepCandidate orderKey
  rw [tokencake_of_inactive inactive, tokencake_forget]
  rfl

omit [EncoderCache E] in
theorem agrees_choosingTransition
    (pending eligible : List (RequestId × QueueName)) (best : RequestId × QueueName) :
    Agrees Forgets (step.choosingTransition env pending eligible best)
      (step.forget.choosingTransition env pending eligible best) := by
  cases pending with
  | nil =>
    refine .ite (fun _ => ?_) fun _ => .ok ⟨inactive, rfl⟩
    unfold orderCandidates
    rw [tokencake_of_inactive inactive, tokencake_forget]
    cases eligible with
    | nil => exact .error _
    | cons candidate rest => exact .ok ⟨inactive, rfl⟩
  | cons candidate rest =>
    refine .ite (fun _ => ?_) fun _ =>
      (agrees_settle env step.scheduler candidate.1).bind ?_
    · rw [keepCandidate_forget inactive]
      exact .ok ⟨inactive, rfl⟩
    · rintro ⟨ready, scheduler⟩ ⟨_, _⟩ ⟨rfl, rfl⟩
      have settled : { step with scheduler := scheduler }.tokencakeActive = false := inactive
      refine .ite (fun _ => .bind (agrees_removeFrom settled ..) ?_) fun _ => ?_
      · rintro removed _ ⟨stays, rfl⟩
        exact .ok ⟨stays, rfl⟩
      · exact .ok ⟨inactive, congrArg _ (keepCandidate_forget settled ..)⟩

end Waiting

section Admissions

/-- Two results of the search for the computed tokens of a request. -/
abbrev ForgetsResult (left right : α × Step M E) : Prop :=
  left.1 = right.1 ∧ left.2.Forgets right.2

include inactive

section

omit [EncoderCache E]

theorem agrees_lookupExternal (id : RequestId) (computed : Nat) (blocks : KVCacheBlocks) :
    ForgetsResult (step.lookupExternal env id computed blocks)
      (step.forget.lookupExternal env id computed blocks) := by
  have connector : step.forget.scheduler.config.hasConnector =
      step.scheduler.config.hasConnector := rfl
  unfold lookupExternal defersCacheLookup
  rw [tokencake_of_inactive inactive, tokencake_forget, connector]
  cases step.scheduler.config.hasConnector with
  | false | true => exact ⟨rfl, inactive, rfl⟩

theorem agrees_lookup (id : RequestId) :
    Agrees ForgetsResult (step.lookup env id) (step.forget.lookup env id) := by
  unfold lookup
  refine .ite (fun _ => ?_) fun _ => .ok ⟨rfl, inactive, rfl⟩
  have same : getComputedBlocks step.forget.scheduler.kvCacheManager (step.forget.request id) =
    getComputedBlocks step.scheduler.kvCacheManager (step.request id) := rfl
  rw [same]
  obtain ⟨blocks, computed⟩ := getComputedBlocks step.scheduler.kvCacheManager (step.request id)
  have asked := agrees_lookupExternal env inactive id computed blocks
  dsimp only
  generalize step.lookupExternal env id computed blocks = left at asked ⊢
  generalize step.forget.lookupExternal env id computed blocks = right at asked ⊢
  obtain ⟨external, after⟩ := left
  obtain ⟨_, _⟩ := right
  obtain ⟨rfl, forgets⟩ := asked
  cases external with
  | none => exact .ok ⟨rfl, forgets⟩
  | some external => exact .bind_self _ fun _ => .bind_self _ fun _ => .ok ⟨rfl, forgets⟩

end

variable (probe : WaitingProbe)

theorem agrees_startRunning :
    Agrees Forgets (step.startRunning probe) (step.forget.startRunning probe) := by
  have recorded : step.forget.recordAdmitted probe.requestId =
      step.recordAdmitted probe.requestId := rfl
  unfold startRunning
  rw [recorded]
  refine .bind_self _ fun lists => agrees_liftResource ?_
  have began : (step.started probe lists.1 lists.2).tokencakeActive = false := inactive
  exact agrees_allocateEncoderInputs began ..

theorem agrees_admitRequest :
    Agrees Forgets (step.admitRequest probe) (step.forget.admitRequest probe) := by
  unfold admitRequest commitWaiting
  rw [tokencake_of_inactive inactive, tokencake_forget]
  refine (agrees_takeOut inactive probe.queue probe.requestId).bind ?_
  rintro taken _ ⟨stays, rfl⟩
  exact .ite (fun _ => .ok ⟨stays, rfl⟩) fun _ => agrees_startRunning stays probe

theorem agrees_allocateWaiting :
    Agrees Forgets (step.allocateWaiting probe) (step.forget.allocateWaiting probe) := by
  refine .bind_self (liftResource (allocateSlots step.scheduler.kvCacheManager
    (step.request probe.requestId) (step.admissionArguments probe))) ?_
  rintro ⟨newBlocks, manager⟩
  have kept : (step.setManager manager).tokencakeActive = false := inactive
  cases newBlocks with
  | some newBlocks => exact agrees_admitRequest kept probe
  | none =>
    refine .ok ?_
    have inputs : (step.forget.request probe.requestId).hasEncoderInputs =
        (step.request probe.requestId).hasEncoderInputs := rfl
    rw [inputs]
    cases (step.request probe.requestId).hasEncoderInputs with
    | false | true => exact ⟨inactive, rfl⟩

theorem agrees_admitWithCapacity :
    Agrees Forgets (step.admitWithCapacity probe) (step.forget.admitWithCapacity probe) := by
  unfold Step.admitWithCapacity mayAllocate
  rw [tokencake_of_inactive inactive, tokencake_forget]
  exact agrees_allocateWaiting inactive probe

omit [KVCacheManager M] in
theorem agrees_probeWaiting (id : RequestId) (admission : Admission) (numNewTokens : Int)
    (limitedPrefill : Bool) :
    Agrees ForgetsResult (step.probeWaiting env name id admission numNewTokens limitedPrefill)
      (step.forget.probeWaiting env name id admission numNewTokens limitedPrefill) := by
  refine .bind_self _ fun scan => .ite (fun _ => .ok ⟨rfl, inactive, rfl⟩) fun _ =>
    .bind_self _ fun aligned => .ite (fun _ => .ok ⟨rfl, inactive, rfl⟩) fun _ =>
      .bind_self _ fun encoderTokens => .ok ⟨rfl, inactive, rfl⟩

theorem agrees_admitWithTokens (id : RequestId) (admission : Admission) :
    Agrees Forgets (step.admitWithTokens env name id admission)
      (step.forget.admitWithTokens env name id admission) := by
  have tokens : step.forget.waitingTokens id admission = step.waitingTokens id admission := by
    unfold waitingTokens
    simp only [isLimitedPrefill_of_inactive inactive, isLimitedPrefill_forget]
    rfl
  unfold admitWithTokens
  rw [tokens]
  refine .bind_self _ fun choice => ?_
  cases choice with
  | exit => exact .ok ⟨inactive, rfl⟩
  | setAside => exact agrees_setAside inactive name id
  | tokens numNewTokens limitedPrefill =>
    refine (agrees_liftResource (agrees_probeWaiting env inactive name id
      admission numNewTokens limitedPrefill)).bind ?_
    rintro ⟨probe, scanned⟩ ⟨_, _⟩ ⟨rfl, stays, rfl⟩
    cases probe with
    | none => exact .ok ⟨stays, rfl⟩
    | some probe => exact agrees_admitWithCapacity stays probe

theorem agrees_admittingTransition (id : RequestId) :
    Agrees Forgets (step.admittingTransition env name id)
      (step.forget.admittingTransition env name id) := by
  refine (agrees_lookup env inactive id).bind ?_
  rintro ⟨admission, asked⟩ ⟨_, _⟩ ⟨rfl, inactive, rfl⟩
  cases admission with
  | none => exact agrees_setAside inactive name id
  | some admission => exact agrees_admitWithTokens env inactive name id admission

theorem agrees_transition : Agrees Forgets (step.transition env) (step.forget.transition env) := by
  have phase : step.forget.phase = step.phase := rfl
  unfold Step.transition
  rw [phase]
  cases step.phase with
  | running => exact agrees_runningTransition env inactive
  | growing probe =>
    unfold growingTransition
    rw [tokencake_of_inactive inactive, tokencake_forget]
    exact .ok ⟨inactive, rfl⟩
  | allocating probe => exact agrees_allocatingTransition env inactive probe
  | afterRunning => exact agrees_afterRunningTransition env inactive
  | waiting => exact agrees_waitingTransition env inactive
  | choosing pending eligible best =>
    exact agrees_choosingTransition env inactive pending eligible best
  | admitting id name => exact agrees_admittingTransition env inactive name id
  | done => exact .ok ⟨inactive, rfl⟩

end Admissions

section Calls

section

omit [KVCacheManager M] [EncoderCache E]

theorem agrees_advanceRequests (spec : Dict RequestId (List TokenId))
    (entries : List (RequestId × Int)) (scheduler : Scheduler M E) :
    Agrees Scheduler.Forgets (Scheduler.advanceRequests spec entries scheduler)
      (Scheduler.advanceRequests spec entries scheduler.forget) := by
  induction entries generalizing scheduler with
  | nil => exact .ok rfl
  | cons entry entries ih =>
    exact .ite (fun _ => ih _) fun _ => .error _

theorem agrees_updateAfterSchedule (output : SchedulerOutput) (scheduler : Scheduler M E) :
    Agrees Scheduler.Forgets (scheduler.updateAfterSchedule output)
      (scheduler.forget.updateAfterSchedule output) := by
  refine (agrees_advanceRequests _ _ scheduler).bind ?_
  rintro advanced _ rfl
  exact .ok rfl

end

/-- Two results of a call. -/
abbrev ForgetsOutput (left right : SchedulerOutput × Scheduler M E) : Prop :=
  left.1 = right.1 ∧ left.2.Forgets right.2

omit [KVCacheManager M] in
theorem agrees_conclude (step : Step M E) :
    Agrees ForgetsOutput step.conclude step.forget.conclude := by
  refine .bind_self _ fun _ => .bind_self step.buildOutput fun output => ?_
  refine (agrees_updateAfterSchedule output
    { step.requeueSkipped with
      prevStepScheduledReqIds := step.numScheduledTokens.keys
      encoderCacheManager :=
        (EncoderCache.getFreedMmHashes step.scheduler.encoderCacheManager).2 }).bind ?_
  rintro scheduler _ rfl
  exact .ok ⟨rfl, rfl⟩

end Calls

end Step

namespace Scheduler

/-- Whether the capacity policy knows no annotated request. -/
def Unannotated (scheduler : Scheduler M E) : Prop :=
  ∀ controller, scheduler.tokencakeScheduling = some controller → controller.metadata.entries = []

variable (env : StepEnvironment) {scheduler : Scheduler M E}

omit [EncoderCache E] in
theorem forgets_beginStep (unannotated : scheduler.Unannotated)
    (native : scheduler.config.hasTokencakeConnector = false) :
    (scheduler.beginStep env).Forgets (scheduler.forget.beginStep env) := by
  unfold beginStep
  cases policy : scheduler.tokencakeScheduling with
  | none => exact ⟨rfl, rfl⟩
  | some controller =>
    have empty := unannotated controller policy
    have resting : ∀ (manager : M) (waiting running : List Request),
        ∃ after, controller.beginStep manager env waiting running = (false, after) := by
      intro manager waiting running
      exact ⟨_, if_pos (List.isEmpty_iff.mpr empty)⟩
    dsimp only [Option.map_some]
    obtain ⟨after, rests⟩ := resting (newStepStarts scheduler.kvCacheManager) (scheduler.requestsOf
        (RequestQueue.iterate scheduler.config.policy scheduler.lt scheduler.skippedWaiting ++
          RequestQueue.iterate scheduler.config.policy scheduler.lt scheduler.waiting))
      (scheduler.requestsOf scheduler.running)
    have plain : scheduler.forget.config.hasTokencakeConnector = false := native
    rw [rests, native, plain]
    exact ⟨rfl, rfl⟩

/-- A policy without annotated requests has no part in a call, unless an offloading connector
reads its scores. -/
theorem agrees_schedule (unannotated : scheduler.Unannotated)
    (native : scheduler.config.hasTokencakeConnector = false) :
    Agrees Step.ForgetsOutput (scheduler.schedule env) (scheduler.forget.schedule env) := by
  refine (Agrees.loop ?_ ?_ _ (transitionBound scheduler)
    (forgets_beginStep env unannotated native)).bind ?_
  · rintro step _ ⟨_, rfl⟩
    rfl
  · rintro step _ ⟨inactive, rfl⟩
    exact agrees_transition env inactive
  · rintro step _ ⟨_, rfl⟩
    exact agrees_conclude step

variable (scheduler : Scheduler M E)

section Requests

omit [EncoderCache E] in
theorem agrees_freeBlocks (id : RequestId) :
    Agrees Forgets (scheduler.freeBlocks id) (scheduler.forget.freeBlocks id) :=
  .bind_self _ fun _ => .ite (fun _ => .ok rfl) fun _ => .error _

variable (delays : RequestId → Bool) (scheduler : Scheduler M E)

theorem agrees_freeRequest (id : RequestId) (delayFreeBlocks : Bool) :
    Agrees Forgets (scheduler.freeRequest delays id delayFreeBlocks)
      (scheduler.forget.freeRequest delays id delayFreeBlocks) := by
  refine .bind_self _ fun _ => .ite (fun _ => .ok rfl) fun _ => ?_
  exact agrees_freeBlocks
    { scheduler with
      tokencakeScheduling := scheduler.tokencakeScheduling.map fun controller =>
        controller.finish (scheduler.requestOf id)
      kvCacheManager := scheduler.connectorFinished id
      encoderCacheManager :=
        EncoderCache.free scheduler.encoderCacheManager (scheduler.requestOf id)
      finishedReqIds := scheduler.finishedReqIds.insert id } id

theorem agrees_finishRequest
    (finishedStatus : RequestStatus) (scheduler : Scheduler M E) (id : RequestId) :
    Agrees Forgets (finishRequest delays finishedStatus scheduler id)
      (finishRequest delays finishedStatus scheduler.forget id) := by
  unfold finishRequest
  by_cases loading : (scheduler.requestOf id).status = .waitingForRemoteKvs
  · have plainLoading : (scheduler.forget.requestOf id).status = .waitingForRemoteKvs :=
      loading
    simp only [loading, plainLoading, decide_true, if_true]
    exact agrees_freeRequest delays _ id _
  · have plainLoading : (scheduler.forget.requestOf id).status ≠ .waitingForRemoteKvs :=
      loading
    simp only [loading, plainLoading, decide_false, Bool.false_eq_true, if_false]
    exact agrees_freeRequest delays _ id _

theorem agrees_finishRequests (requestIds : List RequestId) (finishedStatus : RequestStatus) :
    Agrees Forgets (scheduler.finishRequests delays requestIds finishedStatus)
      (scheduler.forget.finishRequests delays requestIds finishedStatus) := by
  refine .bind_self _ fun _ => .foldlM ?_ _ rfl
  rintro state _ id rfl
  exact agrees_finishRequest delays finishedStatus state id

section

omit [KVCacheManager M] [EncoderCache E]

theorem enqueueWaitingRequest_forget (scheduler : Scheduler M E) (id : RequestId) :
    scheduler.forget.enqueueWaitingRequest id = (scheduler.enqueueWaitingRequest id).forget := by
  have status : (scheduler.forget.requestOf id).status = (scheduler.requestOf id).status := rfl
  unfold enqueueWaitingRequest
  rw [status]
  cases isBlockedWaitingStatus (scheduler.requestOf id).status <;> rfl

theorem agrees_updateRequestAsSession (id : RequestId) (update : StreamingUpdate) :
    Agrees Forgets (scheduler.updateRequestAsSession id update)
      (scheduler.forget.updateRequestAsSession id update) :=
  .bind_self ((scheduler.requestOf id).updateAsSession scheduler.config.blockHasher update)
    fun _ => .ok rfl

end

theorem agrees_addToSession (request : Request) :
    Agrees Forgets (scheduler.addToSession delays request)
      (scheduler.forget.addToSession delays request) := by
  refine .ite (fun _ => ?_) fun _ => ?_
  · have same : (scheduler.forget.requestOf request.requestId).streamingQueue =
      (scheduler.requestOf request.requestId).streamingQueue := rfl
    rw [same]
    cases (scheduler.requestOf request.requestId).streamingQueue with
    | none => exact .error _
    | some queue => exact .ok rfl
  · cases StreamingUpdate.fromRequest request with
    | none => exact agrees_finishRequests delays scheduler _ _
    | some update => exact agrees_updateRequestAsSession scheduler request.requestId update

theorem agrees_addRequest (request : Request) :
    Agrees Forgets (scheduler.addRequest delays request)
      (scheduler.forget.addRequest delays request) := by
  refine .ite (fun _ => agrees_addToSession delays (scheduler.associate request) request)
    fun _ => .ok ?_
  have queued := enqueueWaitingRequest_forget
    ((scheduler.associate request).storeRequest request.withSession) request.requestId
  exact congrArg (fun entered : Scheduler M E =>
    { entered with requests := scheduler.requests ++ [request.requestId] }) queued

end Requests

section Outputs

variable (answer : ModelRunnerOutput) (scheduler : Scheduler M E) (id : RequestId)

omit [EncoderCache E] in
theorem agrees_settlePlaceholders (wasRunning : Bool) (numNewTokens : Nat) :
    Agrees Forgets (scheduler.settlePlaceholders id wasRunning numNewTokens)
      (scheduler.forget.settlePlaceholders id wasRunning numNewTokens) :=
  .bind_self _ fun _ => .ite (fun _ => .bind_self _ fun _ => .ok rfl) fun _ => .ok rfl

/-- Two results of taking the output of a request. -/
abbrev ForgetsTaken (left right : List TokenId × Bool × Scheduler M E) : Prop :=
  left.1 = right.1 ∧ left.2.1 = right.2.1 ∧ left.2.2.Forgets right.2.2

omit [EncoderCache E] in
theorem agrees_updateRequestWithOutput (newTokenIds : List TokenId) :
    Agrees ForgetsTaken (scheduler.updateRequestWithOutput id newTokenIds)
      (scheduler.forget.updateRequestWithOutput id newTokenIds) := by
  refine .ite (fun _ => .ok ⟨rfl, rfl, rfl⟩) fun _ => .bind_self _ fun appended => ?_
  refine .ite (fun _ => ?_) fun _ => .ok ⟨rfl, rfl, rfl⟩
  refine (agrees_settlePlaceholders (scheduler.storeRequest appended.2.2) id _ _).bind ?_
  rintro settled _ rfl
  exact .ok ⟨rfl, rfl, rfl⟩

omit [KVCacheManager M] [EncoderCache E] in
theorem agrees_handleStoppedRequest (id : RequestId) :
    Agrees Step.ForgetsSettled (scheduler.handleStoppedRequest id)
      (scheduler.forget.handleStoppedRequest id) := by
  refine .ite (fun _ => .ok ⟨rfl, rfl⟩) fun _ => ?_
  have same : (scheduler.forget.requestOf id).streamingQueue =
    (scheduler.requestOf id).streamingQueue := rfl
  rw [same]
  cases (scheduler.requestOf id).streamingQueue.getD [] with
  | nil =>
    exact .ok ⟨rfl, enqueueWaitingRequest_forget (scheduler.modifyRequest id
      fun request => { request with status := .waitingForStreamingReq }) id⟩
  | cons update rest =>
    cases update with
    | none => exact .ok ⟨rfl, rfl⟩
    | some update =>
      refine (agrees_updateRequestAsSession (scheduler.modifyRequest id fun request =>
        { request with streamingQueue := some rest }) id update).bind ?_
      rintro session _ rfl
      exact .ok ⟨rfl, enqueueWaitingRequest_forget session id⟩

theorem agrees_releaseStopped :
    Agrees Forgets (scheduler.releaseStopped answer id)
      (scheduler.forget.releaseStopped answer id) := by
  refine (agrees_handleStoppedRequest scheduler id).bind ?_
  rintro ⟨finished, handled⟩ ⟨_, _⟩ ⟨rfl, rfl⟩
  exact .ite (fun _ => agrees_freeRequest answer.connectorDelays handled id false) fun _ => .ok rfl

/-- Two states of the loop over the scheduled requests of an answered step. -/
abbrev ForgetsUpdate (left right : OutputUpdate M E) : Prop :=
  right = { left with scheduler := left.scheduler.forget }

omit [KVCacheManager M] [EncoderCache E] in
theorem recordStopped_forget
    (update : OutputUpdate M E) (scheduler : Scheduler M E) (id : RequestId) (wasRunning : Bool) :
    ForgetsUpdate (update.recordStopped scheduler id wasRunning)
      (OutputUpdate.recordStopped { update with scheduler := update.scheduler.forget }
        scheduler.forget id wasRunning) := by
  cases wasRunning <;> rfl

theorem agrees_apply (output : SchedulerOutput) (update : OutputUpdate M E) (id : RequestId) :
    Agrees ForgetsUpdate (update.apply answer output id)
      (OutputUpdate.apply answer output { update with scheduler := update.scheduler.forget }
        id) := by
  let rejected := update.scheduler.modifyRequest id
    (Request.rejectDrafts (output.scheduledSpecDecodeTokens.getD id [])
      (answer.sampledTokenIds id)) (Request.requestId_rejectDrafts _ _)
  let freed :=
    if (rejected.requestOf id).hasEncoderInputs then rejected.freeEncoderInputs id
    else rejected
  have plainFreed : (if (rejected.requestOf id).hasEncoderInputs then
      rejected.forget.freeEncoderInputs id else rejected.forget) = freed.forget := by
    dsimp only [freed]
    split <;> rfl
  have taking : Agrees ForgetsTaken (freed.takeOutput answer id)
      (freed.forget.takeOutput answer id) :=
    .ite (fun _ => agrees_updateRequestWithOutput freed id _) fun _ =>
      .ite (fun _ => .ok ⟨rfl, rfl, rfl⟩) fun _ => .ok ⟨rfl, rfl, rfl⟩
  rw [← plainFreed] at taking
  refine taking.bind ?_
  rintro ⟨newTokenIds, stopped, taken⟩ ⟨_, _, _⟩ ⟨rfl, rfl, rfl⟩
  dsimp only
  have judging : taken.forget.judgeGrammar answer id newTokenIds stopped =
      ((taken.judgeGrammar answer id newTokenIds stopped).1,
        (taken.judgeGrammar answer id newTokenIds stopped).2.forget) := by
    unfold judgeGrammar
    split <;> rfl
  rw [judging]
  generalize taken.judgeGrammar answer id newTokenIds stopped = judged
  refine .ite (fun _ => (agrees_releaseStopped answer judged.2 id).bind ?_) fun _ =>
    .ite (fun _ => .ok rfl) fun _ => .ok rfl
  rintro released _ rfl
  exact .ok (recordStopped_forget update (released.takePrefillStats id) id _)

end Outputs

section Transfers

/-- Two searches for requests with invalid blocks. -/
abbrev ForgetsReport (left right : InvalidBlockReport M E) : Prop :=
  right = { left with scheduler := left.scheduler.forget }

omit [EncoderCache E] in
theorem agrees_updateRequestWithInvalidBlocks
    (invalidBlockIds : List BlockId) (numScheduledTokens : Dict RequestId Int) (evictBlocks : Bool)
    (report : InvalidBlockReport M E) (id : RequestId) :
    Agrees ForgetsReport
      (updateRequestWithInvalidBlocks invalidBlockIds numScheduledTokens evictBlocks report id)
      (updateRequestWithInvalidBlocks invalidBlockIds numScheduledTokens evictBlocks
        { report with scheduler := report.scheduler.forget } id) := by
  have same : getBlocks report.scheduler.forget.kvCacheManager id =
    getBlocks report.scheduler.kvCacheManager id := rfl
  unfold updateRequestWithInvalidBlocks
  dsimp only
  rw [same]
  split
  · exact .ok rfl
  · exact .error _

variable (scheduler : Scheduler M E) (answer : ModelRunnerOutput)

omit [EncoderCache E] in
theorem agrees_updateRequestsWithInvalidBlocks
    (requests : List RequestId) (invalidBlockIds : List BlockId)
    (numScheduledTokens : Dict RequestId Int) (evictBlocks : Bool) :
    Agrees ForgetsReport
      (scheduler.updateRequestsWithInvalidBlocks requests invalidBlockIds numScheduledTokens
        evictBlocks) (scheduler.forget.updateRequestsWithInvalidBlocks requests invalidBlockIds
        numScheduledTokens evictBlocks) := by
  refine .foldlM ?_ requests rfl
  rintro report _ id rfl
  exact agrees_updateRequestWithInvalidBlocks _ _ _ report id

/-- Two results of handling failed loads. -/
abbrev ForgetsFailed (left right : List RequestId × Scheduler M E) : Prop :=
  left.1 = right.1 ∧ left.2.Forgets right.2

section

omit [EncoderCache E]

theorem agrees_handleInvalidBlocks
    (invalidBlockIds : List BlockId) (numScheduledTokens : Dict RequestId Int) :
    Agrees ForgetsFailed (scheduler.handleInvalidBlocks invalidBlockIds numScheduledTokens)
      (scheduler.forget.handleInvalidBlocks invalidBlockIds numScheduledTokens) := by
  refine (agrees_updateRequestsWithInvalidBlocks scheduler _ _ _ _).bind ?_
  rintro asyncReport _ rfl
  refine (agrees_updateRequestsWithInvalidBlocks asyncReport.scheduler _ _ _ _).bind ?_
  rintro syncReport _ rfl
  refine .ite (fun _ => .ok ⟨rfl, rfl⟩) fun _ => .ite (fun _ => .ok ⟨rfl, rfl⟩) fun _ =>
    .ok ⟨rfl, ?_⟩
  cases syncReport.blocksToEvict.isEmpty <;> rfl

theorem agrees_handleFailedLoads (output : SchedulerOutput) :
    Agrees ForgetsFailed (scheduler.handleFailedLoads answer output)
      (scheduler.forget.handleFailedLoads answer output) := by
  unfold handleFailedLoads
  cases answer.kvConnectorOutput with
  | none => exact .ok ⟨rfl, rfl⟩
  | some report =>
    exact .ite (fun _ => .ok ⟨rfl, rfl⟩) fun _ => agrees_handleInvalidBlocks scheduler _ _

end

theorem agrees_endFailedLoads (failedKvLoadReqIds : List RequestId) :
    Agrees Forgets (scheduler.endFailedLoads answer failedKvLoadReqIds)
      (scheduler.forget.endFailedLoads answer failedKvLoadReqIds) :=
  .ite (fun _ => .ok rfl) fun _ =>
    .ite (fun _ => agrees_finishRequests answer.connectorDelays scheduler _ _) fun _ => .error _

omit [EncoderCache E] in
theorem agrees_updateFromKvXferFinished (report : KVConnectorOutput) :
    Agrees Forgets (scheduler.updateFromKvXferFinished report)
      (scheduler.forget.updateFromKvXferFinished report) := by
  have received : Agrees Forgets (report.finishedRecving.foldlM recordRecved scheduler)
      (report.finishedRecving.foldlM recordRecved scheduler.forget) := by
    refine .foldlM ?_ _ rfl
    rintro state _ id rfl
    exact .bind_self _ fun _ => .ite (fun _ => .ok rfl) fun _ => agrees_freeBlocks state id
  refine received.bind ?_
  rintro between _ rfl
  refine .foldlM ?_ _ rfl
  rintro state _ id rfl
  exact .bind_self _ fun _ => agrees_freeBlocks state id

theorem agrees_updateFromOutput (output : SchedulerOutput) :
    Agrees Forgets (scheduler.updateFromOutput answer output)
      (scheduler.forget.updateFromOutput answer output) := by
  refine (agrees_handleFailedLoads scheduler answer output).bind ?_
  rintro ⟨failed, handled⟩ ⟨_, _⟩ ⟨rfl, rfl⟩
  have visited : Agrees ForgetsUpdate
      (output.numScheduledTokens.entries.foldlM (OutputUpdate.visit answer output failed)
        { scheduler := handled })
      (output.numScheduledTokens.entries.foldlM (OutputUpdate.visit answer output failed)
        { scheduler := handled.forget }) := by
    refine .foldlM ?_ _ rfl
    rintro update _ entry rfl
    exact .bind_self _ fun _ => .ite (fun _ => .ok rfl) fun _ =>
      agrees_apply answer output update entry.1
  refine visited.bind ?_
  rintro update _ rfl
  refine (agrees_endFailedLoads update.removeStopped answer failed).bind ?_
  rintro ended _ rfl
  cases answer.kvConnectorOutput with
  | none => exact .ok rfl
  | some report => exact agrees_updateFromKvXferFinished ended report

omit [KVCacheManager M] [EncoderCache E] in
theorem updateDraftTokenIds_forget (entry : RequestId × List TokenId) :
    scheduler.forget.updateDraftTokenIds entry = (scheduler.updateDraftTokenIds entry).forget := by
  unfold updateDraftTokenIds
  have known : scheduler.forget.isUnfinished entry.1 = scheduler.isUnfinished entry.1 := rfl
  rw [known]
  cases scheduler.isUnfinished entry.1 <;> rfl

end Transfers

end Scheduler

end TokenCake
