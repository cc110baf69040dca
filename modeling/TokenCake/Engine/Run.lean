import TokenCake.Scheduler.Forgetting
import TokenCake.Scheduler.Registered

/-!
# Runs of the engine core

The engine core adds and aborts requests, schedules steps and feeds the answers of the model back.
Several scheduled steps may wait for their answers, which arrive in order.  For statements about
what the workers were told, an engine remembers every output it returned together with the
scheduler at that moment.

Two statements about all runs of an engine have a limit each.  The queues hold known and unfinished
requests as long as no request stops among the skipped ones: a request that was preempted and stops
when the answer to an older step arrives is removed from the waiting queue only.  And an engine with
the capacity policy does what the engine without a policy does while no live request carries an
annotation, if the sessions keep their annotation: the policy goes on with an annotation that a
later input of the session dropped.
-/

namespace TokenCake

variable {M E : Type} [KVCacheManager M] [EncoderCache E]

/-- The object behind an id that was never used. -/
def Request.blank (requestId : RequestId) : Request where
  requestId := requestId
  samplingParams := none
  maxTokens := 0
  promptTokenIds := none
  numPromptTokens := 0
  allTokenIds := []

/-- The scheduler of a new engine. -/
def Scheduler.init (config : SchedulerConfig) (kvCacheManager : M) (encoderCacheManager : E)
    (tokencakeScheduling : Option SchedulingController) : Scheduler M E where
  config := config
  kvCacheManager := kvCacheManager
  encoderCacheManager := encoderCacheManager
  tokencakeScheduling := tokencakeScheduling
  requestHeap := { object := Request.blank, requestId_object := fun _ => rfl }
  requests := []
  waiting := []
  skippedWaiting := []
  running := []
  finishedReqIds := []
  finishedRecvingKvReqIds := []
  failedRecvingKvReqIds := []
  prevStepScheduledReqIds := []

/-- The engine core with what it returned so far. -/
structure Engine (M E : Type) where
  scheduler : Scheduler M E
  /-- Outputs that are not answered yet, oldest first. -/
  outstanding : List SchedulerOutput
  /-- All outputs so far, each with the scheduler that returned it, oldest first. -/
  returned : List (SchedulerOutput × Scheduler M E)

/-- What happens to a scheduler. -/
inductive EngineOperation where
  | addRequest (arguments : Request.Arguments) (connectorDelays : RequestId → Bool)
  | schedule (environment : StepEnvironment)
  | updateFromOutput (answer : ModelRunnerOutput)
  | updateDraftTokenIds (drafts : List (RequestId × List TokenId))
  | finishRequests (requestIds : List RequestId) (finishedStatus : RequestStatus)
      (connectorDelays : RequestId → Bool)

namespace Engine

/-- An engine without requests. -/
def init (scheduler : Scheduler M E) : Engine M E where
  scheduler := scheduler
  outstanding := []
  returned := []

/-- One operation.  An answer belongs to the oldest output without one. -/
def step (engine : Engine M E) : EngineOperation → Except EngineError (Engine M E)
  | .addRequest arguments connectorDelays => do
      let request ← Request.init engine.scheduler.config.blockHasher arguments
      let scheduler ← engine.scheduler.addRequest connectorDelays request
      return { engine with scheduler := scheduler }
  | .schedule environment => do
      let (output, scheduler) ← engine.scheduler.schedule environment
      return {
        scheduler := scheduler
        outstanding := engine.outstanding ++ [output]
        returned := engine.returned ++ [(output, scheduler)] }
  | .updateFromOutput answer =>
    match engine.outstanding with
    | [] => .error .indexError
    | output :: outstanding => do
        let scheduler ← engine.scheduler.updateFromOutput answer output
        return { engine with scheduler := scheduler, outstanding := outstanding }
  | .updateDraftTokenIds drafts =>
    .ok { engine with
      scheduler := drafts.foldl Scheduler.updateDraftTokenIds engine.scheduler }
  | .finishRequests requestIds finishedStatus connectorDelays => do
      let scheduler ←
        engine.scheduler.finishRequests connectorDelays requestIds finishedStatus
      return { engine with scheduler := scheduler }

/-- Apply a sequence of operations. -/
abbrev run (engine : Engine M E) (operations : List EngineOperation) :
    Except EngineError (Engine M E) :=
  Machine.run step engine operations

/-- Every operation of a run meets a condition on the engine it is applied to. -/
abbrev Along (condition : Engine M E → EngineOperation → Prop) (engine : Engine M E)
    (operations : List EngineOperation) : Prop :=
  Machine.Along step condition engine operations

variable {engine next : Engine M E} {operation : EngineOperation}

/-- No request that the next answer stops is among the skipped ones. -/
def StopsOutsideSkipped (engine : Engine M E) : EngineOperation → Prop
  | .updateFromOutput answer =>
    ∀ output ∈ engine.outstanding.head?, engine.scheduler.StopsOutsideSkipped answer output
  | _ => True

instance (engine : Engine M E) :
    (operation : EngineOperation) → Decidable (engine.StopsOutsideSkipped operation)
  | .updateFromOutput answer =>
    inferInstanceAs (Decidable (∀ output ∈ engine.outstanding.head?,
      engine.scheduler.StopsOutsideSkipped answer output))
  | .addRequest _ _ | .schedule _ | .updateDraftTokenIds _ | .finishRequests _ _ _ =>
    .isTrue trivial

/-- One operation keeps the queues sound. -/
theorem sound_of_step (sound : engine.scheduler.Sound)
    (outside : engine.StopsOutsideSkipped operation)
    (stepped : engine.step operation = .ok next) : next.scheduler.Sound := by
  cases operation with
  | addRequest arguments connectorDelays =>
    obtain ⟨request, created, stepped⟩ := bind_eq_ok.mp stepped
    obtain ⟨scheduler, added, stepped⟩ := bind_eq_ok.mp stepped
    cases stepped
    exact sound.addRequest created added
  | schedule environment =>
    obtain ⟨⟨output, scheduler⟩, scheduled, stepped⟩ := bind_eq_ok.mp stepped
    cases stepped
    exact sound.schedule scheduled
  | updateFromOutput answer =>
    cases outstanding : engine.outstanding with
    | nil =>
      simp only [step, outstanding] at stepped
      cases stepped
    | cons output rest =>
      simp only [step, outstanding] at stepped
      obtain ⟨scheduler, updated, stepped⟩ := bind_eq_ok.mp stepped
      cases stepped
      refine sound.updateFromOutput (outside output ?_) updated
      rw [outstanding]
      exact rfl
  | updateDraftTokenIds drafts =>
    cases stepped
    exact sound.updateDraftTokenIds drafts
  | finishRequests requestIds finishedStatus connectorDelays =>
    obtain ⟨scheduler, finished, stepped⟩ := bind_eq_ok.mp stepped
    cases stepped
    exact sound.finishRequests finished

variable (config : SchedulerConfig) (manager : M) (encoder : E)
  (controller : Option SchedulingController)

omit [KVCacheManager M] [EncoderCache E] in
theorem sound_init : (Scheduler.init config manager encoder controller).Sound :=
  ⟨List.nodup_nil, nofun, nofun⟩

/-- In every run in which no request stops among the skipped ones, the queues hold
only known and unfinished requests, and no call of `schedule` meets an invalid
status. -/
theorem queues_hold_unfinished_requests (operations : List EngineOperation) (final : Engine M E)
    (along : Engine.Along StopsOutsideSkipped
      (.init (.init config manager encoder controller)) operations)
    (reached : run (.init (.init config manager encoder controller)) operations = .ok final) :
    (∀ id ∈ final.scheduler.waiting ++ final.scheduler.skippedWaiting ++ final.scheduler.running,
      (final.scheduler.requestOf id).isFinished = false ∧ id ∈ final.scheduler.requests) ∧
    ∀ environment, final.scheduler.schedule environment ≠ .error .invalidRequestStatus := by
  have sound : final.scheduler.Sound :=
    Machine.invariant_of_run (fun _ _ _ => sound_of_step)
      (sound_init config manager encoder controller) along reached
  refine ⟨fun id member => ?_, sound.schedule_ne_invalidRequestStatus⟩
  rcases List.mem_append.mp member with queued | running
  · exact ⟨(sound.waits id queued).unfinished, (sound.waits id queued).known⟩
  · refine ⟨?_, (sound.runs id running).known⟩
    unfold Request.isFinished
    rw [(sound.runs id running).status]
    rfl

/-- In such a run every request stands at one place of the queues, its status tells whether it
runs, and no call of `schedule` fails on a queue or for want of fuel. -/
theorem queues_agree_with_statuses (operations : List EngineOperation) (final : Engine M E)
    (along : Engine.Along StopsOutsideSkipped
      (.init (.init config manager encoder controller)) operations)
    (reached : run (.init (.init config manager encoder controller)) operations = .ok final) :
    final.scheduler.live.Nodup ∧
    (∀ id ∈ final.scheduler.live,
      id ∈ final.scheduler.running ↔ (final.scheduler.requestOf id).status = .running) ∧
    ∀ environment failure, final.scheduler.schedule environment = .error failure →
      failure.isQueueFailure = false := by
  have sound : final.scheduler.Sound :=
    Machine.invariant_of_run (fun _ _ _ => sound_of_step)
      (sound_init config manager encoder controller) along reached
  refine ⟨sound.separate, fun id member => ?_, fun environment failure failed => ?_⟩
  · refine ⟨fun running => (sound.runs id running).status, fun status => ?_⟩
    rcases List.mem_append.mp member with queued | running
    · exact absurd status (sound.waits id queued).halted
    · exact running
  · exact Bool.eq_false_iff.mpr
      (Scheduler.keepsQueues_schedule environment sound.separate failure failed)

section Stalled

/-- Two blocks of two tokens, a connector, and no reserved generation. -/
def tightEngine : Engine NativeKVCacheManager EncoderCacheManager :=
  let manager : NativeKVCacheManager :=
    .init [{ kind := .fullAttention, blockSize := 2 }] 3 2 8 8 false false []
  .init (.init
    { maxNumRunningReqs := 4
      maxNumScheduledTokens := 8
      maxModelLen := 8
      blockSize := 2
      hasConnector := true } manager (.init 0)
    (some (.init { reserveGenerationTokens := false } manager 0)))

/-- The arrival of an annotated request. -/
def addAnnotated (requestId promptLength maxTokens : Nat) : EngineOperation :=
  .addRequest
    { requestId := requestId
      promptTokenIds := some (List.replicate promptLength 7)
      samplingParams :=
        some { maxTokens := maxTokens, tokencake := some { agentType := 5 } } }
    fun _ => false

/-- One token for every request of the oldest output. -/
def answerToken : EngineOperation :=
  .updateFromOutput { sampledTokenIds := fun _ => [3] }

/-- The connector cannot tell yet what it holds. -/
def undecidedEnvironment : StepEnvironment :=
  { StepEnvironment.quiet with matchedTokens := fun _ _ _ => (none, false) }

/-- The second request is preempted for the first one and then set aside, while the
answer to its only step is outstanding. -/
def setAsideRun : List EngineOperation :=
  [addAnnotated 1 2 2, .schedule .quiet,
    addAnnotated 2 2 1, .schedule .quiet,
    answerToken, .schedule .quiet, .schedule undecidedEnvironment]

/-- When its answer arrives, the second request stops and stays among the skipped
requests; a later call of `schedule` fails on it. -/
theorem finished_request_stays_skipped :
    ((tightEngine.run (setAsideRun ++ [answerToken])).toOption.map fun engine =>
      (engine.scheduler.skippedWaiting, (engine.scheduler.requestOf 2).isFinished,
        engine.scheduler.requests)) = some ([2], true, [1]) ∧
    failureOf (tightEngine.run (setAsideRun ++
      [answerToken, addAnnotated 3 2 2, answerToken,
        .schedule .quiet])) = some .invalidRequestStatus := by
  decide +kernel

/-- Before that answer the queues hold unfinished requests. -/
theorem setAsideRun_holds_unfinished_requests :
    ((tightEngine.run setAsideRun).toOption.map fun engine =>
      (engine.scheduler.skippedWaiting, engine.scheduler.running)) = some ([2], [1]) ∧
    ∀ final, tightEngine.run setAsideRun = .ok final →
      (∀ id ∈ final.scheduler.waiting ++ final.scheduler.skippedWaiting ++ final.scheduler.running,
        (final.scheduler.requestOf id).isFinished = false ∧ id ∈ final.scheduler.requests) ∧
      ∀ environment, final.scheduler.schedule environment ≠ .error .invalidRequestStatus := by
  refine ⟨by decide +kernel, fun final reached => ?_⟩
  refine queues_hold_unfinished_requests _ _ _ _ setAsideRun final ?_ reached
  exact Machine.along_of_checkAlong step (by decide +kernel)

theorem setAsideRun_agrees_with_statuses :
    (tightEngine.run setAsideRun).toOption.isSome ∧
    ∀ final, tightEngine.run setAsideRun = .ok final → ∀ id ∈ final.scheduler.live,
      id ∈ final.scheduler.running ↔ (final.scheduler.requestOf id).status = .running := by
  refine ⟨by decide +kernel, fun final reached => ?_⟩
  exact (queues_agree_with_statuses _ _ _ _ setAsideRun final
    (Machine.along_of_checkAlong step (by decide +kernel)) reached).2.1

end Stalled

end Engine

open List Scheduler

/-- No live request carries an annotation. -/
def Scheduler.Ordinary (scheduler : Scheduler M E) : Prop :=
  ∀ id ∈ scheduler.requests, (scheduler.requestOf id).isFinished = false →
    (scheduler.requestOf id).isAnnotated = false

instance (scheduler : Scheduler M E) : Decidable scheduler.Ordinary :=
  inferInstanceAs (Decidable (∀ id ∈ scheduler.requests, _))

omit [KVCacheManager M] [EncoderCache E] in
theorem Scheduler.RegisteredBut.unannotated {scheduler : Scheduler M E}
    (registered : scheduler.Registered) (ordinary : scheduler.Ordinary) :
    scheduler.Unannotated := by
  intro controller policy
  refine eq_nil_iff_forall_not_mem.mpr fun entry mem => ?_
  have known : entry.1 ∈ scheduler.annotated := by
    unfold annotated
    rw [policy]
    exact mem_map_of_mem mem
  have carries := registered.live entry.1 known nofun
  have ordinary := ordinary entry.1 carries.known carries.unfinished
  cases carries.annotated.symm.trans ordinary

namespace Engine

variable {engine next : Engine M E} {operation : EngineOperation}

/-- The engine without the capacity policy. -/
def forget (engine : Engine M E) : Engine M E where
  scheduler := engine.scheduler.forget
  outstanding := engine.outstanding
  returned := engine.returned.map fun entry => (entry.1, entry.2.forget)

/-- An input for a known request is annotated as this request is. -/
def AnnotatesAlike (engine : Engine M E) : EngineOperation → Prop
  | .addRequest arguments _ =>
    ∀ request ∈ (Request.init engine.scheduler.config.blockHasher arguments).toOption,
      engine.scheduler.AnnotatedAlike request
  | _ => True

instance (engine : Engine M E) :
    (operation : EngineOperation) → Decidable (engine.AnnotatesAlike operation)
  | .addRequest arguments _ =>
    inferInstanceAs (Decidable (∀ request ∈
      (Request.init engine.scheduler.config.blockHasher arguments).toOption,
        engine.scheduler.AnnotatedAlike request))
  | .schedule _ | .updateFromOutput _ | .updateDraftTokenIds _ | .finishRequests _ _ _ =>
    .isTrue trivial

/-- One operation keeps the annotations registered. -/
theorem registered_of_step (registered : engine.scheduler.Registered)
    (alike : engine.AnnotatesAlike operation)
    (stepped : engine.step operation = .ok next) : next.scheduler.Registered := by
  cases operation with
  | addRequest arguments delays =>
    obtain ⟨request, created, stepped⟩ := bind_eq_ok.mp stepped
    obtain ⟨scheduler, added, stepped⟩ := bind_eq_ok.mp stepped
    cases stepped
    have alike : engine.scheduler.AnnotatedAlike request := by
      refine alike request ?_
      rw [created]
      exact rfl
    exact registered.addRequest alike created added
  | schedule env =>
    obtain ⟨⟨output, scheduler⟩, scheduled, stepped⟩ := bind_eq_ok.mp stepped
    cases stepped
    exact registered.of_retains (retains_schedule scheduled)
  | updateFromOutput answer =>
    cases outstanding : engine.outstanding with
    | nil =>
      simp only [step, outstanding] at stepped
      cases stepped
    | cons output rest =>
      simp only [step, outstanding] at stepped
      obtain ⟨scheduler, updated, stepped⟩ := bind_eq_ok.mp stepped
      cases stepped
      exact registered.updateFromOutput updated
  | updateDraftTokenIds drafts =>
    cases stepped
    exact registered.of_retains (retains_updateDraftTokenIds drafts _)
  | finishRequests requestIds finishedStatus delays =>
    obtain ⟨scheduler, finished, stepped⟩ := bind_eq_ok.mp stepped
    cases stepped
    exact registered.finishRequests finished

/-- A policy that knows no annotation has no part in an operation. -/
theorem agrees_step (engine : Engine M E) (operation : EngineOperation)
    (unannotated : engine.scheduler.Unannotated)
    (native : engine.scheduler.config.hasTokencakeConnector = false) :
    Agrees (fun next plain => plain = next.forget) (engine.step operation)
      (engine.forget.step operation) := by
  cases operation with
  | addRequest arguments delays =>
    refine .bind_self (Request.init engine.scheduler.config.blockHasher arguments) fun request =>
        (agrees_addRequest delays engine.scheduler request).bind ?_
    rintro scheduler _ rfl
    exact .ok rfl
  | schedule env =>
    refine (agrees_schedule env unannotated native).bind ?_
    rintro ⟨output, scheduler⟩ ⟨_, _⟩ ⟨rfl, rfl⟩
    refine .ok ?_
    unfold forget
    rw [map_append]
    rfl
  | updateFromOutput answer =>
    unfold step
    have same : engine.forget.outstanding = engine.outstanding := rfl
    rw [same]
    cases engine.outstanding with
    | nil => exact .error _
    | cons output rest =>
      refine (agrees_updateFromOutput engine.scheduler answer output).bind ?_
      rintro scheduler _ rfl
      exact .ok rfl
  | updateDraftTokenIds drafts =>
    have drafted : ∀ scheduler : Scheduler M E, drafts.foldl updateDraftTokenIds scheduler.forget =
          (drafts.foldl updateDraftTokenIds scheduler).forget := by
      induction drafts with
      | nil => exact fun _ => rfl
      | cons entry rest ih =>
        intro scheduler
        rw [foldl_cons, foldl_cons, updateDraftTokenIds_forget]
        exact ih _
    refine .ok ?_
    exact congrArg (fun scheduler => { engine.forget with scheduler := scheduler })
      (drafted engine.scheduler)
  | finishRequests requestIds finishedStatus delays =>
    refine (agrees_finishRequests delays engine.scheduler requestIds finishedStatus).bind ?_
    rintro scheduler _ rfl
    exact .ok rfl

variable (config : SchedulerConfig) (manager : M) (encoder : E) (settings : SchedulingConfig)

omit [EncoderCache E] in
theorem registered_init :
    (Scheduler.init config manager encoder
      (some (.init settings manager config.numLookaheadTokens))).Registered where
  uniform := fun _ _ queued => absurd queued not_mem_nil
  live := fun _ mem => absurd mem not_mem_nil

/-- After any run in which inputs are annotated as their sessions are, the policy knows no request
that is finished, gone or without an annotation. -/
theorem policy_knows_live_requests (operations : List EngineOperation) (final : Engine M E)
    (alike : Engine.Along AnnotatesAlike (.init (.init config manager encoder
        (some (.init settings manager config.numLookaheadTokens)))) operations)
    (reached : run (.init (.init config manager encoder
        (some (.init settings manager config.numLookaheadTokens)))) operations = .ok final) :
    ∀ id ∈ final.scheduler.annotated, id ∈ final.scheduler.requests ∧
      (final.scheduler.requestOf id).isFinished = false ∧
        (final.scheduler.requestOf id).isAnnotated = true := by
  intro id known
  have registered : final.scheduler.Registered :=
    Machine.invariant_of_run (fun _ _ _ => registered_of_step)
      (registered_init config manager encoder settings) alike reached
  have carries := registered.live id known not_mem_nil
  exact ⟨carries.known, carries.unfinished, carries.annotated⟩

/-- After any run in which inputs are annotated as their sessions are, an engine on which no live
request carries an annotation runs as the engine without a policy: both return the same outputs
and have the same queues, requests and blocks, as long as no live request carries an
annotation.  The engine has no offloading connector that reads the scores of the policy. -/
theorem ordinary_run_forgets_policy
    (past later : List EngineOperation) (reached : Engine M E)
    (pastAlike : Engine.Along AnnotatesAlike (.init (.init config manager encoder
        (some (.init settings manager config.numLookaheadTokens)))) past)
    (reaches : run (.init (.init config manager encoder
        (some (.init settings manager config.numLookaheadTokens)))) past = .ok reached)
    (ordinary : Engine.Along (fun engine operation => engine.AnnotatesAlike operation ∧
      engine.scheduler.Ordinary ∧ engine.scheduler.config.hasTokencakeConnector = false)
        reached later) :
    reached.forget.run later = (reached.run later).map forget := by
  have registered : reached.scheduler.Registered :=
    Machine.invariant_of_run (fun _ _ _ => registered_of_step)
      (registered_init config manager encoder settings) pastAlike reaches
  have stays : Agrees
      (fun (engine plain : Engine M E) => plain = engine.forget ∧ engine.scheduler.Registered)
      (reached.run later) (reached.forget.run later) := by
    refine Agrees.run ?_ ⟨rfl, registered⟩ ordinary
    rintro engine _ operation ⟨rfl, registered⟩ ⟨alike, ordinary, native⟩
    exact (agrees_step engine operation (registered.unannotated ordinary) native).and_left
      fun next => registered_of_step registered alike
  exact (stays.imp fun _ _ => And.left).map_eq

section Sessions

/-- Four blocks of two tokens, and a policy that reserves generated tokens. -/
def sessionEngine : Engine NativeKVCacheManager EncoderCacheManager :=
  let manager : NativeKVCacheManager :=
    .init [{ kind := .fullAttention, blockSize := 2 }] 5 2 8 8 false false []
  .init (.init
    { maxNumRunningReqs := 4
      maxNumScheduledTokens := 8
      maxModelLen := 8
      blockSize := 2 } manager (.init 0)
    (some (.init {} manager 0)))

/-- Add a request of two tokens, or an input of its session. -/
def addInput (requestId maxTokens : Nat) (metadata : Option TokenCakeMetadata)
    (resumable : Bool) : EngineOperation :=
  .addRequest
    { requestId := requestId
      promptTokenIds := some [7, 7]
      samplingParams := some { maxTokens := maxTokens, tokencake := metadata }
      resumable := resumable }
    fun _ => false

/-- An annotated request with one token to generate comes and stops. -/
def annotatedTurn (resumable : Bool) : List EngineOperation :=
  [addInput 1 1 (some {}) resumable, .schedule .quiet,
    .updateFromOutput { sampledTokenIds := fun _ => [3] }]

theorem annotatedTurn_known_until_it_ends :
    ((annotatedTurn false).inits.map fun operations =>
      (sessionEngine.run operations).toOption.map fun final => final.scheduler.annotated) =
        [some [], some [1], some [1], some []] ∧
    ∀ final, sessionEngine.run (annotatedTurn false) = .ok final →
      ∀ id ∈ final.scheduler.annotated, id ∈ final.scheduler.requests := by
  refine ⟨by decide +kernel, fun final reached id known => ?_⟩
  exact (policy_knows_live_requests _ _ _ {} (annotatedTurn false) final
    (Machine.along_of_checkAlong step (by decide +kernel)) reached id known).1

/-- Two ordinary requests, each with as many tokens as the model allows. -/
def ordinaryTraffic : List EngineOperation :=
  [addInput 2 8 none false, addInput 3 8 none false, .schedule .quiet]

/-- The tokens of all outputs so far. -/
def scheduledTokens (engine : Engine M E) : List (List (RequestId × Int)) :=
  engine.returned.map fun entry => entry.1.numScheduledTokens.entries

/-- After its annotated turn a request has finished, and ordinary requests are scheduled as
without the policy. -/
theorem ordinary_run_after_annotated_turn :
    ((sessionEngine.run (annotatedTurn false ++ ordinaryTraffic)).toOption.map
      scheduledTokens) = some [[(1, 2)], [(2, 2), (3, 2)]] ∧
    ∀ reached, sessionEngine.run (annotatedTurn false) = .ok reached →
      reached.forget.run ordinaryTraffic = (reached.run ordinaryTraffic).map forget := by
  refine ⟨by decide +kernel, fun reached reaches => ?_⟩
  refine ordinary_run_forgets_policy _ _ _ {} (annotatedTurn false) ordinaryTraffic reached
    (Machine.along_of_checkAlong step (by decide +kernel)) reaches ?_
  obtain rfl := Except.ok.inj (reaches.symm.trans
    (eq_ok_getD_of_isSome (sessionEngine.run (annotatedTurn false)) sessionEngine
      (by decide +kernel)))
  exact Machine.along_of_checkAlong step (by decide +kernel)

/-- The second input of a session drops the annotation.  No live request carries one then, but
the policy takes part in the next step and sets both ordinary requests aside. -/
theorem dropped_annotation_limits_ordinary_requests :
    let dropped := (sessionEngine.run (annotatedTurn true ++ [addInput 1 1 none true])).toOption
    dropped.map (fun engine => decide engine.scheduler.Ordinary) = some true ∧
      dropped.bind (fun engine =>
        (engine.run ordinaryTraffic).toOption.map scheduledTokens) = some [[(1, 2)], [(1, 2)]] ∧
      dropped.bind (fun engine =>
        (engine.forget.run ordinaryTraffic).toOption.map scheduledTokens) =
          some [[(1, 2)], [(1, 2), (2, 2), (3, 2)]] := by
  decide +kernel

end Sessions

end Engine

end TokenCake
