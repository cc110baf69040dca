import TokenCake.Scheduler.SoundQueues

/-!
# Registered annotations

The capacity policy knows the annotations of requests.  If the inputs of a session agree on
whether they are annotated, the policy knows live annotated requests only: a request that ends
is forgotten at once, whether it is answered or finished from outside.
-/

namespace TokenCake

open KVCacheManager

variable {M E : Type} [KVCacheManager M] [EncoderCache E]

/-- Whether a session input is annotated. -/
def StreamingUpdate.isAnnotated (update : StreamingUpdate) : Bool :=
  (update.samplingParams.bind SamplingParams.tokencake).isSome

namespace Request

/-- Whether a request is annotated. -/
def isAnnotated (request : Request) : Bool := request.metadata.isSome

/-- The inputs queued for a session are annotated exactly if its request is. -/
def Uniform (request : Request) : Prop :=
  ∀ update, some update ∈ request.streamingQueue.getD [] → update.isAnnotated = request.isAnnotated

/-- A request and a later state of it within one turn of its session. -/
structure Continues (before after : Request) : Prop where
  samplingParams : after.samplingParams = before.samplingParams
  streamingQueue : after.streamingQueue = before.streamingQueue
  unfinished : before.isFinished = false → after.isFinished = false

theorem Continues.refl (request : Request) : request.Continues request :=
  ⟨rfl, rfl, id⟩

theorem Continues.trans {first : Request} (left : first.Continues second)
    (right : second.Continues third) : first.Continues third where
  samplingParams := right.samplingParams.trans left.samplingParams
  streamingQueue := right.streamingQueue.trans left.streamingQueue
  unfinished := right.unfinished ∘ left.unfinished

variable {before after : Request}

theorem isAnnotated_eq (samplingParams : after.samplingParams = before.samplingParams) :
    after.isAnnotated = before.isAnnotated := by
  unfold isAnnotated metadata
  rw [samplingParams]

theorem Uniform.of_eq (uniform : before.Uniform)
    (samplingParams : after.samplingParams = before.samplingParams)
    (streamingQueue : after.streamingQueue = before.streamingQueue) : after.Uniform := by
  intro update queued
  rw [streamingQueue] at queued
  rw [isAnnotated_eq samplingParams]
  exact uniform update queued

end Request

variable (scheduler : Scheduler M E)

namespace Scheduler

/-- The requests whose annotations the capacity policy knows. -/
def annotated (scheduler : Scheduler M E) : List RequestId :=
  match scheduler.tokencakeScheduling with
  | none => []
  | some controller => controller.metadata.keys

/-- A known annotated request that is not finished. -/
structure CarriesMetadata (scheduler : Scheduler M E) (requestId : RequestId) : Prop where
  known : requestId ∈ scheduler.requests
  unfinished : (scheduler.requestOf requestId).isFinished = false
  annotated : (scheduler.requestOf requestId).isAnnotated = true

/-- Sessions are uniform, and the policy knows live annotated requests only, apart from those
that are about to end. -/
structure RegisteredBut (ending : List RequestId) (scheduler : Scheduler M E) : Prop where
  uniform : ∀ id, (scheduler.requestOf id).Uniform
  live : ∀ id ∈ scheduler.annotated, id ∉ ending → scheduler.CarriesMetadata id

/-- Sessions are uniform, and the policy knows live annotated requests only. -/
abbrev Registered (scheduler : Scheduler M E) : Prop := scheduler.RegisteredBut []

/-- The policy learns no annotation, and every request stays in its turn. -/
structure Retains (before after : Scheduler M E) : Prop where
  annotated : after.annotated ⊆ before.annotated
  requests : after.requests = before.requests
  objects : ∀ id, (before.requestOf id).Continues (after.requestOf id)

variable {before after : Scheduler M E}

variable {id : RequestId}

section

omit [KVCacheManager M] [EncoderCache E]

theorem Retains.refl : scheduler.Retains scheduler :=
  ⟨List.Subset.refl _, rfl, fun _ => .refl _⟩

theorem Retains.trans {first : Scheduler M E} (left : first.Retains second)
    (right : second.Retains third) : first.Retains third where
  annotated := List.Subset.trans right.annotated left.annotated
  requests := right.requests.trans left.requests
  objects := fun id => (left.objects id).trans (right.objects id)

theorem Retains.of_heap (annotated : after.annotated = before.annotated)
    (requests : after.requests = before.requests)
    (heap : after.requestHeap = before.requestHeap) : before.Retains after := by
  refine ⟨annotated ▸ List.Subset.refl _, requests, fun id => ?_⟩
  unfold requestOf
  rw [heap]
  exact .refl _

theorem Retains.of_change (annotated : after.annotated = before.annotated)
    (requests : after.requests = before.requests)
    (others : ∀ id, id ≠ requestId → after.requestOf id = before.requestOf id)
    (changed : (before.requestOf requestId).Continues (after.requestOf requestId)) :
    before.Retains after := by
  refine ⟨annotated ▸ List.Subset.refl _, requests, fun id => ?_⟩
  by_cases same : id = requestId
  · subst same
    exact changed
  · rw [others id same]
    exact .refl _

theorem retains_modifyRequest (id : RequestId)
    (continues : ∀ request : Request, request.Continues (change request)) :
    scheduler.Retains (scheduler.modifyRequest id change keeps) := by
  refine .of_change rfl rfl (fun _ => requestOf_modifyRequest_of_ne scheduler) ?_
  rw [requestOf_modifyRequest_self]
  exact continues _

theorem CarriesMetadata.of_eq (carries : before.CarriesMetadata id)
    (known : id ∈ before.requests → id ∈ after.requests)
    (object : after.requestOf id = before.requestOf id) : after.CarriesMetadata id := by
  refine ⟨known carries.known, ?_, ?_⟩
  · rw [object]
    exact carries.unfinished
  · rw [object]
    exact carries.annotated

theorem CarriesMetadata.of_retains (carries : before.CarriesMetadata id)
    (retains : before.Retains after) : after.CarriesMetadata id := by
  have object := retains.objects id
  refine ⟨?_, object.unfinished carries.unfinished, ?_⟩
  · rw [retains.requests]
    exact carries.known
  · rw [Request.isAnnotated_eq object.samplingParams]
    exact carries.annotated

theorem RegisteredBut.of_retains (registered : before.RegisteredBut ending)
    (retains : before.Retains after) : after.RegisteredBut ending where
  uniform := fun id =>
    (registered.uniform id).of_eq (retains.objects id).samplingParams
      (retains.objects id).streamingQueue
  live := fun id mem different =>
    (registered.live id (retains.annotated mem) different).of_retains retains

theorem annotated_eq_of_metadata (change : SchedulingController → SchedulingController)
    (keeps : ∀ controller, (change controller).metadata = controller.metadata)
    (controllers : after.tokencakeScheduling = before.tokencakeScheduling.map change) :
    after.annotated = before.annotated := by
  unfold annotated
  rw [controllers]
  cases before.tokencakeScheduling with
  | none => rfl
  | some controller =>
    dsimp only [Option.map_some]
    rw [keeps]

end

omit [EncoderCache E] in
theorem Settled.retains {env : StepEnvironment} {scheduler settled : Scheduler M E} {ready : Bool}
    (settles : Settled env scheduler id ready settled) : scheduler.Retains settled := by
  have ended : ∀ (manager : M) (controller : Option SchedulingController) (numComputed : Int),
      (scheduler.loadEnded id manager controller numComputed).annotated =
        scheduler.annotated →
      scheduler.Retains (scheduler.loadEnded id manager controller numComputed) := by
    intro manager controller numComputed annotated
    refine .of_change annotated rfl
      (fun _ => requestOf_loadEnded_of_ne scheduler manager controller numComputed) ?_
    rw [requestOf_loadEnded_self]
    refine ⟨rfl, rfl, fun _ => ?_⟩
    split <;> rfl
  cases settles with
  | unblocked _ => exact .refl _
  | blocked _ => exact .refl _
  | grammar _ => exact retains_modifyRequest scheduler id fun _ => ⟨rfl, rfl, fun _ => rfl⟩
  | loadFailed _ _ _ _ =>
    refine ended _ _ _ (annotated_eq_of_metadata
      (fun controller => controller.release (free scheduler.kvCacheManager id))
      (fun controller => controller.metadata_release _) rfl)
  | loaded _ _ _ _ _ _ => exact ended _ _ _ rfl

end Scheduler

namespace Step

open Scheduler

section Moves

variable {env : StepEnvironment} {step next : Step M E} {controller : Option SchedulingController}

omit [KVCacheManager M] [EncoderCache E] in
theorem retains_withResources (keeps : step.KeepsAnnotations controller)
    (manager : M) (encoder : E) :
    step.scheduler.Retains (step.withResources manager controller encoder).scheduler := by
  refine .of_heap ?_ rfl rfl
  rcases keeps with ⟨_, rfl⟩ | ⟨old, new, active, rfl, same⟩
  · rfl
  · unfold annotated
    rw [(tokencake_eq_some active).2]
    dsimp only [withResources]
    rw [same]

variable {id : RequestId} {manager : M}

section

omit [EncoderCache E]

theorem Prepares.keepsAnnotations (prepares : step.Prepares id manager controller) :
    step.KeepsAnnotations controller := by
  rcases prepares with ⟨inactive, _, same⟩ | ⟨old, new, active, same, prepared⟩
  · exact Or.inl ⟨inactive, same⟩
  · refine Or.inr ⟨old, new, active, same, ?_⟩
    have released := SchedulingController.metadata_releaseSkipped old
      step.scheduler.kvCacheManager (step.request id).requestId
      (step.request id).numComputedTokens
    unfold SchedulingController.prepareRunning at prepared
    rw [prepared] at released
    exact released

theorem Names.keepsAnnotations (names : step.Names env manager probe victim controller) :
    step.KeepsAnnotations controller := by
  unfold Names agentVictim at names
  have same : (step.setManager manager).tokencake = step.tokencake := rfl
  rw [same] at names
  cases active : step.tokencake with
  | none =>
    rw [active] at names
    have result := congrArg (fun named : Option RequestId × Step M E =>
      named.2.scheduler.tokencakeScheduling) (Except.ok.inj names)
    exact Or.inl ⟨active, result.symm⟩
  | some old =>
    rw [active] at names
    obtain ⟨⟨chosen, new⟩, choice, names⟩ := bind_eq_ok.mp names
    have result := congrArg (fun named : Option RequestId × Step M E =>
      named.2.scheduler.tokencakeScheduling) (Except.ok.inj names)
    exact Or.inr ⟨old, new, active, result.symm, SchedulingController.metadata_victim choice⟩

end

theorem retains_preempted (victim : RequestId) (physical : Bool) :
    scheduler.Retains (scheduler.preempted victim physical) := by
  refine .of_change ?_ rfl (fun _ => requestOf_preempted_of_ne scheduler physical) ?_
  · exact annotated_eq_of_metadata
      (fun controller => controller.preempt (free scheduler.kvCacheManager victim)
        (scheduler.requestOf victim) physical)
      (fun controller => controller.metadata_preempt _ _ _) rfl
  · have object : (scheduler.preempted victim physical).requestOf victim =
        { scheduler.requestOf victim with
          status := .preempted
          numComputedTokens := 0
          specTokenIds := []
          numPreemptions := (scheduler.requestOf victim).numPreemptions + 1 } := if_pos rfl
    rw [object]
    exact ⟨rfl, rfl, fun _ => rfl⟩

theorem retains_of_runningMove (move : RunningMove env step next) :
    step.scheduler.Retains next.scheduler := by
  have removed : ∀ manager {controller}, step.KeepsAnnotations controller → ∀ running reqIndex,
      step.scheduler.Retains ((step.withResources manager controller
        step.scheduler.encoderCacheManager).setRunning running reqIndex).scheduler :=
    fun manager _ keeps _ _ => (retains_withResources keeps manager
      step.scheduler.encoderCacheManager).trans (.of_heap rfl rfl rfl)
  cases move with
  | leave _ | skipFinished _ _ _ | denyGrowth _ _ | allowGrowth _ _ _ | enterWaiting _ _ _
  | skipWaiting _ _ => exact .refl _
  | skipProbed _ _ _ _ _ _ => exact .of_heap rfl rfl rfl
  | prepare _ _ _ _ _ encoder _ _ manager controller prepared =>
    exact retains_withResources prepared.keepsAnnotations manager encoder
  | schedule probe _ _ manager _ controller committed encoder _ =>
    exact (retains_withResources committed.keepsAnnotations manager encoder).trans
      (retains_modifyRequest _ probe.requestId fun _ => ⟨rfl, rfl, id⟩)
  | preempt _ _ _ _ _ controller named victim _ _ running _ reqIndex _ _ =>
    exact (removed _ named.keepsAnnotations running reqIndex).trans (retains_preempted _ victim true)
  | preemptScheduled _ _ _ _ _ controller named victim _ _ running _ _ _ _ _ _ =>
    exact (removed _ named.keepsAnnotations running step.reqIndex).trans
      (retains_preempted _ victim true)

omit [EncoderCache E] in
theorem retains_of_waitingMove (move : WaitingMove env step next) :
    step.scheduler.Retains next.scheduler := by
  cases move with
  | leave _ | keepBest _ _ _ _ _ _ | chooseBest _ _ _ _ | chooseFirst _ _ _ _ _ _ _ => exact .refl _
  | borrow _ _ _ _ _ _ _ _ => exact .of_heap rfl rfl rfl
  | setHeadAside _ _ _ _ _ settled _ _ _ _ =>
    exact settled.retains.trans (.of_heap rfl rfl rfl)
  | chooseHead _ _ _ _ _ settled _ | chooseOrdered _ _ _ _ _ settled _ _ _ _
  | startChoosing _ _ _ _ _ _ settled _ _ _ _ | keepCandidate _ _ _ _ _ _ settled =>
    exact settled.retains
  | dropCandidate _ _ _ _ _ _ _ _ settled _ _ =>
    exact settled.retains.trans (.of_heap rfl rfl rfl)

theorem retains_of_admissionMove (move : AdmissionMove env step id name next) :
    step.scheduler.Retains next.scheduler := by
  obtain ⟨manager, controller, encoder, calls, keeps, ends⟩ := move.ends
  have charged := retains_withResources keeps manager encoder
  cases ends with
  | leave | aside rest taken deferred deferral => exact charged.trans (.of_heap rfl rfl rfl)
  | await rest taken probe chosen =>
    have queued : step.scheduler.Retains
        ((step.withResources manager controller encoder).withQueue name rest).scheduler :=
      charged.trans (.of_heap rfl rfl rfl)
    exact queued.trans (retains_modifyRequest _ probe.requestId fun _ => ⟨rfl, rfl, fun _ => rfl⟩)
  | start rest taken probe chosen newReqs resumedReqs =>
    let started := (step.withResources manager controller encoder).scheduler.modifyRequest
      probe.requestId fun request =>
        { request with
          status := .running
          numComputedTokens := probe.admission.numComputedTokens }
    have starts : step.scheduler.Retains started :=
      charged.trans (retains_modifyRequest _ probe.requestId fun _ => ⟨rfl, rfl, fun _ => rfl⟩)
    exact starts.trans (.of_heap rfl rfl rfl)

theorem retains_of_move (move : Move env step next) : step.scheduler.Retains next.scheduler := by
  cases move with
  | running move => exact retains_of_runningMove move
  | waiting move => exact retains_of_waitingMove move
  | admission id name phase move => exact retains_of_admissionMove move

end Moves

end Step

namespace Scheduler

section Calls

variable {env : StepEnvironment} {scheduler next : Scheduler M E}

omit [EncoderCache E] in
theorem retains_beginStep (env : StepEnvironment) (scheduler : Scheduler M E) :
    scheduler.Retains (scheduler.beginStep env).scheduler := by
  refine .of_heap ?_ rfl rfl
  unfold annotated beginStep
  cases scheduler.tokencakeScheduling with
  | none => rfl
  | some controller =>
    dsimp only [Option.map_some]
    rw [SchedulingController.metadata_beginStep]

omit [KVCacheManager M] [EncoderCache E] in
theorem retains_advanceRequests (advanced : advanceRequests spec entries scheduler = .ok next) :
    scheduler.Retains next := by
  induction entries generalizing scheduler with
  | nil =>
    cases advanced
    exact .refl _
  | cons entry rest ih =>
    unfold advanceRequests at advanced
    split at advanced
    · refine (retains_modifyRequest scheduler entry.1 fun request => ?_).trans (ih advanced)
      unfold advanceRequest
      dsimp only
      split <;> exact ⟨rfl, rfl, id⟩
    · cases advanced

/-- A call of `schedule` teaches the policy nothing and ends no request. -/
theorem retains_schedule (scheduled : scheduler.schedule env = .ok (output, next)) :
    scheduler.Retains next := by
  obtain ⟨final, looped, concluded⟩ := bind_eq_ok.mp scheduled
  obtain ⟨retained, _⟩ := Machine.invariant_of_loop
    (fun step following (retained : scheduler.Retains step.scheduler) continues moved =>
      retained.trans (Step.retains_of_move (Step.move_of_transition continues moved)))
    (retains_beginStep env scheduler) looped
  obtain ⟨_, _, concluded⟩ := bind_eq_ok.mp concluded
  obtain ⟨built, _, concluded⟩ := bind_eq_ok.mp concluded
  obtain ⟨updated, updating, concluded⟩ := bind_eq_ok.mp concluded
  cases concluded
  obtain ⟨advanced, advancing, updating⟩ := bind_eq_ok.mp updating
  cases updating
  have requeued : final.scheduler.Retains
      { final.requeueSkipped with
        prevStepScheduledReqIds := final.numScheduledTokens.keys
        encoderCacheManager :=
          (EncoderCache.getFreedMmHashes final.scheduler.encoderCacheManager).2 } :=
    .of_heap rfl rfl rfl
  have finished : advanced.Retains { advanced with finishedReqIds := [] } :=
    .of_heap rfl rfl rfl
  exact ((retained.trans requeued).trans (retains_advanceRequests advancing)).trans finished

end Calls

end Scheduler

open List Dict

namespace Scheduler

section Ends

variable {before after scheduler next : Scheduler M E} {id : RequestId}

section

omit [KVCacheManager M] [EncoderCache E]

/-- A change of one request that may be about to end. -/
theorem RegisteredBut.of_touches (registered : before.RegisteredBut ending)
    (touches : Touches requestId before after) (annotated : after.annotated ⊆ before.annotated)
    (uniform : (after.requestOf requestId).Uniform) :
    after.RegisteredBut (requestId :: ending) where
  uniform := by
    intro id
    by_cases same : id = requestId
    · subst same
      exact uniform
    · rw [touches.others id same]
      exact registered.uniform id
  live := by
    intro id mem absent
    rw [mem_cons, not_or] at absent
    have carries := registered.live id (annotated mem) absent.2
    exact carries.of_eq (touches.requests id absent.1).mpr (touches.others id absent.1)

/-- A request is about to end no more, if it is live or unknown to the policy. -/
theorem RegisteredBut.settle (registered : scheduler.RegisteredBut (requestId :: ending))
    (settled : requestId ∈ scheduler.annotated → scheduler.CarriesMetadata requestId) :
    scheduler.RegisteredBut ending where
  uniform := registered.uniform
  live := by
    intro id mem absent
    by_cases same : id = requestId
    · subst same
      exact settled mem
    · exact registered.live id mem (not_mem_cons_of_ne_of_not_mem same absent)

theorem RegisteredBut.dedup (registered : scheduler.RegisteredBut [requestId, requestId]) :
    scheduler.RegisteredBut [requestId] :=
  ⟨registered.uniform, fun id mem absent =>
    registered.live id mem fun twice => absent (by simpa using twice)⟩

end

omit [EncoderCache E] in
theorem annotated_blocksFreed (scheduler : Scheduler M E) (id : RequestId) :
    (scheduler.blocksFreed id).annotated = scheduler.annotated :=
  annotated_eq_of_metadata
    (fun controller => controller.release (free scheduler.kvCacheManager id))
    (fun controller => controller.metadata_release (free scheduler.kvCacheManager id)) rfl

theorem mem_annotated_released {id : RequestId} :
    id ∈ (scheduler.released requestId).annotated ↔ id ∈ scheduler.annotated ∧ id ≠ requestId := by
  unfold annotated released
  cases scheduler.tokencakeScheduling with
  | none => simp
  | some controller =>
    have sameId : (scheduler.requestOf requestId).requestId = requestId :=
      scheduler.requestHeap.requestId_object requestId
    dsimp only [Option.map_some]
    rw [SchedulingController.metadata_finish, sameId, ← mem_def, ← mem_def, mem_erase]
    exact and_comm

/-- The policy forgets a request whose blocks are released. -/
theorem annotated_freeRequest
    (freeing : scheduler.freeRequest delays requestId delayFreeBlocks = .ok next) {id : RequestId} :
    id ∈ next.annotated ↔ id ∈ scheduler.annotated ∧ id ≠ requestId := by
  obtain ⟨_, rfl | ⟨_, rfl⟩⟩ := freeRequest_eq_ok freeing
  · exact mem_annotated_released
  · rw [annotated_blocksFreed]
    exact mem_annotated_released

theorem RegisteredBut.freeRequest (registered : scheduler.RegisteredBut [requestId])
    (freeing : scheduler.freeRequest delays requestId delayFreeBlocks = .ok next) :
    next.Registered := by
  have uniform : (next.requestOf requestId).Uniform := by
    obtain ⟨_, rfl | ⟨_, rfl⟩⟩ := freeRequest_eq_ok freeing <;> exact registered.uniform requestId
  refine ((registered.of_touches (touches_freeRequest freeing) (fun id mem => ?_)
    uniform).dedup).settle fun mem => ?_
  · exact ((annotated_freeRequest freeing).mp mem).1
  · exact absurd rfl ((annotated_freeRequest freeing).mp mem).2

omit [EncoderCache E] in
theorem RegisteredBut.freeBlocks (registered : scheduler.Registered)
    (freeing : scheduler.freeBlocks requestId = .ok next) : next.Registered := by
  obtain ⟨finished, _, rfl⟩ := freeBlocks_eq_ok freeing
  refine ⟨registered.uniform, fun id mem absent => ?_⟩
  rw [annotated_blocksFreed] at mem
  have carries := registered.live id mem absent
  refine carries.of_eq (fun known => ?_) rfl
  refine (mem_erase_of_ne ?_).mpr known
  rintro rfl
  cases carries.unfinished.symm.trans finished

variable {delays : RequestId → Bool} {finishedStatus : RequestStatus}

theorem RegisteredBut.finishRequest (registered : scheduler.Registered)
    (finishing : finishRequest delays finishedStatus scheduler id = .ok next) :
    next.Registered := by
  refine RegisteredBut.freeRequest ?_ finishing
  have ended : ∀ discarded : Scheduler M E, discarded.Registered →
      (discarded.modifyRequest id fun request =>
        { request with status := finishedStatus }).RegisteredBut [id] := by
    intro discarded registered
    refine registered.of_touches (touches_modifyRequest discarded id) (Subset.refl _) ?_
    rw [requestOf_modifyRequest_self]
    exact (registered.uniform id).of_eq rfl rfl
  split
  · exact ended _ (registered.of_retains (.of_heap rfl rfl rfl))
  · exact ended _ registered

theorem RegisteredBut.finishRequests (registered : scheduler.Registered)
    (finished : scheduler.finishRequests delays requestIds finishedStatus = .ok next) :
    next.Registered := by
  obtain ⟨_, _, finished⟩ := bind_eq_ok.mp finished
  have removed : (scheduler.removeFromQueues
      (requestIds.dedup.filter scheduler.isUnfinished)).Registered :=
    registered.of_retains (.of_heap rfl rfl rfl)
  exact invariant_of_foldlM (fun _ _ _ => RegisteredBut.finishRequest) removed finished

end Ends

section Inputs

variable {scheduler next : Scheduler M E} {delays : RequestId → Bool} {request : Request}

/-- An input for a known request is annotated exactly if this request is live and annotated.
The end of a session needs no annotation. -/
def AnnotatedAlike (scheduler : Scheduler M E) (request : Request) : Prop :=
  request.requestId ∈ scheduler.requests →
    if request.isAnnotated then
      (scheduler.requestOf request.requestId).isFinished = false ∧
        (scheduler.requestOf request.requestId).isAnnotated = true
    else request.resumable = true → (scheduler.requestOf request.requestId).isAnnotated = false

instance (scheduler : Scheduler M E) (request : Request) :
    Decidable (scheduler.AnnotatedAlike request) :=
  inferInstanceAs (Decidable (_ → _))

section

omit [KVCacheManager M] [EncoderCache E]

theorem mem_annotated_associate {id : RequestId}
    (mem : id ∈ (scheduler.associate request).annotated) :
    id ∈ scheduler.annotated ∨ id = request.requestId ∧ request.isAnnotated = true := by
  unfold annotated associate at mem
  unfold annotated
  cases policy : scheduler.tokencakeScheduling with
  | none =>
    rw [policy] at mem
    exact Or.inl mem
  | some controller =>
    rw [policy] at mem
    cases labelled : request.metadata with
    | none =>
      rw [labelled] at mem
      exact Or.inl mem
    | some metadata =>
      rw [labelled] at mem
      have added : id ∈ controller.metadata.set request.requestId metadata :=
        mem_def.mpr mem
      rcases mem_set.mp added with same | old
      · refine Or.inr ⟨same, ?_⟩
        unfold Request.isAnnotated
        rw [labelled]
        rfl
      · exact Or.inl (mem_def.mp old)

theorem RegisteredBut.associate (registered : scheduler.Registered)
    (known : request.requestId ∈ scheduler.requests)
    (alike : scheduler.AnnotatedAlike request) : (scheduler.associate request).Registered where
  uniform := registered.uniform
  live := by
    intro id mem absent
    rcases mem_annotated_associate mem with old | ⟨rfl, annotated⟩
    · exact (registered.live id old absent).of_eq (fun known => known) rfl
    · have carried := alike known
      rw [if_pos annotated] at carried
      exact ⟨known, carried.1, carried.2⟩

/-- The input a request stands for is annotated as the session is. -/
theorem AnnotatedAlike.update {update : StreamingUpdate}
    (alike : scheduler.AnnotatedAlike request) (known : request.requestId ∈ scheduler.requests)
    (stands : StreamingUpdate.fromRequest request = some update) :
    update.isAnnotated = (scheduler.requestOf request.requestId).isAnnotated := by
  unfold StreamingUpdate.fromRequest at stands
  split at stands
  · next resumable =>
    cases stands
    have carried := alike known
    change request.isAnnotated = _
    split at carried
    · next annotated => rw [annotated, carried.2]
    · next ordinary =>
      rw [carried resumable]
      exact Bool.eq_false_iff.mpr ordinary
  · cases stands

end

theorem uniform_updateAsSession {update : StreamingUpdate} {session : Request}
    (uniform : session.Uniform) (alike : update.isAnnotated = session.isAnnotated)
    (updating : session.updateAsSession hasher update = .ok updated) :
    updated.Uniform ∧ updated.isAnnotated = session.isAnnotated := by
  obtain ⟨samplingParams, streamingQueue⟩ : updated.samplingParams = update.samplingParams ∧
      updated.streamingQueue = session.streamingQueue := by
    unfold Request.updateAsSession at updating
    split at updating
    · cases updating
    · cases updating
      cases hasher <;> exact ⟨rfl, rfl⟩
  have annotated : updated.isAnnotated = session.isAnnotated := by
    rw [← alike]
    unfold Request.isAnnotated Request.metadata StreamingUpdate.isAnnotated
    rw [samplingParams]
  refine ⟨fun queued mem => ?_, annotated⟩
  rw [streamingQueue] at mem
  rw [annotated]
  exact uniform queued mem

theorem RegisteredBut.addToSession (registered : scheduler.Registered)
    (known : request.requestId ∈ scheduler.requests)
    (alike : ∀ update, StreamingUpdate.fromRequest request = some update →
      update.isAnnotated = (scheduler.requestOf request.requestId).isAnnotated)
    (added : scheduler.addToSession delays request = .ok next) : next.Registered := by
  unfold Scheduler.addToSession at added
  dsimp only at added
  split at added
  · split at added
    · cases added
    · next queue streamingQueue =>
      cases added
      have before := registered.uniform request.requestId
      refine (registered.of_touches (touches_modifyRequest scheduler request.requestId)
        (Subset.refl _) ?_).settle fun mem => ?_
      · rw [requestOf_modifyRequest_self]
        intro update mem
        rcases mem_append.mp mem with old | new
        · refine before update ?_
          rw [streamingQueue]
          exact old
        · exact alike update (mem_singleton.mp new).symm
      · obtain ⟨_, unfinished, annotated⟩ :=
          registered.live request.requestId mem not_mem_nil
        refine ⟨known, ?_, ?_⟩
        · rw [requestOf_modifyRequest_self]
          exact unfinished
        · rw [requestOf_modifyRequest_self]
          exact annotated
  · split at added
    · next update stands =>
      obtain ⟨session, updating, added⟩ := bind_eq_ok.mp added
      cases added
      obtain ⟨sameId, status, object⟩ :=
        updateAsSession_eq_ok scheduler updating (scheduler.requestHeap.requestId_object _)
      obtain ⟨uniform, labels⟩ := uniform_updateAsSession
        (registered.uniform request.requestId) (alike update stands) updating
      refine (registered.of_touches (touches_storeRequest scheduler session sameId)
        (Subset.refl _) ?_).settle fun mem => ⟨known, ?_, ?_⟩
      · rw [object]
        exact uniform
      · rw [object]
        exact congrArg RequestStatus.isFinished status
      · rw [object, labels]
        exact (registered.live request.requestId mem not_mem_nil).annotated
    · exact registered.finishRequests added

theorem streamingQueue_init
    (created : Request.init hasher arguments = .ok request) : request.streamingQueue = none := by
  obtain ⟨_, _, created⟩ := bind_eq_ok.mp created
  obtain ⟨_, _, created⟩ := bind_eq_ok.mp created
  cases hasher with
  | none | some hasher =>
    cases created
    rfl

omit [KVCacheManager M] [EncoderCache E] in
theorem RegisteredBut.enter (registered : scheduler.Registered)
    (unknown : request.requestId ∉ scheduler.requests) (status : request.isFinished = false)
    (unqueued : request.streamingQueue = none) :
    ((scheduler.associate request).enter request).Registered := by
  have object : ((scheduler.associate request).enter request).requestOf request.requestId =
      request.withSession := by
    show ((scheduler.associate request).storeRequest request.withSession).requestOf
      request.requestId = _
    rw [requestOf_storeRequest, if_pos request.requestId_withSession.symm]
  have others : ∀ id, id ≠ request.requestId →
      ((scheduler.associate request).enter request).requestOf id = scheduler.requestOf id := by
    intro id different
    exact (touches_storeRequest (scheduler.associate request) request.withSession
      request.requestId_withSession).others id different
  refine ⟨fun id => ?_, fun id mem absent => ?_⟩
  · by_cases same : id = request.requestId
    · subst same
      rw [object]
      intro update queued
      unfold Request.withSession at queued
      split at queued
      · cases queued
      · rw [unqueued] at queued
        cases queued
    · rw [others id same]
      exact registered.uniform id
  · rcases mem_annotated_associate mem with old | ⟨rfl, annotated⟩
    · have carries := registered.live id old absent
      have different : id ≠ request.requestId := by
        rintro rfl
        exact unknown carries.known
      exact carries.of_eq (mem_append_left _) (others id different)
    · refine ⟨mem_append_right _ (mem_singleton_self _), ?_, ?_⟩
      · rw [object]
        exact (congrArg RequestStatus.isFinished request.status_withSession).trans status
      · have sameParams : request.withSession.samplingParams = request.samplingParams := by
          unfold Request.withSession
          split <;> rfl
        rw [object, Request.isAnnotated_eq sameParams]
        exact annotated

theorem RegisteredBut.addRequest (registered : scheduler.Registered)
    (alike : scheduler.AnnotatedAlike request)
    (created : Request.init hasher arguments = .ok request)
    (added : scheduler.addRequest delays request = .ok next) : next.Registered := by
  unfold Scheduler.addRequest at added
  split at added
  · next known =>
    exact (registered.associate known alike).addToSession known
      (fun update stands => alike.update known stands) added
  · next unknown =>
    cases added
    refine registered.enter unknown ?_ (streamingQueue_init created)
    rcases status_init created with status | status <;>
      exact congrArg RequestStatus.isFinished status

omit [KVCacheManager M] [EncoderCache E] in
theorem retains_updateDraftTokenIds
    (drafts : List (RequestId × List TokenId)) (scheduler : Scheduler M E) :
    scheduler.Retains (drafts.foldl Scheduler.updateDraftTokenIds scheduler) := by
  induction drafts generalizing scheduler with
  | nil => exact .refl _
  | cons entry rest ih =>
    refine Retains.trans ?_ (ih _)
    unfold Scheduler.updateDraftTokenIds
    split
    · exact retains_modifyRequest scheduler entry.1 fun _ => ⟨rfl, rfl, id⟩
    · exact .refl _

end Inputs

section Answers

variable {answer : ModelRunnerOutput} {output : SchedulerOutput} {scheduler next : Scheduler M E}
  {id : RequestId}

/-- The state of a session and what the policy knows are the same. -/
structure SameSession (requestId : RequestId) (before after : Scheduler M E) : Prop where
  annotated : after.annotated = before.annotated
  requests : after.requests = before.requests
  samplingParams :
    (after.requestOf requestId).samplingParams = (before.requestOf requestId).samplingParams
  streamingQueue :
    (after.requestOf requestId).streamingQueue = (before.requestOf requestId).streamingQueue

omit [KVCacheManager M] in
theorem retains_processed
    (answer : ModelRunnerOutput) (output : SchedulerOutput) (scheduler : Scheduler M E)
    (requestId : RequestId) : scheduler.Retains (scheduler.processed answer output requestId) := by
  obtain ⟨encoder, shape⟩ := processed_eq answer scheduler requestId output
  obtain ⟨_, _, own⟩ := requestOf_processed answer scheduler requestId output
  have others := (touches_processed answer scheduler requestId output).others
  rw [shape] at own others ⊢
  refine .of_change rfl rfl others ?_
  rw [own]
  exact ⟨rfl, rfl, id⟩

omit [EncoderCache E] in
theorem TakesOutput.sameSession (takes : TakesOutput answer scheduler id tokenIds stopped next) :
    SameSession id scheduler next := by
  obtain ⟨samplingParams, streamingQueue, _⟩ := takes.request
  refine ⟨?_, takes.keepsQueues.2, samplingParams, streamingQueue⟩
  cases takes <;> rfl

omit [KVCacheManager M] [EncoderCache E] in
/-- A stopped session stays uniform, and if it goes on, it stays annotated. -/
theorem HandlesStopped.session (handles : HandlesStopped scheduler id finished next)
    (uniform : (scheduler.requestOf id).Uniform) :
    next.annotated = scheduler.annotated ∧ next.requests = scheduler.requests ∧
      (next.requestOf id).Uniform ∧ (finished = false → (next.requestOf id).isFinished = false ∧
        (next.requestOf id).isAnnotated = (scheduler.requestOf id).isAnnotated) := by
  cases handles with
  | finish _ => exact ⟨rfl, rfl, uniform, nofun⟩
  | endSession rest queue =>
    refine ⟨rfl, rfl, ?_, nofun⟩
    rw [requestOf_modifyRequest_self]
    intro update queued
    refine uniform update ?_
    rw [queue]
    exact mem_cons_of_mem _ queued
  | awaitInput _ =>
    have object : ((scheduler.modifyRequest id fun request =>
        { request with status := .waitingForStreamingReq }).enqueueWaitingRequest id).requestOf id =
        { scheduler.requestOf id with status := .waitingForStreamingReq } := if_pos rfl
    rw [object]
    exact ⟨rfl, rfl, uniform.of_eq rfl rfl, fun _ => ⟨rfl, rfl⟩⟩
  | continueSession _ update rest session updated queue =>
    obtain ⟨_, status, object⟩ :=
      updateAsSession_eq_ok scheduler updated (scheduler.requestHeap.requestId_object id)
    change ((scheduler.storeRequest session).enqueueWaitingRequest id).requestOf id = _ at object
    have remaining : Request.Uniform
        { scheduler.requestOf id with streamingQueue := some rest } := by
      intro other queued
      refine uniform other ?_
      rw [queue]
      exact mem_cons_of_mem _ queued
    have alike : update.isAnnotated = (scheduler.requestOf id).isAnnotated := by
      refine uniform update ?_
      rw [queue]
      exact mem_cons_self
    obtain ⟨sessionUniform, labels⟩ := uniform_updateAsSession remaining alike updated
    rw [object]
    exact ⟨rfl, rfl, sessionUniform, fun _ =>
      ⟨congrArg RequestStatus.isFinished status, labels⟩⟩

/-- An answer that does not stop its request keeps the turn of the session. -/
theorem Answers.retains (answers : Answers answer output scheduler requestId false next) :
    scheduler.Retains next := by
  cases answers with
  | continues tokenIds taken takes next statistics =>
    have session := takes.sameSession
    have taking : (scheduler.processed answer output requestId).Retains taken := by
      refine .of_change session.annotated session.requests takes.touches.others
        ⟨session.samplingParams, session.streamingQueue, fun unfinished => ?_⟩
      rcases takes.request.2.2 with ⟨_, same⟩ | ⟨stops, _⟩
      · exact (congrArg RequestStatus.isFinished same).trans unfinished
      · cases stops
    have until_ := (retains_processed answer output scheduler requestId).trans taking
    rcases statistics with rfl | rfl
    · exact until_
    · exact until_.trans (retains_modifyRequest taken requestId fun _ => ⟨rfl, rfl, id⟩)

omit [KVCacheManager M] [EncoderCache E] in
theorem RegisteredBut.judge {taken : Scheduler M E} (registered : taken.RegisteredBut [id])
    (verdict : judged = taken ∨ judged = taken.grammarRejected id) :
    judged.RegisteredBut [id] ∧ SameSession id taken judged := by
  rcases verdict with rfl | rfl
  · exact ⟨registered, rfl, rfl, rfl, rfl⟩
  · have session : SameSession id taken (taken.grammarRejected id) := by
      refine ⟨rfl, rfl, ?_, ?_⟩ <;> unfold grammarRejected <;> rw [requestOf_modifyRequest_self]
    refine ⟨(registered.of_touches (touches_modifyRequest taken id)
      (Subset.refl _) ?_).dedup, session⟩
    exact (registered.uniform id).of_eq session.samplingParams session.streamingQueue

theorem RegisteredBut.answers (registered : scheduler.Registered)
    (answers : Answers answer output scheduler requestId stops next) : next.Registered := by
  cases answers with
  | continues tokenIds taken takes next statistics =>
    exact registered.of_retains (Answers.continues tokenIds taken takes next statistics).retains
  | stops tokenIds stopped taken takes judged verdict finished handled handles next frees =>
    have processed := registered.of_retains (retains_processed answer output scheduler requestId)
    have session := takes.sameSession
    have takenBut : taken.RegisteredBut [requestId] :=
      processed.of_touches takes.touches (session.annotated ▸ Subset.refl _)
        ((processed.uniform requestId).of_eq session.samplingParams session.streamingQueue)
    obtain ⟨judgedBut, judgedSession⟩ := takenBut.judge
      (verdict.imp And.right fun rejects => rejects.2.2)
    obtain ⟨annotated, requests, uniform, goesOn⟩ :=
      handles.session (judgedBut.uniform requestId)
    have handledBut : handled.RegisteredBut [requestId] :=
      (judgedBut.of_touches handles.touches (annotated ▸ Subset.refl _) uniform).dedup
    have freed : next.Registered := by
      rcases frees with ⟨unfinished, rfl⟩ | ⟨_, freeing⟩
      · refine handledBut.settle fun mem => ?_
        rw [annotated, judgedSession.annotated, session.annotated] at mem
        have carries := processed.live requestId mem nofun
        refine ⟨?_, (goesOn unfinished).1, ?_⟩
        · rw [requests, judgedSession.requests, session.requests]
          exact carries.known
        · rw [(goesOn unfinished).2, Request.isAnnotated_eq judgedSession.samplingParams,
            Request.isAnnotated_eq session.samplingParams]
          exact carries.annotated
      · exact handledBut.freeRequest freeing
    exact freed.of_retains (retains_modifyRequest next requestId fun _ => ⟨rfl, rfl, id⟩)

theorem RegisteredBut.visit {update : OutputUpdate M E} (registered : update.scheduler.Registered)
    (visited : update.visit answer output failedKvLoadReqIds entry = .ok updated) :
    updated.scheduler.Registered := by
  obtain ⟨_, _, visited⟩ := bind_eq_ok.mp visited
  split at visited
  · cases visited
    exact registered
  · obtain ⟨stops, answered, answers, rfl⟩ := answers_of_apply visited
    have after := registered.answers answers
    split
    · unfold OutputUpdate.recordStopped
      split <;> exact after
    · exact after

omit [EncoderCache E] in
theorem retains_handleFailedLoads
    (handling : scheduler.handleFailedLoads answer output = .ok (failedKvLoadReqIds, next)) :
    scheduler.Retains next := by
  obtain ⟨recomputes, heap, manager, failed, _, rfl⟩ := handleFailedLoads_eq_ok handling
  refine ⟨Subset.refl _, rfl, fun id => ?_⟩
  obtain ⟨numComputed, object⟩ := recomputes id
  rw [object]
  exact ⟨rfl, rfl, fun unfinished => unfinished⟩

/-- The answer to a step keeps the annotations registered. -/
theorem RegisteredBut.updateFromOutput (registered : scheduler.Registered)
    (updated : scheduler.updateFromOutput answer output = .ok next) : next.Registered := by
  obtain ⟨⟨failed, handled⟩, handling, updated⟩ := bind_eq_ok.mp updated
  obtain ⟨visited, visiting, updated⟩ := bind_eq_ok.mp updated
  obtain ⟨ended, ending, updated⟩ := bind_eq_ok.mp updated
  have loaded := registered.of_retains (retains_handleFailedLoads handling)
  have answered : visited.scheduler.Registered :=
    invariant_of_foldlM (fun _ _ _ => RegisteredBut.visit) loaded visiting
  have removed : visited.removeStopped.Registered := answered.of_retains (.of_heap rfl rfl rfl)
  have afterLoads : ended.Registered := by
    rcases endFailedLoads_eq_ok ending with rfl | finished
    · exact removed
    · exact removed.finishRequests finished
  split at updated
  · cases updated
    exact afterLoads
  · refine invariant_of_updateFromKvXferFinished RegisteredBut.freeBlocks (fun _ kept => ?_)
      afterLoads updated
    exact kept.of_retains (.of_heap rfl rfl rfl)

end Answers

end Scheduler

end TokenCake
