import Mathlib.Data.List.Perm.Subperm
import TokenCake.Scheduler.OutputMoves
import TokenCake.Scheduler.Statuses

/-!
# Queues agree with statuses

Every operation of the scheduler keeps the queues duplicate-free, with waiting
requests in the waiting queues and running requests in the running list.
-/

namespace TokenCake

open KVCacheManager RequestQueue Step
open List hiding removeAll

variable {M E : Type} [KVCacheManager M] [EncoderCache E] {answer : ModelRunnerOutput}
  {output : SchedulerOutput} {entries : List (RequestId × Int)}

namespace Scheduler

/-- The queues of a scheduler agree with the statuses of its requests. -/
def Sound (scheduler : Scheduler M E) : Prop :=
  scheduler.SoundQueues (scheduler.waiting ++ scheduler.skippedWaiting) scheduler.running

section Lists

variable {before after : Scheduler M E} {id : RequestId}
  {queued running queued' running' : List RequestId}

section

variable (sound : before.SoundQueues queued running)

include sound

section

omit [KVCacheManager M] [EncoderCache E]

/-- One request is moved between the queues or changed. -/
theorem SoundQueues.of_moved
    (known : ∀ id, id ≠ requestId → id ∈ before.requests → id ∈ after.requests)
    (others : ∀ id, id ≠ requestId → after.requestOf id = before.requestOf id)
    (queues : ∀ id, id ≠ requestId → queued'.count id ≤ queued.count id)
    (runnings : ∀ id, id ≠ requestId → running'.count id ≤ running.count id)
    (halted : requestId ∉ running')
    (once : requestId ∉ queued' ∨ queued'.count requestId = 1 ∧ after.Waits requestId) :
    after.SoundQueues queued' running' := by
  have separate := nodup_iff_count_le_one.mp sound.separate
  simp only [count_append] at separate
  refine ⟨?_, ?_, ?_⟩
  · refine nodup_iff_count_le_one.mpr fun id => ?_
    rw [count_append]
    by_cases same : id = requestId
    · subst same
      rw [count_eq_zero_of_not_mem halted]
      rcases once with absent | ⟨single, _⟩
      · rw [count_eq_zero_of_not_mem absent]
        omega
      · omega
    · have bound := separate id
      have fewerQueued := queues id same
      have fewerRunning := runnings id same
      omega
  · intro id mem
    by_cases same : id = requestId
    · subst same
      exact (once.resolve_left fun absent => absent mem).2
    · have listed : id ∈ queued :=
        count_pos_iff.mp ((count_pos_iff.mpr mem).trans_le (queues id same))
      exact (sound.waits id listed).of_eq (known id same) (others id same)
  · intro id mem
    have different : id ≠ requestId := ne_of_mem_of_not_mem mem halted
    have listed : id ∈ running :=
      count_pos_iff.mp ((count_pos_iff.mpr mem).trans_le (runnings id different))
    exact (sound.runs id listed).of_eq (known id different) (others id different)

/-- Requests leave the queues. -/
theorem SoundQueues.shrink (queues : ∀ id, queued'.count id ≤ queued.count id)
    (runnings : ∀ id, running'.count id ≤ running.count id) :
    before.SoundQueues queued' running' := by
  have queues := subperm_iff_count.mpr queues
  have runnings := subperm_iff_count.mpr runnings
  obtain ⟨ordered, perm, sublist⟩ := queues.append runnings
  exact ⟨perm.nodup_iff.mp (sound.separate.sublist sublist),
    fun id mem => sound.waits id (queues.subset mem), fun id mem => sound.runs id (runnings.subset mem)⟩

theorem SoundQueues.of_promotes
    (promotes : before.Promotes after) : after.SoundQueues queued running :=
  ⟨sound.separate, fun id mem => promotes.waits (sound.waits id mem),
    fun id mem => promotes.runs (sound.runs id mem)⟩

/-- A request with a finished status is in no queue. -/
theorem SoundQueues.notMem_of_finished (finished : (before.requestOf id).status.isFinished = true) :
    id ∉ queued ∧ id ∉ running := by
  refine ⟨fun mem => ?_, fun mem => ?_⟩
  · rw [(sound.waits id mem).unfinished] at finished
    cases finished
  · rw [(sound.runs id mem).status] at finished
    cases finished

/-- A change of a request that is in no queue. -/
theorem SoundQueues.of_touches (touches : Touches requestId before after)
    (absent : requestId ∉ queued ∧ requestId ∉ running) : after.SoundQueues queued running :=
  sound.of_moved (fun id different => (touches.requests id different).mpr) touches.others
    (fun _ _ => le_rfl) (fun _ _ => le_rfl) absent.2 (.inl absent.1)

end

end

end Lists

section Call

variable {env : StepEnvironment} {scheduler : Scheduler M E}

omit [EncoderCache E] in
theorem statusInvariant_beginStep (env : StepEnvironment)
    (sound : scheduler.Sound) : (scheduler.beginStep env).StatusInvariant where
  waits := by
    intro id mem
    have queued : id ∈ scheduler.waiting ++ scheduler.skippedWaiting ++ [] := mem
    rw [append_nil] at queued
    exact (sound.waits id queued).of_eq (·) rfl
  runs := fun id mem => (sound.runs id mem).of_eq (·) rfl
  ready := nofun

/-- What holds in every state of a call that starts with sound queues. -/
theorem statusInvariant_of_transition (separate : scheduler.live.Nodup)
    (step next : Step M E) (invariant : scheduler.CallInvariant step ∧ step.StatusInvariant)
    (continues : step.isDone = false) (moved : step.transition env = .ok next) :
    scheduler.CallInvariant next ∧ next.StatusInvariant :=
  ⟨callInvariant_of_transition separate step next invariant.1 continues moved,
    invariant.2.of_move separate invariant.1.1 (move_of_transition continues moved)⟩

variable {next : Scheduler M E}

omit [KVCacheManager M] [EncoderCache E] in
theorem promotes_advanceRequests (advanced : advanceRequests spec entries scheduler = .ok next) :
    scheduler.Promotes next := by
  induction entries generalizing scheduler with
  | nil =>
    cases advanced
    exact .of_statuses rfl fun _ => rfl
  | cons entry rest ih =>
    unfold advanceRequests at advanced
    split at advanced
    · have later := ih advanced
      refine ⟨later.requests, fun id => ?_⟩
      rw [← scheduler.status_modifyRequest (fun request => ?_) id]
      · exact later.status id
      · unfold advanceRequest
        dsimp only
        split <;> rfl
    · cases advanced

/-- A call keeps the queues sound. -/
theorem Sound.schedule (sound : scheduler.Sound)
    (scheduled : scheduler.schedule env = .ok (output, next)) : next.Sound := by
  have conserved := live_perm_of_schedule sound.separate scheduled
  obtain ⟨final, looped, concluded⟩ := bind_eq_ok.mp scheduled
  obtain ⟨⟨_, invariant⟩, _⟩ := Machine.invariant_of_loop
    (statusInvariant_of_transition sound.separate)
    ⟨callInvariant_beginStep env scheduler, statusInvariant_beginStep env sound⟩
    looped
  obtain ⟨_, _, concluded⟩ := bind_eq_ok.mp concluded
  obtain ⟨built, _, concluded⟩ := bind_eq_ok.mp concluded
  obtain ⟨updated, updating, concluded⟩ := bind_eq_ok.mp concluded
  cases concluded
  obtain ⟨advanced, advancing, updating⟩ := bind_eq_ok.mp updating
  cases updating
  have promotes := promotes_advanceRequests advancing
  obtain ⟨heap, rfl⟩ := advanceRequests_eq_ok advancing
  refine ⟨conserved.nodup_iff.mpr sound.separate, fun id mem => ?_, fun id mem => ?_⟩
  · have requeued := prependRequests_perm final.scheduler.config.policy
      final.scheduler.lt final.scheduler.skippedWaiting final.stepSkippedWaiting
    have listed : id ∈ final.unstarted := by
      rcases mem_append.mp mem with waiting | skipped
      · exact mem_append_left _ (mem_append_left _ waiting)
      · rcases mem_append.mp (requeued.mem_iff.mp skipped) with aside | skipped
        · exact mem_append_right _ aside
        · exact mem_append_left _ (mem_append_right _ skipped)
    exact (promotes.waits ((invariant.waits id listed).of_eq (·) rfl)).of_eq (·) rfl
  · exact (promotes.runs ((invariant.runs id mem).of_eq (·) rfl)).of_eq (·) rfl

/-- With sound queues no chosen request has an invalid status. -/
theorem Sound.schedule_ne_invalidRequestStatus (sound : scheduler.Sound) (env : StepEnvironment) :
    scheduler.schedule env ≠ .error .invalidRequestStatus := by
  intro failed
  have harmless : Harmless fun failure => failure = .invalidRequestStatus :=
    ⟨nofun, nofun, nofun, nofun⟩
  rcases bind_eq_error.mp failed with looped | ⟨step, _, concluded⟩
  · obtain ⟨last, ⟨invariant, statuses⟩, _, stuck⟩ := Machine.loop_eq_error
      (statusInvariant_of_transition sound.separate) (remaining scheduler.live.length)
      (fun step next invariant continues moved =>
        (remaining_lt_of_move invariant.1.1 invariant.1.2 (move_of_transition continues moved)).2)
      ⟨callInvariant_beginStep env scheduler, statusInvariant_beginStep env sound⟩
      (remaining_beginStep_lt env scheduler) looped
    exact avoids_transition harmless invariant.1
      (fun _ _ _ => statuses.recordable) nofun _ stuck rfl
  · exact avoids_conclude harmless step _ concluded rfl

end Call

section Finishing

variable {delays : RequestId → Bool} {finishedStatus : RequestStatus}
  {scheduler next : Scheduler M E}

theorem count_removeAll_le (items removed : List RequestId) (id : RequestId) :
    (removeAll items removed).count id ≤ items.count id := by
  unfold removeAll
  split
  · exact le_rfl
  · exact (erase_sublist).count_le id
  · exact (filter_sublist).count_le id

/-- A queue is filtered only if there is something to remove. -/
theorem count_removed_le (policy : SchedulingPolicy) (lt : RequestId → RequestId → Bool)
    (queue : RequestQueue) (ids : List RequestId) (id : RequestId) :
    (if ids.isEmpty then queue else removeRequests policy lt queue ids).count id ≤
      if id ∈ ids then 0 else queue.count id := by
  split
  · next empty =>
    rw [List.isEmpty_iff.mp empty, if_neg not_mem_nil]
  · split
    · next listed =>
      rw [count_eq_zero_of_not_mem]
      rw [mem_removeRequests]
      exact fun kept => kept.2 listed
    · unfold removeRequests
      rw [(relayout_perm _ _ _).count_eq]
      exact (filter_sublist).count_le id

/-- Removed items are gone, also on the fast path. -/
theorem notMem_removeAll {items removed : List RequestId} {id : RequestId} (nodup : items.Nodup)
    (listed : id ∈ removed) : id ∉ removeAll items removed := by
  unfold removeAll
  split
  · cases listed
  · rw [mem_singleton.mp listed]
    exact nodup.not_mem_erase
  · simp [listed]

variable {id : RequestId}

/-- Finishing a request concerns this request only and leaves the queues alone. -/
theorem finishRequest_eq_ok
    (finishing : finishRequest delays finishedStatus scheduler id = .ok next) :
    Touches id scheduler next ∧ next.waiting = scheduler.waiting ∧
      next.skippedWaiting = scheduler.skippedWaiting := by
  unfold finishRequest at finishing
  obtain ⟨_, shape⟩ := freeRequest_eq_ok finishing
  have touched := touches_freeRequest finishing
  split at touched
  · rw [if_pos (by assumption)] at shape
    refine ⟨Touches.trans ?_ touched, ?_⟩
    · exact ⟨rfl, rfl, fun _ different => if_neg different, fun _ _ => Iff.rfl⟩
    · rcases shape with rfl | ⟨_, rfl⟩ <;> exact ⟨rfl, rfl⟩
  · rw [if_neg (by assumption)] at shape
    refine ⟨Touches.trans (touches_modifyRequest scheduler id) touched, ?_⟩
    rcases shape with rfl | ⟨_, rfl⟩ <;> exact ⟨rfl, rfl⟩

section

variable (sound : scheduler.Sound)

include sound

omit [KVCacheManager M] [EncoderCache E] in
theorem Sound.of_touches (touches : Touches id scheduler next)
    (waiting : next.waiting = scheduler.waiting)
    (skipped : next.skippedWaiting = scheduler.skippedWaiting)
    (absent : id ∉ scheduler.live) : next.Sound := by
  unfold Sound
  rw [waiting, skipped, touches.running]
  unfold live at absent
  rw [mem_append, not_or] at absent
  exact SoundQueues.of_touches sound touches absent

theorem Sound.finishEach {ids : List RequestId} (absent : ∀ id ∈ ids, id ∉ scheduler.live)
    (finished : ids.foldlM (finishRequest delays finishedStatus) scheduler =
      .ok next) : next.Sound := by
  induction ids generalizing scheduler with
  | nil =>
    cases finished
    exact sound
  | cons requestId rest ih =>
    rw [foldlM_cons] at finished
    obtain ⟨first, finishing, finished⟩ := bind_eq_ok.mp finished
    obtain ⟨touches, waiting, skipped⟩ := finishRequest_eq_ok finishing
    have live : first.live = scheduler.live := by
      unfold Scheduler.live
      rw [waiting, skipped, touches.running]
    refine ih (sound.of_touches touches waiting skipped
      (absent requestId mem_cons_self)) (fun id mem => ?_) finished
    rw [live]
    exact absent id (mem_cons_of_mem _ mem)

omit [KVCacheManager M] [EncoderCache E] in
/-- Requests that are taken out of their queues are in no queue. -/
theorem Sound.removeFromQueues (valid : List RequestId) :
    (scheduler.removeFromQueues valid).Sound ∧
      ∀ id ∈ valid, id ∉ (scheduler.removeFromQueues valid).live := by
  let halted := valid.filter fun id => !scheduler.hasRunningStatus id
  have removed := fun queue => count_removed_le scheduler.config.policy scheduler.lt queue halted
  have shrunk : (scheduler.removeFromQueues valid).Sound := by
    refine SoundQueues.shrink (SoundQueues.of_promotes sound
      (Promotes.of_statuses rfl fun _ => rfl)) (fun id => ?_) (count_removeAll_le _ _)
    rw [count_append, count_append]
    refine Nat.add_le_add ((removed _ id).trans ?_) ((removed _ id).trans ?_) <;> split <;> omega
  refine ⟨shrunk, fun id mem listed => ?_⟩
  rcases mem_append.mp listed with queued | running
  · have status : scheduler.hasRunningStatus id = false :=
      decide_eq_false (shrunk.waits id queued).halted
    have chosen : id ∈ halted := by
      rw [mem_filter, status]
      exact ⟨mem, rfl⟩
    have gone : ∀ queue : RequestQueue, id ∉ (if halted.isEmpty then queue
        else removeRequests scheduler.config.policy scheduler.lt queue halted) := by
      intro queue
      have none := removed queue id
      rw [if_pos chosen] at none
      exact count_eq_zero.mp (Nat.le_zero.mp none)
    exact (mem_append.mp queued).elim (gone _) (gone _)
  · have status : scheduler.hasRunningStatus id = true :=
      decide_eq_true (shrunk.runs id running).status
    have chosen : id ∈ valid.filter scheduler.hasRunningStatus := mem_filter.mpr ⟨mem, status⟩
    have nodup : scheduler.running.Nodup := sound.separate.sublist (sublist_append_right _ _)
    exact notMem_removeAll nodup chosen running

theorem Sound.finishRequests (finished : scheduler.finishRequests delays requestIds finishedStatus =
      .ok next) : next.Sound := by
  obtain ⟨_, _, finished⟩ := bind_eq_ok.mp finished
  obtain ⟨shrunk, absent⟩ := sound.removeFromQueues (requestIds.dedup.filter scheduler.isUnfinished)
  exact shrunk.finishEach absent finished

end

end Finishing

section Adding

variable {delays : RequestId → Bool} {scheduler next : Scheduler M E}

section

omit [KVCacheManager M] [EncoderCache E]

/-- A request is put into one of the two queues. -/
theorem enqueueWaitingRequest_perm (scheduler : Scheduler M E) (id : RequestId) :
    ((scheduler.enqueueWaitingRequest id).waiting.Perm (id :: scheduler.waiting) ∧
        (scheduler.enqueueWaitingRequest id).skippedWaiting = scheduler.skippedWaiting) ∨
      ((scheduler.enqueueWaitingRequest id).waiting = scheduler.waiting ∧
        (scheduler.enqueueWaitingRequest id).skippedWaiting.Perm
          (id :: scheduler.skippedWaiting)) := by
  unfold enqueueWaitingRequest
  split
  · exact .inr ⟨rfl, addRequest_perm _ _ _ _⟩
  · exact .inl ⟨addRequest_perm _ _ _ _, rfl⟩

theorem queued_enqueueWaitingRequest_perm (scheduler : Scheduler M E) (id : RequestId) :
    ((scheduler.enqueueWaitingRequest id).waiting ++
        (scheduler.enqueueWaitingRequest id).skippedWaiting).Perm
      (id :: (scheduler.waiting ++ scheduler.skippedWaiting)) := by
  rcases enqueueWaitingRequest_perm scheduler id with ⟨added, same⟩ | ⟨same, added⟩
  · rw [same]
    exact added.append_right _
  · rw [same]
    exact (added.append_left _).trans perm_middle

end

variable {request : Request} {arguments : Request.Arguments} {hasher : Option BlockHasher}

theorem status_init (created : Request.init hasher arguments = .ok request) :
    request.status = .waiting ∨ request.status = .waitingForStructuredOutputGrammar := by
  obtain ⟨⟨maxTokens, status⟩, limits, created⟩ := bind_eq_ok.mp created
  obtain ⟨numPromptTokens, _, created⟩ := bind_eq_ok.mp created
  have initial : status = .waiting ∨ status = .waitingForStructuredOutputGrammar := by
    unfold Request.limits at limits
    split at limits
    · cases limits
      exact .inl rfl
    · cases limits
      split
      · exact .inr rfl
      · exact .inl rfl
    · cases limits
  cases hasher with
  | none | some hasher =>
    cases created
    exact initial

omit [KVCacheManager M] [EncoderCache E] in
theorem Sound.enter (sound : scheduler.Sound) (unknown : request.requestId ∉ scheduler.requests)
    (status : request.status = .waiting ∨ request.status = .waitingForStructuredOutputGrammar) :
    (scheduler.enter request).Sound := by
  have absentQueued : request.requestId ∉ scheduler.waiting ++ scheduler.skippedWaiting :=
    fun mem => unknown (sound.waits _ mem).known
  have absentRunning : request.requestId ∉ scheduler.running :=
    fun mem => unknown (sound.runs _ mem).known
  have stored := touches_storeRequest scheduler request.withSession request.requestId_withSession
  have added := queued_enqueueWaitingRequest_perm (scheduler.storeRequest request.withSession)
    request.requestId
  refine SoundQueues.of_moved sound (fun id _ mem => mem_append_left _ mem)
    stored.others (fun id different => ?_) (fun _ _ => le_rfl) absentRunning (.inr ⟨?_, ?_⟩)
  · show ((Scheduler.enqueueWaitingRequest _ _).waiting ++
      (Scheduler.enqueueWaitingRequest _ _).skippedWaiting).count id ≤ _
    rw [added.count_eq, count_cons_of_ne different.symm]
    exact le_rfl
  · show ((Scheduler.enqueueWaitingRequest _ _).waiting ++
      (Scheduler.enqueueWaitingRequest _ _).skippedWaiting).count _ = 1
    rw [added.count_eq, count_cons_self]
    rw [show ((scheduler.storeRequest request.withSession).waiting ++
      (scheduler.storeRequest request.withSession).skippedWaiting).count request.requestId = 0
        from count_eq_zero_of_not_mem absentQueued]
  · have object : ((scheduler.enter request).requestOf request.requestId).status =
        request.status := by
      show ((scheduler.storeRequest request.withSession).requestOf request.requestId).status = _
      rw [requestOf_storeRequest, if_pos request.requestId_withSession.symm,
        Request.status_withSession]
    have known : request.requestId ∈ scheduler.requests ++ [request.requestId] :=
      mem_append_right _ (mem_singleton_self _)
    rcases status with status | status <;>
      exact .of_status known (object.trans status) rfl nofun

theorem Sound.addToSession (sound : scheduler.Sound)
    (added : scheduler.addToSession delays request = .ok next) : next.Sound := by
  unfold Scheduler.addToSession at added
  dsimp only at added
  split at added
  · split at added
    · cases added
    · cases added
      exact SoundQueues.of_promotes sound
        (.of_statuses rfl (scheduler.status_modifyRequest fun _ => rfl))
  · next streaming =>
    have streaming : (scheduler.requestOf request.requestId).status =
        .waitingForStreamingReq := not_not.mp streaming
    split at added
    · next update fromRequest =>
      obtain ⟨session, updating, added⟩ := bind_eq_ok.mp added
      cases added
      obtain ⟨sameId, status, object⟩ :=
        updateAsSession_eq_ok scheduler updating (scheduler.requestHeap.requestId_object _)
      refine SoundQueues.of_promotes sound ?_
      refine .of_change rfl (touches_storeRequest scheduler session sameId).others ?_ ?_
      · rw [streaming]
        rfl
      · rw [object]
        exact .inl status
    · exact sound.finishRequests added

theorem Sound.addRequest (sound : scheduler.Sound)
    (created : Request.init hasher arguments = .ok request)
    (added : scheduler.addRequest delays request = .ok next) : next.Sound := by
  have associated : (scheduler.associate request).Sound :=
    SoundQueues.of_promotes sound (.of_statuses rfl fun _ => rfl)
  unfold Scheduler.addRequest at added
  split at added
  · exact associated.addToSession added
  · next unknown =>
    cases added
    exact associated.enter unknown (status_init created)

omit [KVCacheManager M] [EncoderCache E] in
theorem Sound.updateDraftTokenIds (drafts : List (RequestId × List TokenId))
    (sound : scheduler.Sound) : (drafts.foldl Scheduler.updateDraftTokenIds scheduler).Sound := by
  induction drafts generalizing scheduler with
  | nil => exact sound
  | cons entry rest ih =>
    refine ih ?_
    unfold Scheduler.updateDraftTokenIds
    split
    · exact SoundQueues.of_promotes sound
        (.of_statuses rfl (scheduler.status_modifyRequest fun _ => rfl))
    · exact sound

end Adding

section Answering

variable {scheduler next : Scheduler M E} {id : RequestId}

/-- The queues do not change. -/
structure KeepsQueues (before after : Scheduler M E) : Prop where
  waiting : after.waiting = before.waiting
  skippedWaiting : after.skippedWaiting = before.skippedWaiting

omit [KVCacheManager M] in
theorem keepsQueues_processed (answer : ModelRunnerOutput) (output : SchedulerOutput)
    (scheduler : Scheduler M E) (id : RequestId) :
    scheduler.KeepsQueues (scheduler.processed answer output id) ∧
      (scheduler.processed answer output id).requests = scheduler.requests := by
  obtain ⟨encoder, shape⟩ := processed_eq answer scheduler id output
  rw [shape]
  exact ⟨⟨rfl, rfl⟩, rfl⟩

omit [KVCacheManager M] [EncoderCache E] in
theorem KeepsQueues.trans (first : scheduler.KeepsQueues middle)
    (second : middle.KeepsQueues next) : scheduler.KeepsQueues next :=
  ⟨second.waiting.trans first.waiting, second.skippedWaiting.trans first.skippedWaiting⟩

variable {tokenIds : List TokenId} {stopped : Bool}

variable (takes : TakesOutput answer scheduler id tokenIds stopped next)

include takes in
omit [EncoderCache E] in
theorem TakesOutput.keepsQueues :
    scheduler.KeepsQueues next ∧ next.requests = scheduler.requests := by
  cases takes with
  | discard _ | append _ _ _ _ _ _ _ | appendExpected _ _ _ _ _ _ _ _ _ _ _ | pool _ _ | nothing =>
    exact ⟨⟨rfl, rfl⟩, rfl⟩

include takes in
omit [EncoderCache E] in
/-- The output of a request keeps its parameters and its inputs, and changes its status
exactly if the request stops. -/
theorem TakesOutput.request :
    (next.requestOf id).samplingParams = (scheduler.requestOf id).samplingParams ∧
      (next.requestOf id).streamingQueue = (scheduler.requestOf id).streamingQueue ∧
      (stopped = false ∧ (next.requestOf id).status = (scheduler.requestOf id).status ∨
        stopped = true ∧ (next.requestOf id).status.isFinished = true) := by
  cases takes with
  | discard _ =>
    rw [requestOf_modifyRequest_self]
    exact ⟨rfl, rfl, .inl ⟨rfl, rfl⟩⟩
  | append _ _ _ updated appended _ _ =>
    obtain ⟨_, _, _, _, _, rfl, outcome⟩ := Request.appendUntilStop_eq_ok appended
    rw [requestOf_storeRequest, if_pos (scheduler.requestHeap.requestId_object id).symm]
    exact ⟨rfl, rfl, outcome⟩
  | appendExpected _ _ _ updated appended _ _ numPlaceholders _ manager _ =>
    obtain ⟨_, _, _, _, _, rfl, outcome⟩ := Request.appendUntilStop_eq_ok appended
    show (ite _ _ _ : Request).samplingParams = _ ∧ (ite _ _ _ : Request).streamingQueue = _ ∧
      (_ ∧ (ite _ _ _ : Request).status = _ ∨ _ ∧ (ite _ _ _ : Request).status.isFinished = _)
    rw [if_pos (scheduler.requestHeap.requestId_object id).symm]
    exact ⟨rfl, rfl, outcome⟩
  | pool _ _ =>
    rw [requestOf_modifyRequest_self]
    exact ⟨rfl, rfl, .inr ⟨rfl, rfl⟩⟩
  | nothing => exact ⟨rfl, rfl, .inl ⟨rfl, rfl⟩⟩

/-- A request that goes on keeps its status and its place. -/
theorem Answers.of_continues (answers : Answers answer output scheduler requestId false next) :
    scheduler.KeepsQueues next ∧ scheduler.Promotes next := by
  have touches := answers.touches
  cases answers with
  | continues tokenIds taken takes next statistics =>
    obtain ⟨processedQueues, processedRequests⟩ :=
      keepsQueues_processed answer output scheduler requestId
    obtain ⟨takenQueues, takenRequests⟩ := takes.keepsQueues
    obtain ⟨_, _, processed⟩ := requestOf_processed answer scheduler requestId output
    have status : (taken.requestOf requestId).status = (scheduler.requestOf requestId).status := by
      rcases takes.request.2.2 with ⟨_, same⟩ | ⟨stops, _⟩
      · rw [same, processed]
        rfl
      · cases stops
    have unchanged : ∀ id, (next.requestOf id).status = (scheduler.requestOf id).status := by
      intro id
      by_cases same : id = requestId
      · subst same
        rcases statistics with rfl | rfl
        · exact status
        · unfold takePrefillStats
          rw [requestOf_modifyRequest_self]
          exact status
      · rw [touches.others id same]
    have queues := processedQueues.trans takenQueues
    rcases statistics with rfl | rfl <;>
      exact ⟨⟨queues.waiting, queues.skippedWaiting⟩,
        .of_statuses (takenRequests.trans processedRequests) unchanged⟩

omit [KVCacheManager M] [EncoderCache E] in
theorem waits_of_requeued (known : id ∈ scheduler.requests)
    (status : (scheduler.requestOf id).status = .waiting ∨
      (scheduler.requestOf id).status = .waitingForStreamingReq) :
    ((scheduler.enqueueWaitingRequest id).takePrefillStats id).Waits id := by
  have object : (((scheduler.enqueueWaitingRequest id).takePrefillStats
      id).requestOf id).status = (scheduler.requestOf id).status := by
    unfold takePrefillStats
    rw [requestOf_modifyRequest_self]
    rfl
  rcases status with status | status <;> exact .of_status known (object.trans status) rfl nofun

/-- A stopped request leaves the scheduler or is queued once more. -/
theorem Answers.of_stops (answers : Answers answer output scheduler id true next) :
    scheduler.KeepsQueues next ∨ (id ∈ scheduler.requests → next.Waits id) ∧
        ((next.waiting.Perm (id :: scheduler.waiting) ∧
            next.skippedWaiting = scheduler.skippedWaiting) ∨ (next.waiting = scheduler.waiting ∧
            next.skippedWaiting.Perm (id :: scheduler.skippedWaiting))) := by
  cases answers with
  | stops tokenIds stopped taken takes judged verdict finished handled handles next frees =>
    obtain ⟨processedQueues, processedRequests⟩ :=
      keepsQueues_processed answer output scheduler id
    obtain ⟨takenQueues, takenRequests⟩ := takes.keepsQueues
    have queues := processedQueues.trans takenQueues
    obtain ⟨judgedWaiting, judgedSkipped, judgedRequests⟩ :
        judged.waiting = scheduler.waiting ∧ judged.skippedWaiting = scheduler.skippedWaiting ∧
          judged.requests = scheduler.requests := by
      rcases verdict with ⟨_, rfl⟩ | ⟨_, _, rfl⟩ <;>
        exact ⟨queues.waiting, queues.skippedWaiting, takenRequests.trans processedRequests⟩
    have freed : finished = true → next.waiting = handled.waiting ∧
        next.skippedWaiting = handled.skippedWaiting := by
      intro isFinished
      rcases frees with ⟨unfinished, _⟩ | ⟨_, freeing⟩
      · cases isFinished.symm.trans unfinished
      · obtain ⟨_, rfl | ⟨_, rfl⟩⟩ := freeRequest_eq_ok freeing <;> exact ⟨rfl, rfl⟩
    cases handles with
    | finish single | endSession rest =>
      obtain ⟨waiting, skipped⟩ := freed rfl
      exact .inl ⟨waiting.trans judgedWaiting, skipped.trans judgedSkipped⟩
    | awaitInput resumable =>
      obtain ⟨_, rfl⟩ := frees.resolve_right (fun ended => nomatch ended.1)
      refine .inr ⟨fun known => waits_of_requeued ?_ ?_, ?_⟩
      · rw [← judgedRequests] at known
        exact known
      · rw [requestOf_modifyRequest_self]
        exact .inr rfl
      · rw [← judgedWaiting, ← judgedSkipped]
        exact enqueueWaitingRequest_perm _ id
    | continueSession resumable update rest session updated =>
      obtain ⟨_, rfl⟩ := frees.resolve_right (fun ended => nomatch ended.1)
      obtain ⟨_, status, object⟩ :=
        updateAsSession_eq_ok judged updated (judged.requestHeap.requestId_object id)
      refine .inr ⟨fun known => waits_of_requeued ?_ ?_, ?_⟩
      · rw [← judgedRequests] at known
        exact known
      · rw [object]
        exact .inl status
      · rw [← judgedWaiting, ← judgedSkipped]
        exact enqueueWaitingRequest_perm _ id

include takes in
omit [EncoderCache E] in
theorem TakesOutput.stopsBy
    (reason : stopped = true ∨ tokenIds ≠ [] ∧ answer.grammarRejects id = true) :
    (scheduler.requestOf id).stopsBy scheduler.config answer = true := by
  have sameId := scheduler.requestHeap.requestId_object id
  have appending : ∀ {tokenIds updated}, answer.sampledTokenIds id ≠ [] →
      (scheduler.requestOf id).appendUntilStop scheduler.config.blockHasher
        scheduler.config.maxModelLen (answer.sampledTokenIds id) =
          .ok (tokenIds, stopped, updated) →
      (scheduler.config.asyncScheduling = true →
        (scheduler.requestOf id).asyncTokensToDiscard = 0) →
      (scheduler.requestOf id).stopsBy scheduler.config answer =
        (stopped || answer.grammarRejects id) := by
    intro tokenIds updated given appended kept
    unfold Request.stopsBy
    rw [sameId, if_neg (by simpa using given), if_neg, appended]
    simpa using kept
  cases takes with
  | discard _ | nothing =>
    rcases reason with stops | ⟨nonempty, _⟩
    · cases stops
    · exact absurd rfl nonempty
  | append given _ _ updated appended kept _
  | appendExpected given _ _ updated appended kept _ _ _ _ _ =>
    rw [appending given appended kept]
    rcases reason with rfl | ⟨_, rejects⟩
    · rfl
    · rw [rejects, Bool.or_true]
  | pool nothing pooled =>
    unfold Request.stopsBy
    rw [sameId, if_pos (by simpa using nothing)]
    exact pooled

/-- A request stops only by what the answer brings for it. -/
theorem Answers.stopsBy (answers : Answers answer output scheduler id true next) :
    (scheduler.requestOf id).stopsBy scheduler.config answer = true := by
  cases answers with
  | stops tokenIds stopped taken takes judged verdict finished handled handles next frees =>
    obtain ⟨_, _, processed⟩ := requestOf_processed answer scheduler id output
    have config := (touches_processed answer scheduler id output).config
    have stops := takes.stopsBy (verdict.imp And.left fun rejected => ⟨rejected.1, rejected.2.1⟩)
    rwa [processed, config, Request.stopsBy_withProgress] at stops

end Answering

end Scheduler

variable {failedKvLoadReqIds : List RequestId}

namespace OutputUpdate

open Scheduler

/-- The queued requests that will not be removed behind the loop. -/
def queued (update : OutputUpdate M E) : List RequestId :=
  (update.scheduler.waiting.filter fun id => !decide (id ∈ update.stoppedPreemptedReqs)) ++
    update.scheduler.skippedWaiting

/-- The running requests that will not be removed behind the loop. -/
def stillRunning (update : OutputUpdate M E) : List RequestId :=
  update.scheduler.running.filter fun id => !decide (id ∈ update.stoppedRunningReqs)

/-- The loop over the answered requests, where some are still to be visited. -/
structure UpdateInvariant (base : Scheduler M E) (rest : List RequestId)
    (update : OutputUpdate M E) : Prop where
  sound : update.scheduler.SoundQueues update.queued update.stillRunning
  config : update.scheduler.config = base.config
  running : update.scheduler.running = base.running
  object : ∀ id ∈ rest, update.scheduler.requestOf id = base.requestOf id
  skipped : ∀ id ∈ rest, id ∈ update.scheduler.skippedWaiting → id ∈ base.skippedWaiting

variable {base : Scheduler M E} {rest : List RequestId} {update : OutputUpdate M E} {id : RequestId} {next : Scheduler M E}

theorem count_filter_notMem (items removed : List RequestId) (id : RequestId) :
    (items.filter fun item => !decide (item ∈ removed)).count id =
      if id ∈ removed then 0 else items.count id := by
  split
  · next listed => exact count_eq_zero_of_not_mem (by simp [listed])
  · next unlisted => exact count_filter (by simpa using unlisted)

section

omit [KVCacheManager M] [EncoderCache E]

theorem count_queued (update : OutputUpdate M E) (id : RequestId) :
    update.queued.count id =
      (if id ∈ update.stoppedPreemptedReqs then 0 else update.scheduler.waiting.count id) +
        update.scheduler.skippedWaiting.count id := by
  unfold queued
  rw [count_append, count_filter_notMem]

theorem count_stillRunning (update : OutputUpdate M E) (id : RequestId) :
    update.stillRunning.count id =
      if id ∈ update.stoppedRunningReqs then 0 else update.scheduler.running.count id :=
  count_filter_notMem _ _ id

end

theorem UpdateInvariant.of_continues (invariant : UpdateInvariant base (requestId :: rest) update)
    (fresh : requestId ∉ rest)
    (answers : Scheduler.Answers answer output update.scheduler requestId false next) :
    UpdateInvariant base rest { update with scheduler := next } := by
  have touches := answers.touches
  obtain ⟨queues, promotes⟩ := answers.of_continues
  refine ⟨?_, touches.config.trans invariant.config, touches.running.trans invariant.running,
    fun id mem => ?_, fun id mem skipped => ?_⟩
  · unfold queued stillRunning
    rw [queues.waiting, queues.skippedWaiting, touches.running]
    exact invariant.sound.of_promotes promotes
  · rw [touches.others id (ne_of_mem_of_not_mem mem fresh)]
    exact invariant.object id (mem_cons_of_mem _ mem)
  · rw [queues.skippedWaiting] at skipped
    exact invariant.skipped id (mem_cons_of_mem _ mem) skipped

/-- How often requests are queued after one of them stopped. -/
theorem count_of_stops {scheduler : Scheduler M E}
    (known : requestId ∈ scheduler.requests) (notSkipped : requestId ∉ scheduler.skippedWaiting)
    (answers : Scheduler.Answers answer output scheduler requestId true next) :
    (∀ id, id ≠ requestId → next.waiting.count id = scheduler.waiting.count id ∧
        next.skippedWaiting.count id = scheduler.skippedWaiting.count id) ∧
      (next.waiting.count requestId = scheduler.waiting.count requestId ∧
          next.skippedWaiting.count requestId = 0 ∨
        next.Waits requestId ∧ next.waiting.count requestId + next.skippedWaiting.count requestId =
            scheduler.waiting.count requestId + 1 ∧ next.skippedWaiting.count requestId ≤ 1) := by
  have absent := count_eq_zero_of_not_mem notSkipped
  rcases answers.of_stops with queues | ⟨waits, ⟨added, same⟩ | ⟨same, added⟩⟩
  · rw [queues.waiting, queues.skippedWaiting]
    exact ⟨fun _ _ => ⟨rfl, rfl⟩, .inl ⟨rfl, absent⟩⟩
  all_goals
    rw [same]
    refine ⟨fun id different => ?_, .inr ⟨waits known, ?_⟩⟩
    · rw [added.count_eq, count_cons_of_ne different.symm]
      exact ⟨rfl, rfl⟩
    · rw [added.count_eq, count_cons_self]
      omega

omit [KVCacheManager M] [EncoderCache E] in
theorem recordStopped_spec
    (update : OutputUpdate M E) (next : Scheduler M E) (requestId : RequestId) (wasRunning : Bool) :
    (update.recordStopped next requestId wasRunning).scheduler = next ∧
      (∀ id, id ∈ (update.recordStopped next requestId wasRunning).stoppedRunningReqs ↔
        id ∈ update.stoppedRunningReqs ∨ wasRunning = true ∧ id = requestId) ∧
      ∀ id, id ∈ (update.recordStopped next requestId wasRunning).stoppedPreemptedReqs ↔
        id ∈ update.stoppedPreemptedReqs ∨ wasRunning = false ∧ id = requestId := by
  cases wasRunning <;> simp [recordStopped]

/-- A stopped request leaves the running list, or the waiting queue if it was preempted. -/
theorem soundQueues_of_stops
    (sound : update.scheduler.SoundQueues update.queued update.stillRunning)
    (known : requestId ∈ update.scheduler.requests)
    (notSkipped : requestId ∉ update.scheduler.skippedWaiting) {wasRunning : Bool}
    (status : update.scheduler.hasRunningStatus requestId = wasRunning)
    (answers : Scheduler.Answers answer output update.scheduler requestId true next) :
    next.SoundQueues (update.recordStopped next requestId wasRunning).queued
      (update.recordStopped next requestId wasRunning).stillRunning := by
  have touches := answers.touches
  obtain ⟨others, own⟩ := count_of_stops known notSkipped answers
  obtain ⟨scheduler, running, preempted⟩ :=
    update.recordStopped_spec next requestId wasRunning
  have queuedCount := (update.recordStopped next requestId wasRunning).count_queued
  have runningCount := (update.recordStopped next requestId wasRunning).count_stillRunning
  simp only [scheduler, running, preempted] at queuedCount runningCount
  refine sound.of_moved (fun id different => (touches.requests id different).mpr) touches.others
    (fun id different => ?_) (fun id different => ?_) ?_ ?_
  · rw [queuedCount, count_queued, (others id different).1, (others id different).2]
    simp [different]
  · rw [runningCount, count_stillRunning, touches.running]
    simp [different]
  · rw [← count_eq_zero, runningCount]
    cases wasRunning with
    | true => simp
    | false =>
      have notRunning : update.stillRunning.count requestId = 0 :=
        count_eq_zero_of_not_mem fun mem =>
          of_decide_eq_false status (sound.runs requestId mem).status
      rw [count_stillRunning, ← touches.running] at notRunning
      simpa using notRunning
  · by_cases mem : requestId ∈ (update.recordStopped next requestId wasRunning).queued
    · have present := count_pos_iff.mpr mem
      rw [queuedCount] at present ⊢
      have once : (if requestId ∈ update.stoppedPreemptedReqs ∨ wasRunning = false ∧
          requestId = requestId then 0 else next.waiting.count requestId) ≤
            next.waiting.count requestId - update.scheduler.waiting.count requestId := by
        cases wasRunning with
        | false => simp
        | true =>
          have notQueued : update.queued.count requestId = 0 :=
            count_eq_zero_of_not_mem fun mem =>
              (sound.waits requestId mem).halted (of_decide_eq_true status)
          rw [count_queued] at notQueued
          split_ifs at notQueued ⊢ <;> simp_all
      rcases own with ⟨waiting, skipped⟩ | ⟨waits, total, bound⟩
      · omega
      · exact .inr ⟨by omega, waits⟩
    · exact .inl mem

theorem UpdateInvariant.of_stops (invariant : UpdateInvariant base (requestId :: rest) update)
    (fresh : requestId ∉ rest) (known : requestId ∈ update.scheduler.requests)
    (outside : requestId ∈ base.skippedWaiting →
      (base.requestOf requestId).stopsBy base.config answer = false)
    (answers : Scheduler.Answers answer output update.scheduler requestId true next) :
    UpdateInvariant base rest (update.recordStopped next requestId
        (update.scheduler.hasRunningStatus requestId)) := by
  have touches := answers.touches
  have notSkipped : requestId ∉ update.scheduler.skippedWaiting := by
    intro skipped
    have stops := answers.stopsBy
    rw [invariant.object requestId mem_cons_self, invariant.config,
      outside (invariant.skipped requestId mem_cons_self skipped)] at stops
    cases stops
  obtain ⟨others, _⟩ := count_of_stops known notSkipped answers
  have scheduler :=
    (update.recordStopped_spec next requestId (update.scheduler.hasRunningStatus requestId)).1
  refine ⟨?_, ?_, ?_, fun id mem => ?_, fun id mem skipped => ?_⟩
  · rw [scheduler]
    exact soundQueues_of_stops invariant.sound known notSkipped rfl answers
  · rw [scheduler]
    exact touches.config.trans invariant.config
  · rw [scheduler]
    exact touches.running.trans invariant.running
  · rw [scheduler, touches.others id (ne_of_mem_of_not_mem mem fresh)]
    exact invariant.object id (mem_cons_of_mem _ mem)
  · rw [scheduler] at skipped
    have present := count_pos_iff.mpr skipped
    rw [(others id (ne_of_mem_of_not_mem mem fresh)).2] at present
    exact invariant.skipped id (mem_cons_of_mem _ mem) (count_pos_iff.mp present)

variable {updated : OutputUpdate M E}

theorem UpdateInvariant.visit {entry : RequestId × Int}
    (invariant : UpdateInvariant base (entry.1 :: rest) update) (fresh : entry.1 ∉ rest)
    (outside : entry.1 ∉ failedKvLoadReqIds → entry.1 ∈ base.skippedWaiting →
      (base.requestOf entry.1).stopsBy base.config answer = false)
    (visited : update.visit answer output failedKvLoadReqIds entry = .ok updated) :
    UpdateInvariant base rest updated := by
  obtain ⟨_, _, visited⟩ := bind_eq_ok.mp visited
  split at visited
  · cases visited
    exact ⟨invariant.sound, invariant.config, invariant.running,
      fun id mem => invariant.object id (mem_cons_of_mem _ mem),
      fun id mem => invariant.skipped id (mem_cons_of_mem _ mem)⟩
  · next unfinished =>
    simp only [Bool.or_eq_true, decide_eq_true_eq, Bool.not_eq_true', not_or] at unfinished
    have known : entry.1 ∈ update.scheduler.requests := by
      unfold Scheduler.isUnfinished at unfinished
      simp only [Bool.and_eq_false_iff, not_or] at unfinished
      simpa using unfinished.2.1
    obtain ⟨stops, next, answers, rfl⟩ := answers_of_apply visited
    cases stops with
    | false => exact invariant.of_continues fresh answers
    | true => exact invariant.of_stops fresh known (outside unfinished.1) answers

theorem UpdateInvariant.visitAll (invariant : UpdateInvariant base (entries.map Prod.fst) update)
    (nodup : (entries.map Prod.fst).Nodup)
    (outside : ∀ id ∈ entries.map Prod.fst, id ∉ failedKvLoadReqIds → id ∈ base.skippedWaiting →
      (base.requestOf id).stopsBy base.config answer = false)
    (visited : entries.foldlM (OutputUpdate.visit answer output failedKvLoadReqIds) update =
      .ok updated) : UpdateInvariant base [] updated := by
  induction entries generalizing update with
  | nil =>
    cases visited
    exact invariant
  | cons entry rest ih =>
    rw [foldlM_cons] at visited
    obtain ⟨first, visit, visited⟩ := bind_eq_ok.mp visited
    obtain ⟨fresh, nodup⟩ := nodup_cons.mp nodup
    exact ih (invariant.visit fresh (outside entry.1 mem_cons_self) visit) nodup
      (fun id mem => outside id (mem_cons_of_mem _ mem)) visited

omit [KVCacheManager M] [EncoderCache E] in
/-- Behind the loop the stopped requests leave their queues. -/
theorem UpdateInvariant.removeStopped (separate : base.running.Nodup)
    (invariant : UpdateInvariant base rest update) : update.removeStopped.Sound := by
  have kept : update.removeStopped.SoundQueues update.queued update.stillRunning :=
    invariant.sound.of_promotes (Promotes.of_statuses rfl fun _ => rfl)
  refine kept.shrink (fun id => ?_) (fun id => ?_)
  · rw [count_queued, count_append]
    refine Nat.add_le_add_right ?_ _
    exact count_removed_le _ _ _ _ id
  · show (removeAll update.scheduler.running update.stoppedRunningReqs).count id ≤ _
    rw [count_stillRunning]
    split
    · next listed =>
      rw [invariant.running, count_eq_zero_of_not_mem (notMem_removeAll separate listed)]
    · exact count_removeAll_le _ _ id

end OutputUpdate

namespace Scheduler

variable {scheduler next : Scheduler M E} {id : RequestId}

/-- The requests whose output is skipped because their loads failed. -/
def failedLoads (scheduler : Scheduler M E) (answer : ModelRunnerOutput)
    (output : SchedulerOutput) : List RequestId :=
  ((scheduler.handleFailedLoads answer output).toOption.map Prod.fst).getD []

/-- No request that an answer stops is among the skipped ones. -/
def StopsOutsideSkipped (scheduler : Scheduler M E) (answer : ModelRunnerOutput)
    (output : SchedulerOutput) : Prop :=
  ∀ id ∈ output.numScheduledTokens, id ∉ scheduler.failedLoads answer output →
    id ∈ scheduler.skippedWaiting →
      (scheduler.requestOf id).stopsBy scheduler.config answer = false

instance (scheduler : Scheduler M E) (answer : ModelRunnerOutput)
    (output : SchedulerOutput) : Decidable (scheduler.StopsOutsideSkipped answer output) :=
  inferInstanceAs (Decidable (∀ id ∈ output.numScheduledTokens.keys,
    id ∉ scheduler.failedLoads answer output → id ∈ scheduler.skippedWaiting →
      (scheduler.requestOf id).stopsBy scheduler.config answer = false))

theorem Sound.updateFromOutput (sound : scheduler.Sound)
    (outside : scheduler.StopsOutsideSkipped answer output)
    (updated : scheduler.updateFromOutput answer output = .ok next) : next.Sound := by
  obtain ⟨⟨failedKvLoadReqIds, handled⟩, handling, updated⟩ := bind_eq_ok.mp updated
  obtain ⟨update, visited, updated⟩ := bind_eq_ok.mp updated
  obtain ⟨ended, ending, updated⟩ := bind_eq_ok.mp updated
  obtain ⟨recomputes, heap, manager, failed, _, shape⟩ := handleFailedLoads_eq_ok handling
  have promotes : scheduler.Promotes handled := by
    refine .of_statuses ?_ fun id => ?_
    · rw [shape]
    · obtain ⟨_, same⟩ := recomputes id
      rw [same]
  have handledSound : handled.Sound := by
    have kept := SoundQueues.of_promotes sound promotes
    rw [shape] at kept ⊢
    exact kept
  have separate : handled.running.Nodup :=
    handledSound.separate.sublist (sublist_append_right _ _)
  have started : OutputUpdate.UpdateInvariant handled output.numScheduledTokens.keys
      { scheduler := handled } := by
    refine ⟨?_, rfl, rfl, fun _ _ => rfl, fun _ _ => id⟩
    unfold OutputUpdate.queued OutputUpdate.stillRunning
    simp only [not_mem_nil, decide_false, Bool.not_false, filter_true]
    exact handledSound
  have unskipped : ∀ id ∈ output.numScheduledTokens.keys, id ∉ failedKvLoadReqIds →
      id ∈ handled.skippedWaiting →
        (handled.requestOf id).stopsBy handled.config answer = false := by
    intro id mem loaded skipped
    have failures : scheduler.failedLoads answer output = failedKvLoadReqIds := by
      rw [failedLoads, handling]
      rfl
    obtain ⟨numComputed, same⟩ := recomputes id
    have config : handled.config = scheduler.config := by rw [shape]
    have queue : handled.skippedWaiting = scheduler.skippedWaiting := by rw [shape]
    rw [queue] at skipped
    rw [same, config, ← outside id mem (failures ▸ loaded) skipped]
    exact Request.stopsBy_withProgress scheduler.config answer numComputed _ _
  have looped := started.visitAll output.numScheduledTokens.keys_nodup unskipped visited
  have removed := looped.removeStopped separate
  have endedSound : ended.Sound := by
    rcases endFailedLoads_eq_ok ending with rfl | finished
    · exact removed
    · exact removed.finishRequests finished
  split at updated
  · cases updated
    exact endedSound
  · refine invariant_of_updateFromKvXferFinished (fun kept freed => ?_) (fun _ kept => ?_)
      endedSound updated
    · obtain ⟨finished, _, rfl⟩ := freeBlocks_eq_ok freed
      refine SoundQueues.of_touches kept ?_ (kept.notMem_of_finished finished)
      exact ⟨rfl, rfl, fun _ _ => rfl, fun _ different => mem_erase_of_ne different⟩
    · exact SoundQueues.of_promotes kept (.of_statuses rfl fun _ => rfl)

end Scheduler

end TokenCake
