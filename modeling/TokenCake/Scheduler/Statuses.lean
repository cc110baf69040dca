import TokenCake.Scheduler.Failures

/-!
# Statuses during a call

Queued requests wait, running requests run, and a request that is considered for
admission has a status with which an admission is recorded.
-/

namespace TokenCake

open List

variable {M E : Type} [KVCacheManager M] [EncoderCache E]

namespace Scheduler

/-- A known request that is neither finished nor running. -/
structure Waits (scheduler : Scheduler M E) (requestId : RequestId) : Prop where
  known : requestId ∈ scheduler.requests
  unfinished : (scheduler.requestOf requestId).status.isFinished = false
  halted : (scheduler.requestOf requestId).status ≠ .running

/-- A known request with the status of a running one. -/
structure Runs (scheduler : Scheduler M E) (requestId : RequestId) : Prop where
  known : requestId ∈ scheduler.requests
  status : (scheduler.requestOf requestId).status = .running

/-- The queues of a scheduler agree with the statuses of the requests in them. -/
structure SoundQueues (scheduler : Scheduler M E) (queued running : List RequestId) : Prop where
  separate : (queued ++ running).Nodup
  waits : ∀ id ∈ queued, scheduler.Waits id
  runs : ∀ id ∈ running, scheduler.Runs id

variable {env : StepEnvironment} {before after : Scheduler M E}
  {id : RequestId} (scheduler : Scheduler M E)

section

omit [KVCacheManager M] [EncoderCache E]

theorem Waits.of_status {status : RequestStatus} (known : id ∈ after.requests)
    (own : (after.requestOf id).status = status) (unfinished : status.isFinished = false)
    (halted : status ≠ .running) : after.Waits id := by
  subst own
  exact ⟨known, unfinished, halted⟩

theorem Waits.of_eq (waits : before.Waits id) (known : id ∈ before.requests → id ∈ after.requests)
    (same : after.requestOf id = before.requestOf id) : after.Waits id :=
  .of_status (known waits.known) (congrArg Request.status same) waits.unfinished waits.halted

theorem Runs.of_eq (runs : before.Runs id) (known : id ∈ before.requests → id ∈ after.requests)
    (same : after.requestOf id = before.requestOf id) : after.Runs id :=
  ⟨known runs.known, (congrArg Request.status same).trans runs.status⟩

end

theorem requestOf_preempted_of_ne (physical : Bool) (different : other ≠ id) :
    (scheduler.preempted id physical).requestOf other = scheduler.requestOf other :=
  if_neg different

/-- Statuses change at most by the promotion of blocked requests. -/
structure Promotes (before after : Scheduler M E) : Prop where
  requests : after.requests = before.requests
  status : ∀ id, (after.requestOf id).status = (before.requestOf id).status ∨
    isBlockedWaitingStatus (before.requestOf id).status = true ∧
      ((after.requestOf id).status = .waiting ∨ (after.requestOf id).status = .preempted)

section

omit [KVCacheManager M] [EncoderCache E]

theorem Promotes.of_statuses (requests : after.requests = before.requests)
    (status : ∀ id, (after.requestOf id).status = (before.requestOf id).status) :
    before.Promotes after :=
  ⟨requests, fun id => .inl (status id)⟩

theorem Promotes.waits (promotes : before.Promotes after)
    (waits : before.Waits id) : after.Waits id := by
  have known : id ∈ after.requests := by
    rw [promotes.requests]
    exact waits.known
  rcases promotes.status id with same | ⟨_, waiting | preempted⟩
  · exact .of_status known same waits.unfinished waits.halted
  · exact .of_status known waiting rfl nofun
  · exact .of_status known preempted rfl nofun

theorem Promotes.runs (promotes : before.Promotes after)
    (runs : before.Runs id) : after.Runs id := by
  refine ⟨?_, ?_⟩
  · rw [promotes.requests]
    exact runs.known
  · rcases promotes.status id with same | ⟨blocked, _⟩
    · exact same.trans runs.status
    · rw [runs.status] at blocked
      cases blocked

/-- A blocked request is promoted, and no other request changes. -/
theorem Promotes.of_change (requests : after.requests = before.requests)
    (others : ∀ id, id ≠ requestId → after.requestOf id = before.requestOf id)
    (blocked : isBlockedWaitingStatus (before.requestOf requestId).status = true)
    (status : (after.requestOf requestId).status = .waiting ∨
      (after.requestOf requestId).status = .preempted) : before.Promotes after := by
  refine ⟨requests, fun id => ?_⟩
  by_cases same : id = requestId
  · subst same
    exact .inr ⟨blocked, status⟩
  · rw [others id same]
    exact .inl rfl

theorem status_loadEnded (id : RequestId) (manager : M) (controller : Option SchedulingController)
    (numComputed : Int) :
    ((scheduler.loadEnded id manager controller numComputed).requestOf id).status = .waiting ∨
      ((scheduler.loadEnded id manager controller numComputed).requestOf
        id).status = .preempted := by
  rw [requestOf_loadEnded_self]
  split
  · exact .inr rfl
  · exact .inl rfl

end

section

omit [EncoderCache E]

theorem Settled.promotes (settled : before.Settled env id ready after) : before.Promotes after := by
  cases settled with
  | unblocked _ | blocked _ => exact .of_statuses rfl fun _ => rfl
  | grammar status =>
    refine .of_change rfl (fun _ => requestOf_modifyRequest_of_ne before) ?_ (.inl ?_)
    · rw [status]
      rfl
    · rw [requestOf_modifyRequest_self]
  | loadFailed status _ _ _ | loaded status _ _ _ _ _ =>
    refine .of_change rfl (fun _ => requestOf_loadEnded_of_ne before _ _ _) ?_
      (status_loadEnded before ..)
    rw [status]
    rfl

/-- A waiting request that is found schedulable has a status that can be recorded. -/
theorem Settled.status (settled : before.Settled env id true after) (waits : before.Waits id) :
    (after.requestOf id).status = .waiting ∨ (after.requestOf id).status = .preempted := by
  cases settled with
  | unblocked unblocked =>
    have unfinished := waits.unfinished
    have halted := waits.halted
    cases status : (before.requestOf id).status <;>
      simp_all [isBlockedWaitingStatus, RequestStatus.isFinished]
  | grammar _ =>
    rw [requestOf_modifyRequest_self]
    exact .inl rfl
  | loadFailed _ _ _ _ | loaded _ _ _ _ _ _ => exact status_loadEnded before ..

end

end Scheduler

/-- The requests among which a place of a call chooses, or the chosen one. -/
def Phase.nominees : Phase → List RequestId
  | .choosing _ eligible best => best.1 :: eligible.map Prod.fst
  | .admitting requestId _ => [requestId]
  | _ => []

namespace Step

open Scheduler

variable {initial : List RequestId} {env : StepEnvironment} {step next : Step M E}

/-- The requests of the cached order of candidates. -/
def ordered (step : Step M E) : List RequestId := (step.agentOrder.getD []).map Prod.fst

/-- The requests considered for admission. -/
def candidates (step : Step M E) : List RequestId := step.ordered ++ step.phase.nominees

/-- The statuses of the requests of a call. -/
structure StatusInvariant (step : Step M E) : Prop where
  waits : ∀ id ∈ step.unstarted, step.scheduler.Waits id
  runs : ∀ id ∈ step.scheduler.running, step.scheduler.Runs id
  ready : ∀ id ∈ step.candidates, step.Recordable id

variable {id : RequestId} {name : QueueName}

omit [KVCacheManager M] [EncoderCache E] in
theorem recordable_of_promotes (promotes : step.scheduler.Promotes next.scheduler)
    (recordable : step.Recordable id) : next.Recordable id := by
  rcases promotes.status id with same | ⟨_, status⟩
  · unfold Recordable request
    rw [same]
    exact recordable
  · exact status

variable (invariant : step.StatusInvariant)

variable {victim : RequestId}

section

omit [KVCacheManager M] [EncoderCache E]

theorem mem_candidates {id : RequestId} :
    id ∈ step.candidates ↔ id ∈ step.ordered ∨ id ∈ step.phase.nominees :=
  mem_append

theorem candidates_of_unordered (unordered : step.agentOrder = none)
    (loop : inRunningLoop step.phase = true ∨ step.phase = .waiting ∨ step.phase = .done) :
    step.candidates = [] := by
  unfold candidates ordered
  rw [unordered]
  rcases loop with loop | waiting | done
  · cases phase : step.phase <;> rw [phase] at loop <;> first | rfl | cases loop
  · rw [waiting]
    rfl
  · rw [done]
    rfl

/-- After a preemption only the victim is new among the unstarted requests. -/
theorem mem_unstarted_of_preempted {waiting : RequestQueue}
    (queued : waiting.Perm (victim :: step.scheduler.waiting)) :
    ∀ id ∈ waiting ++ step.scheduler.skippedWaiting ++ step.stepSkippedWaiting,
      id = victim ∨ id ∈ step.unstarted := by
  intro id mem
  unfold unstarted
  simp only [mem_append, queued.mem_iff, mem_cons] at mem ⊢
  tauto

theorem nominees_keepCandidate (step : Step M E) (candidate best : RequestId × QueueName)
    (pending eligible : List (RequestId × QueueName)) (id : RequestId)
    (mem : id ∈ (step.keepCandidate candidate pending eligible best).nominees) :
    id = candidate.1 ∨ id ∈ best.1 :: eligible.map Prod.fst := by
  unfold keepCandidate at mem
  split at mem
  · simp only [Phase.nominees, map_append, map_cons, map_nil, mem_cons,
      mem_append, not_mem_nil, or_false] at mem ⊢
    tauto
  · split at mem
    · simp only [Phase.nominees, mem_cons] at mem ⊢
      tauto
    · exact .inr mem

/-- The candidates that are compared are queued. -/
theorem mem_queue_of_pending (queues : QueueInvariant initial step)
    (phase : step.phase = .choosing (candidate :: pending) eligible best) :
    candidate.1 ∈ step.scheduler.queue candidate.2 := by
  obtain ⟨_, _, _, others, fits, _⟩ := queues.consistent.at phase
  refine mem_tagged.mp (fits.mem_iff.mp ?_)
  simp

/-- The request in hand is not in the cached order any more. -/
theorem notMem_ordered_of_chosen (nodup : initial.Nodup) (queues : QueueInvariant initial step)
    (phase : step.phase = .admitting id name) : id ∉ step.ordered := by
  intro listed
  obtain ⟨_, _, fits⟩ := queues.consistent.at phase
  unfold ordered at listed
  cases order : step.agentOrder with
  | none =>
    rw [order] at listed
    cases listed
  | some candidates =>
    rw [order] at listed
    have perm := (fits candidates order).map Prod.fst
    have separate : (step.scheduler.tagged.map Prod.fst).Nodup := by
      have queued : step.scheduler.tagged.map Prod.fst =
          step.scheduler.waiting ++ step.scheduler.skippedWaiting := by
        simp [tagged, Function.comp_def]
      rw [queued]
      refine ((queues.conserved.nodup_iff.mpr nodup).sublist
        (sublist_append_left ..)).sublist (sublist_append_left ..)
    exact (nodup_cons.mp (perm.nodup_iff.mpr separate)).1 listed

/-- A request that does not run yet is not in the running list. -/
theorem notMem_running_of_mem_queue (separate : step.contents.Nodup)
    (queued : id ∈ step.scheduler.queue name) : id ∉ step.scheduler.running := by
  intro running
  exact (nodup_append.mp separate).2.2 id (mem_unstarted_of_mem_queue queued) id running rfl

end

include invariant

section

variable (promotes : step.scheduler.Promotes next.scheduler)
  (unstarted : ∀ id ∈ next.unstarted, id ∈ step.unstarted)
  (running : next.scheduler.running = step.scheduler.running)

include promotes unstarted running

section

omit [KVCacheManager M] [EncoderCache E]

/-- Moves that only promote blocked requests. -/
theorem StatusInvariant.of_promotes
    (candidates : ∀ id ∈ next.candidates, id ∈ step.candidates ∨ next.Recordable id) :
    next.StatusInvariant := by
  refine ⟨fun id mem => promotes.waits (invariant.waits id (unstarted id mem)), ?_, ?_⟩
  · intro id mem
    rw [running] at mem
    exact promotes.runs (invariant.runs id mem)
  · intro id mem
    rcases candidates id mem with listed | recordable
    · exact recordable_of_promotes promotes (invariant.ready id listed)
    · exact recordable

/-- Moves that keep the cached order, or drop it. -/
theorem StatusInvariant.of_nominees (ordered : next.ordered ⊆ step.ordered)
    (nominees : ∀ id ∈ next.phase.nominees, id ∈ step.candidates ∨ next.Recordable id) :
    next.StatusInvariant := by
  refine invariant.of_promotes promotes unstarted running fun id mem => ?_
  rcases mem_candidates.mp mem with listed | nominated
  · exact .inl (mem_candidates.mpr (.inl (ordered listed)))
  · exact nominees id nominated

end

end

omit [EncoderCache E] in
/-- A waiting request was settled, and may be nominated if it is ready. -/
theorem StatusInvariant.of_settled {scheduler : Scheduler M E}
    (settled : step.scheduler.Settled env requestId true scheduler)
    (waits : step.scheduler.Waits requestId) {phase : Phase}
    (nominees : ∀ other ∈ phase.nominees, other ∈ step.candidates ∨ other = requestId) :
    ((step.withScheduler scheduler).goto phase).StatusInvariant := by
  have status := settled.status waits
  have promotes := settled.promotes
  obtain ⟨_, _, _, _, _, rfl⟩ := settled.shape
  refine invariant.of_nominees promotes (fun _ => id) rfl (Subset.refl _) fun other nominated => ?_
  rcases nominees other nominated with listed | rfl
  · exact .inl listed
  · exact .inr status

section

omit [KVCacheManager M] [EncoderCache E]

/-- Moves of the loop over running requests that leave all statuses alone. -/
theorem StatusInvariant.of_runningLoop (statuses : step.scheduler.Promotes next.scheduler)
    (unstarted : next.unstarted = step.unstarted)
    (running : next.scheduler.running = step.scheduler.running) (unordered : next.agentOrder = none)
    (phase : inRunningLoop next.phase = true ∨ next.phase = .waiting ∨ next.phase = .done) :
    next.StatusInvariant := by
  refine invariant.of_promotes statuses ?_ running ?_
  · intro id mem
    rwa [unstarted] at mem
  · intro id mem
    rw [candidates_of_unordered unordered phase] at mem
    cases mem

/-- Moves that change one request, which is no candidate afterwards. -/
theorem StatusInvariant.of_changed (requests : next.scheduler.requests = step.scheduler.requests)
    (others : ∀ id, id ≠ requestId → next.scheduler.requestOf id = step.scheduler.requestOf id)
    (waits : ∀ id ∈ next.unstarted, id ∈ step.unstarted ∧ id ≠ requestId ∨ next.scheduler.Waits id)
    (runs : ∀ id ∈ next.scheduler.running,
      id ∈ step.scheduler.running ∧ id ≠ requestId ∨ next.scheduler.Runs id)
    (candidates : ∀ id ∈ next.candidates, id ∈ step.candidates ∧ id ≠ requestId) :
    next.StatusInvariant := by
  refine ⟨?_, ?_, ?_⟩
  · intro id mem
    rcases waits id mem with ⟨queued, different⟩ | waits
    · exact (invariant.waits id queued).of_eq (requests ▸ (·)) (others id different)
    · exact waits
  · intro id mem
    rcases runs id mem with ⟨running, different⟩ | runs
    · exact (invariant.runs id running).of_eq (requests ▸ (·)) (others id different)
    · exact runs
  · intro id mem
    obtain ⟨listed, different⟩ := candidates id mem
    have recordable := invariant.ready id listed
    unfold Recordable request at recordable ⊢
    rwa [others id different]

/-- A preempted request waits again. -/
theorem StatusInvariant.of_preempted (separate : step.contents.Nodup)
    (removed : step.scheduler.running.Perm (victim :: next.scheduler.running))
    (unstarted : ∀ id ∈ next.unstarted, id = victim ∨ id ∈ step.unstarted)
    (requests : next.scheduler.requests = step.scheduler.requests)
    (others : ∀ id, id ≠ victim → next.scheduler.requestOf id = step.scheduler.requestOf id)
    (status : (next.scheduler.requestOf victim).status = .preempted)
    (candidates : next.candidates = []) : next.StatusInvariant := by
  refine invariant.of_changed requests others ?_ ?_ ?_
  · intro id mem
    by_cases same : id = victim
    · subst same
      have runs := invariant.runs id (removed.mem_iff.mpr mem_cons_self)
      exact .inr (.of_status (requests ▸ runs.known) status rfl nofun)
    · exact .inl ⟨(unstarted id mem).resolve_left same, same⟩
  · intro id mem
    have running : (victim :: next.scheduler.running).Nodup :=
      removed.nodup_iff.mp (separate.sublist (sublist_append_right ..))
    refine .inl ⟨removed.mem_iff.mpr (mem_cons_of_mem _ mem), ?_⟩
    rintro rfl
    exact (nodup_cons.mp running).1 mem
  · intro id mem
    rw [candidates] at mem
    cases mem

end

theorem StatusInvariant.of_runningMove (nodup : initial.Nodup)
    (queues : QueueInvariant initial step)
    (move : RunningMove env step next) : next.StatusInvariant := by
  have separate : step.contents.Nodup := queues.conserved.nodup_iff.mpr nodup
  have unordered : ∀ phase, step.phase = phase → inRunningLoop phase = true →
      step.agentOrder = none := by
    rintro phase rfl loop
    exact (queues.consistent.unordered loop).1
  have unchanged : step.scheduler.Promotes step.scheduler := .of_statuses rfl fun _ => rfl
  cases move with
  | leave phase | skipFinished phase _ _ | denyGrowth probe phase | allowGrowth probe phase _ =>
    exact invariant.of_runningLoop unchanged rfl rfl (unordered _ phase rfl) (.inl rfl)
  | skipProbed phase _ _ _ _ _ | prepare phase =>
    exact invariant.of_runningLoop (.of_statuses rfl fun _ => rfl) rfl rfl
      (unordered _ phase rfl) (.inl rfl)
  | schedule probe phase newBlocks manager _ controller _ encoder _ =>
    exact invariant.of_runningLoop
      (.of_statuses rfl (status_modifyRequest step.scheduler fun _ => rfl)) rfl rfl
      (unordered _ phase rfl) (.inl rfl)
  | preempt probe phase manager _ _ controller _ victim _ _ running removed _ _ _
  | preemptScheduled probe phase _ _ _ _ _ victim _ _ running removed _ _ _ _ _ =>
    refine invariant.of_preempted separate removed ?_ rfl
      (fun _ => requestOf_preempted_of_ne _ true) (congrArg Request.status (if_pos rfl)) ?_
    · exact mem_unstarted_of_preempted (RequestQueue.prependRequest_perm ..)
    · refine candidates_of_unordered (unordered _ phase rfl) (.inl ?_)
      unfold afterPreemption
      split <;> rfl
  | enterWaiting phase _ _ =>
    exact invariant.of_runningLoop unchanged rfl rfl (unordered _ phase rfl) (.inr (.inl rfl))
  | skipWaiting phase _ =>
    exact invariant.of_runningLoop unchanged rfl rfl (unordered _ phase rfl) (.inr (.inr rfl))

omit [KVCacheManager M] [EncoderCache E] in
theorem waits_of_mem_queue (queued : id ∈ step.scheduler.queue name) : step.scheduler.Waits id :=
  invariant.waits id (mem_unstarted_of_mem_queue queued)

omit [EncoderCache E] in
theorem StatusInvariant.of_waitingMove (queues : QueueInvariant initial step)
    (move : WaitingMove env step next) : next.StatusInvariant := by
  have unchanged : step.scheduler.Promotes step.scheduler := .of_statuses rfl fun _ => rfl
  cases move with
  | leave phase =>
    exact invariant.of_nominees unchanged (fun _ => id) rfl (Subset.refl _)
      fun _ nominated => absurd nominated not_mem_nil
  | borrow phase skipped waiting returned queued _ _ _ =>
    refine invariant.of_nominees (.of_statuses rfl fun _ => rfl) ?_ rfl (nil_subset _)
      fun id nominated => .inl (mem_candidates.mpr (.inr nominated))
    intro id mem
    simp only [unstarted, mem_append, queued.mem_iff, returned.mem_iff] at mem ⊢
    tauto
  | setHeadAside phase name requestId ready scheduler settled rest removed agentOrder order =>
    have added := prependSkipped_perm ((step.withScheduler scheduler).withQueue name rest) requestId
    have promotes := settled.promotes
    obtain ⟨_, _, _, _, _, rfl⟩ := settled.shape
    have moved := unstarted_perm_of_aside removed added
    refine invariant.of_nominees ⟨promotes.requests, promotes.status⟩
      (fun _ => moved.mem_iff.mp) rfl ?_ fun _ nominated => absurd nominated not_mem_nil
    rcases order with rfl | ⟨rfl, _⟩
    · exact nil_subset _
    · exact Subset.refl _
  | chooseHead _ _ _ head _ settled _ | startChoosing _ _ _ _ head _ settled _ _ _ _ =>
    refine invariant.of_settled settled (waits_of_mem_queue invariant (mem_of_mem_head? head)) ?_
    exact fun _ nominated => .inr (mem_singleton.mp nominated)
  | chooseOrdered phase name requestId head scheduler settled annotated candidate rest order =>
    have promotes := settled.promotes
    obtain ⟨_, _, _, _, _, rfl⟩ := settled.shape
    refine invariant.of_promotes promotes (fun _ => id) rfl fun id mem => ?_
    refine .inl (mem_candidates.mpr (.inl ?_))
    unfold ordered
    rw [order]
    rcases mem_candidates.mp mem with listed | nominated
    · exact mem_cons_of_mem _ listed
    · rw [mem_singleton.mp nominated]
      exact mem_cons_self
  | keepBest candidate best pending eligible phase same =>
    refine invariant.of_nominees unchanged (fun _ => id) rfl (Subset.refl _) fun id nominated =>
      .inl (mem_candidates.mpr (.inr ?_))
    rw [phase]
    rcases nominees_keepCandidate step candidate best pending eligible id nominated with rfl | kept
    · rw [same]
      exact mem_cons_self
    · exact kept
  | keepCandidate candidate best pending eligible phase scheduler settled =>
    refine invariant.of_settled settled
      (waits_of_mem_queue invariant (mem_queue_of_pending queues phase)) fun id nominated => ?_
    rcases nominees_keepCandidate _ candidate best pending eligible id nominated with rfl | kept
    · exact .inr rfl
    · refine .inl (mem_candidates.mpr (.inr ?_))
      rw [phase]
      exact kept
  | dropCandidate candidate best pending eligible phase different ready scheduler settled rest
      removed =>
      have added := prependSkipped_perm
        ((step.withScheduler scheduler).withQueue candidate.2 rest) candidate.1
      have promotes := settled.promotes
      obtain ⟨_, _, _, _, _, rfl⟩ := settled.shape
      have moved := unstarted_perm_of_aside removed added
      refine invariant.of_nominees ⟨promotes.requests, promotes.status⟩
        (fun _ => moved.mem_iff.mp) rfl (Subset.refl _) fun id nominated =>
          .inl (mem_candidates.mpr (.inr ?_))
      rw [phase]
      exact nominated
  | chooseBest eligible best phase uncached =>
    refine invariant.of_nominees unchanged (fun _ => id) rfl (Subset.refl _) fun id nominated =>
      .inl (mem_candidates.mpr (.inr ?_))
    rw [phase, mem_singleton.mp nominated]
    exact mem_cons_self
  | chooseFirst eligible best phase cached candidate rest order =>
    have perm := (step.orderCandidates_perm eligible).map Prod.fst
    rw [order] at perm
    refine invariant.of_promotes unchanged (fun _ => id) rfl fun id mem => ?_
    refine .inl (mem_candidates.mpr (.inr ?_))
    rw [phase]
    refine mem_cons_of_mem _ (perm.mem_iff.mp ?_)
    rcases mem_candidates.mp mem with listed | nominated
    · exact mem_cons_of_mem _ listed
    · rw [mem_singleton.mp nominated]
      exact mem_cons_self

theorem StatusInvariant.of_admissionMove (nodup : initial.Nodup)
    (queues : QueueInvariant initial step) (phase : step.phase = .admitting requestId name)
    (move : AdmissionMove env step requestId name next) : next.StatusInvariant := by
  obtain ⟨queued, head, _⟩ := queues.consistent.at phase
  have separate : step.contents.Nodup := queues.conserved.nodup_iff.mpr nodup
  have waits := waits_of_mem_queue invariant queued
  have unordered := notMem_ordered_of_chosen nodup queues phase
  -- Behind an admission only the cached order remains.
  have remaining : ∀ (next : Step M E), ∀ id ∈ next.candidates, next.ordered = step.ordered →
      next.phase.nominees = [] → id ∈ step.candidates ∧ id ≠ requestId := by
    intro next id mem same none_
    rcases mem_candidates.mp mem with listed | nominated
    · rw [same] at listed
      refine ⟨mem_candidates.mpr (.inl listed), ?_⟩
      rintro rfl
      exact unordered listed
    · rw [none_] at nominated
      cases nominated
  obtain ⟨manager, controller, encoder, calls, keeps, ends⟩ := move.ends
  cases ends with
  | leave =>
    exact invariant.of_promotes (.of_statuses rfl fun _ => rfl) (fun _ => id) rfl
      fun id mem => .inl (remaining _ id mem rfl rfl).1
  | aside rest taken deferred deferral =>
    have moved := unstarted_perm_of_aside (keeps.removed taken head) (prependSkipped_perm ..)
    exact invariant.of_promotes (.of_statuses rfl fun _ => rfl) (fun _ => moved.mem_iff.mp)
      rfl fun id mem => .inl (remaining _ id mem rfl rfl).1
  | await rest taken probe chosen =>
    obtain ⟨rfl, rfl⟩ := chosen
    have removed := keeps.removed taken head
    let loading := ((step.withResources manager controller encoder).withCalls calls).withQueue
      probe.queue rest
    have status : ((loading.awaitRemoteKvs probe).scheduler.requestOf probe.requestId).status =
      .waitingForRemoteKvs := congrArg Request.status (if_pos rfl)
    refine invariant.of_changed rfl (fun _ different => if_neg different) ?_ ?_
      (fun id mem => remaining _ id mem rfl rfl)
    · intro id mem
      by_cases same : id = probe.requestId
      · subst same
        exact .inr (.of_status waits.known status rfl nofun)
      · have aside : (loading.awaitRemoteKvs probe).stepSkippedWaiting.Perm
          (probe.requestId :: step.stepSkippedWaiting) := RequestQueue.prependRequest_perm ..
        exact .inl ⟨(unstarted_perm_of_aside removed aside).mem_iff.mp mem, same⟩
    · intro id mem
      refine .inl ⟨mem, ?_⟩
      rintro rfl
      exact notMem_running_of_mem_queue separate queued mem
  | start rest taken probe chosen newReqs resumedReqs =>
    obtain ⟨rfl, rfl⟩ := chosen
    have shrinks := unstarted_perm_of_removed (keeps.removed taken head)
    have fresh := nodup_cons.mp (shrinks.nodup_iff.mp (separate.sublist (sublist_append_left ..)))
    refine invariant.of_changed rfl (fun _ different => if_neg different) ?_ ?_
      (fun id mem => remaining _ id mem rfl rfl)
    · intro id mem
      refine .inl ⟨shrinks.mem_iff.mpr (mem_cons_of_mem _ mem), ?_⟩
      rintro rfl
      exact fresh.1 mem
    · intro id mem
      rcases mem_append.mp mem with running | started
      · refine .inl ⟨running, ?_⟩
        rintro rfl
        exact notMem_running_of_mem_queue separate queued running
      · rw [mem_singleton.mp started]
        exact .inr ⟨waits.known, congrArg Request.status (if_pos rfl)⟩

theorem StatusInvariant.of_move (nodup : initial.Nodup)
    (queues : QueueInvariant initial step) (move : Move env step next) : next.StatusInvariant := by
  cases move with
  | running move => exact invariant.of_runningMove nodup queues move
  | waiting move => exact invariant.of_waitingMove queues move
  | admission id name phase move =>
    exact invariant.of_admissionMove nodup queues phase move

omit [KVCacheManager M] [EncoderCache E] in
/-- A chosen request has a status with which its admission is recorded. -/
theorem StatusInvariant.recordable
    (phase : step.phase = .admitting id name) : step.Recordable id := by
  refine invariant.ready id (mem_candidates.mpr (.inr ?_))
  rw [phase]
  exact mem_singleton_self id

end Step

end TokenCake
