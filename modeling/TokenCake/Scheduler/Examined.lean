import TokenCake.Engine.Run

/-!
# Which running requests a call examines

The loop over running requests walks the list by position, while victims are taken out of
it.  No request is passed over as long as the priority policy gives up none in front of the
position that the call did not schedule.
-/

namespace TokenCake

open List KVCacheManager

variable {M E : Type} [KVCacheManager M] [EncoderCache E]

/-- A call inside its loop over running requests, with the requests it has examined. -/
structure RunningWalk (M E : Type) where
  step : Step M E
  examined : List RequestId := []

namespace RunningWalk

/-- The request examined by the next transition. -/
def examines (step : Step M E) : Option RequestId :=
  if step.phase = .running ∧ 0 < step.tokenBudget then step.scheduler.running[step.reqIndex]?
  else none

/-- Whether a call is inside the loop. -/
def isInside (step : Step M E) : Bool :=
  match step.phase with
  | .running | .growing _ | .allocating _ => true
  | _ => false

/-- One transition inside the loop. -/
def advance (environment : StepEnvironment) (walk : RunningWalk M E) :
    Unit → Except EngineError (RunningWalk M E)
  | () => do
      ensure (isInside walk.step) .assertionFailed
      let next ← walk.step.transition environment
      return ⟨next, walk.examined ++ (examines walk.step).toList⟩

/-- If the priority policy has to give up a request, this call scheduled the request or it
does not stand in front of the position. -/
def keepsPosition (environment : StepEnvironment) (step : Step M E) : Bool :=
  match step.phase with
  | .allocating probe =>
    match allocateSlots step.scheduler.kvCacheManager (step.request probe.requestId)
        { numNewTokens := probe.numNewTokens
          numLookaheadTokens := step.scheduler.config.numLookaheadTokens } with
    | .ok (none, manager) =>
      match (step.setManager manager).agentVictim environment probe,
          step.scheduler.config.policy with
      | .ok (none, named), .priority =>
        (Step.lowestPriority named.scheduler).all fun victim =>
          decide (victim ∈ step.scheduledRunningReqs ∨
            step.reqIndex ≤ step.scheduler.running.idxOf victim)
      | _, _ => true
    | _ => true
  | _ => true

/-- The running list is split at the position: the requests in front of it were examined once,
those behind it not at all, and only the former were scheduled. -/
structure Splits (step : Step M E) (before rest examined : List RequestId) : Prop where
  running : step.scheduler.running = before ++ rest
  position : step.reqIndex = before.length
  nodup : (before ++ rest).Nodup
  scheduled : step.scheduledRunningReqs.Sublist before
  once : ∀ id ∈ before, examined.count id = 1
  never : ∀ id ∈ rest, id ∉ examined

/-- The requests are examined in order; the one in hand stands at the position. -/
def InOrder (walk : RunningWalk M E) : Prop :=
  match walk.step.phase with
  | .running => ∃ before rest, Splits walk.step before rest walk.examined
  | .growing probe | .allocating probe => ∃ before rest examined,
    Splits walk.step before (probe.requestId :: rest) examined ∧
      walk.examined = examined ++ [probe.requestId]
  | _ => True

variable {env : StepEnvironment} {step next removedStep : Step M E} {current : RequestId}
  {before rest examined : List RequestId} {victim : RequestId} {probe removedProbe : RunningProbe}
  (splits : Splits step before (current :: rest) examined)

include splits in
omit [KVCacheManager M] [EncoderCache E] in
/-- The loop goes on behind the request in hand, scheduled or not. -/
theorem Splits.pass (running : next.scheduler.running = step.scheduler.running)
    (position : next.reqIndex = step.reqIndex + 1)
    (scheduled : next.scheduledRunningReqs.Sublist (step.scheduledRunningReqs ++ [current])) :
    Splits next (before ++ [current]) rest (examined ++ [current]) := by
  have assoc : before ++ current :: rest = before ++ [current] ++ rest := by simp
  have nodup := assoc ▸ splits.nodup
  obtain ⟨passed, _, apart⟩ := nodup_append.mp nodup
  have fresh := splits.never current mem_cons_self
  refine ⟨(running.trans splits.running).trans assoc, ?_, nodup,
    scheduled.trans (splits.scheduled.append_right _), fun id mem => ?_, fun id mem => ?_⟩
  · rw [position, splits.position, length_append, length_singleton]
  · rw [count_append]
    rcases mem_append.mp mem with earlier | same
    · have different : id ≠ current := fun same =>
        (nodup_append.mp passed).2.2 id earlier current mem_cons_self same
      rw [splits.once id earlier, count_eq_zero.mpr (by simpa using different)]
    · rw [mem_singleton] at same
      subst same
      rw [count_eq_zero.mpr fresh, count_singleton_self]
  · refine fun old => (mem_append.mp old).elim
      (splits.never id (mem_cons_of_mem _ mem)) fun same => ?_
    exact apart current (by simp) id mem (mem_singleton.mp same).symm

section

omit [KVCacheManager M] [EncoderCache E]

/-- A victim in front of the position is taken out, and the position follows. -/
theorem Splits.eraseBefore (splits : Splits step before rest examined) (mem : victim ∈ before)
    (running : next.scheduler.running = step.scheduler.running.erase victim)
    (position : next.reqIndex = step.reqIndex - 1)
    (scheduled : next.scheduledRunningReqs = step.scheduledRunningReqs.erase victim) :
    Splits next (before.erase victim) rest examined where
  running := by rw [running, splits.running, List.erase_append_left _ mem]
  position := by rw [position, splits.position, List.length_erase_of_mem mem]
  nodup := splits.nodup.sublist ((List.erase_sublist).append_right _)
  scheduled := by
    rw [scheduled]
    exact splits.scheduled.erase victim
  once id kept := splits.once id (mem_of_mem_erase kept)
  never := splits.never

/-- Requests behind the position are taken out. -/
theorem Splits.cutRest {kept : List RequestId}
    (splits : Splits step before rest examined) (fewer : kept.Sublist rest)
    (running : next.scheduler.running = before ++ kept) (position : next.reqIndex = step.reqIndex)
    (scheduled : next.scheduledRunningReqs = step.scheduledRunningReqs) :
    Splits next before kept examined where
  running := running
  position := position.trans splits.position
  nodup := splits.nodup.sublist (fewer.append_left _)
  scheduled := scheduled ▸ splits.scheduled
  once := splits.once
  never id mem := splits.never id (fewer.subset mem)

theorem Splits.idxOf_lt (splits : Splits step before rest examined) :
    step.scheduler.running.idxOf victim < step.reqIndex ↔ victim ∈ before := by
  rw [splits.running, splits.position, idxOf_append]
  split_ifs with mem
  · simp [idxOf_lt_length_iff, mem]
  · simp [mem]

end

include splits in
omit [KVCacheManager M] [EncoderCache E] in
/-- A victim other than the request in hand is taken out of the list. -/
theorem Splits.removeVictim (keeps : byAgent = false →
      victim ∈ step.scheduledRunningReqs ∨ step.reqIndex ≤ step.scheduler.running.idxOf victim)
    (other : victim ≠ current)
    (removal : step.removeVictim probe victim byAgent = .ok (removedProbe, removedStep)) :
    ∃ before rest, Splits removedStep before (current :: rest) examined := by
  unfold Step.removeVictim at removal
  dsimp only at removal
  split_ifs at removal with mem scheduled inFront
  · obtain ⟨_, _, _, _, _, rfl⟩ := Step.withdrawScheduled_eq_ok removal
    exact ⟨_, rest, splits.eraseBefore (splits.scheduled.subset scheduled) rfl rfl rfl⟩
  · cases removal
    exact ⟨_, rest, splits.eraseBefore (splits.idxOf_lt.mp inFront.2) rfl rfl
      (List.erase_of_not_mem scheduled).symm⟩
  · cases removal
    have behind : victim ∉ before := by
      rw [← splits.idxOf_lt]
      intro isBefore
      cases byAgent with
      | true => exact inFront ⟨rfl, isBefore⟩
      | false => exact absurd isBefore (not_lt.mpr ((keeps rfl).resolve_left scheduled))
    refine ⟨before, rest.erase victim, splits.cutRest (List.erase_sublist.cons_cons _) ?_ rfl rfl⟩
    refine (congrArg (List.erase · victim) splits.running).trans ?_
    rw [List.erase_append_right _ behind, List.erase_cons_tail (by simpa using other.symm)]

omit [KVCacheManager M] [EncoderCache E] in
/-- The request in hand is the same after a victim was taken out. -/
theorem requestId_of_takeVictim
    (take : step.takeVictim probe agentVictim = .ok (victim, removedProbe, removedStep)) :
    removedProbe.requestId = probe.requestId := by
  obtain ⟨_, removed⟩ := Step.removed_of_takeVictim take
  cases removed <;> rfl

include splits in
omit [KVCacheManager M] [EncoderCache E] in
theorem Splits.takeVictim (keeps : agentVictim = none → step.scheduler.config.policy = .priority →
      Step.lowestPriority step.scheduler = some victim →
      victim ∈ step.scheduledRunningReqs ∨ step.reqIndex ≤ step.scheduler.running.idxOf victim)
    (other : victim ≠ current)
    (take : step.takeVictim probe agentVictim = .ok (victim, removedProbe, removedStep)) :
    ∃ before rest, Splits removedStep before (current :: rest) examined := by
  unfold Step.takeVictim at take
  split at take
  · obtain ⟨⟨_, _⟩, removal, take⟩ := bind_eq_ok.mp take
    cases take
    refine splits.removeVictim ?_ other removal
    exact nofun
  · next policy =>
    split at take
    · cases take
    · next lowest =>
      obtain ⟨⟨_, _⟩, removal, take⟩ := bind_eq_ok.mp take
      cases take
      exact splits.removeVictim (fun _ => keeps rfl policy lowest) other removal
  · split at take
    · cases take
    · next last =>
      cases take
      rw [splits.running, getLast?_append_cons] at last
      cases rest with
      | nil =>
        cases last
        exact absurd rfl other
      | cons head tail =>
        refine ⟨before, _, splits.cutRest ((dropLast_sublist _).cons_cons _) ?_ rfl rfl⟩
        refine (congrArg dropLast splits.running).trans ?_
        rw [dropLast_append_of_ne_nil (cons_ne_nil _ _)]
        rfl

theorem InOrder.running (inOrder : InOrder walk) (phase : walk.step.phase = .running)
    (moved : walk.step.runningTransition env = .ok next) :
    InOrder ⟨next, walk.examined ++ (examines walk.step).toList⟩ := by
  unfold InOrder at inOrder
  rw [phase] at inOrder
  obtain ⟨before, rest, splits⟩ := inOrder
  unfold Step.runningTransition at moved
  split at moved
  · cases moved
    trivial
  · next id found =>
    split at moved
    · cases moved
      trivial
    · next budget =>
      have examined : examines walk.step = some id := by
        rw [examines, if_pos ⟨phase, not_le.mp budget⟩, found]
      rw [examined]
      rw [splits.running, splits.position, getElem?_append_right le_rfl, Nat.sub_self] at found
      obtain ⟨_, rfl⟩ : ∃ tail, rest = id :: tail := by
        cases rest with
        | nil => cases found
        | cons head tail =>
          cases found
          exact ⟨tail, rfl⟩
      have skipped := sublist_append_left walk.step.scheduledRunningReqs [id]
      split at moved
      · cases moved
        exact ⟨_, _, splits.pass rfl rfl skipped⟩
      · obtain ⟨⟨probe, encoder⟩, probed, moved⟩ := bind_eq_ok.mp moved
        dsimp only at moved
        split at moved
        · cases moved
          exact ⟨_, _, splits.pass rfl rfl skipped⟩
        · have same : probe.requestId = id := by
            rw [liftResource_eq_ok] at probed
            obtain ⟨_, _, probed⟩ := bind_eq_ok.mp probed
            obtain ⟨_, _, probed⟩ := bind_eq_ok.mp probed
            cases probed
            rfl
          subst same
          obtain ⟨_, _, _, shape⟩ :=
            (walk.step.setEncoder encoder).prepareRunning_eq probe.requestId
          rw [shape] at moved
          cases moved
          exact ⟨before, _, walk.examined, { splits with }, rfl⟩

theorem InOrder.allocating {walk : RunningWalk M E}
    (splits : Splits walk.step before (probe.requestId :: rest) examined)
    (history : walk.examined = examined ++ [probe.requestId])
    (phase : walk.step.phase = .allocating probe) (keeps : keepsPosition env walk.step = true)
    (moved : walk.step.allocatingTransition env probe = .ok next) :
    InOrder ⟨next, walk.examined⟩ := by
  obtain ⟨⟨newBlocks, manager⟩, allocated, moved⟩ := bind_eq_ok.mp moved
  rw [liftResource_eq_ok] at allocated
  cases newBlocks with
  | some newBlocks =>
    obtain ⟨_, commit, moved⟩ := bind_eq_ok.mp moved
    obtain ⟨_, _, rfl⟩ := Step.commitRunning_eq_ok commit
    obtain ⟨_, allocation, moved⟩ := bind_eq_ok.mp moved
    rw [liftResource_eq_ok] at allocation
    obtain ⟨_, _, rfl⟩ := Step.allocateEncoderInputs_eq_ok allocation
    cases moved
    refine ⟨before ++ [probe.requestId], rest, ?_⟩
    rw [history]
    exact splits.pass rfl rfl (Sublist.refl _)
  | none =>
    obtain ⟨⟨agentVictim, named⟩, naming, moved⟩ := bind_eq_ok.mp moved
    obtain ⟨⟨victim, removedProbe, removed⟩, take, moved⟩ := bind_eq_ok.mp moved
    obtain ⟨_, _, moved⟩ := bind_eq_ok.mp moved
    cases moved
    have sameRequest := requestId_of_takeVictim take
    obtain ⟨controller, rfl⟩ := Step.agentVictim_eq_ok naming
    have follows : agentVictim = none → walk.step.scheduler.config.policy = .priority →
        Step.lowestPriority walk.step.scheduler = some victim →
        victim ∈ walk.step.scheduledRunningReqs ∨
          walk.step.reqIndex ≤ walk.step.scheduler.running.idxOf victim := by
      rintro rfl policy lowest
      simp only [keepsPosition, phase, allocated, naming, policy, Option.all_eq_true] at keeps
      exact of_decide_eq_true (keeps victim lowest)
    rw [InOrder, Step.afterPreemption]
    split_ifs with itself
    · trivial
    · have named : Splits ((walk.step.setManager manager).withResources manager controller
          walk.step.scheduler.encoderCacheManager) before (probe.requestId :: rest) examined :=
        { splits with }
      obtain ⟨before, rest, after⟩ := named.takeVictim follows
        (fun same => itself (same.trans sameRequest.symm)) take
      dsimp only
      rw [sameRequest, history]
      exact ⟨before, rest, examined, { after with }, rfl⟩

omit [KVCacheManager M] [EncoderCache E] in
theorem examines_of_ne (outside : step.phase ≠ .running) : examines step = none :=
  if_neg fun current => outside current.1

theorem InOrder.advance {walk following : RunningWalk M E}
    (inOrder : InOrder walk) (keeps : keepsPosition env walk.step = true)
    (advanced : walk.advance env () = .ok following) : InOrder following := by
  obtain ⟨_, inside, advanced⟩ := bind_eq_ok.mp advanced
  obtain ⟨next, moved, advanced⟩ := bind_eq_ok.mp advanced
  cases advanced
  rw [ensure_eq_ok] at inside
  unfold isInside at inside
  unfold Step.transition at moved
  cases phase : walk.step.phase with
  | running =>
    rw [phase] at moved
    exact inOrder.running phase moved
  | growing probe =>
    rw [phase] at moved
    unfold InOrder at inOrder
    rw [phase] at inOrder
    obtain ⟨before, rest, examined, splits, history⟩ := inOrder
    rw [examines_of_ne (by simp [phase]), Option.toList_none, append_nil, history]
    dsimp only [Step.growingTransition] at moved
    split at moved
    · cases moved
      exact ⟨before, rest, examined, { splits with }, rfl⟩
    · obtain ⟨allowed, _, moved⟩ := bind_eq_ok.mp moved
      cases allowed with
      | true =>
        cases moved
        exact ⟨before, rest, examined, { splits with }, rfl⟩
      | false =>
        cases moved
        exact ⟨_, rest, splits.pass rfl rfl (sublist_append_left _ _)⟩
  | allocating probe =>
    rw [phase] at moved
    unfold InOrder at inOrder
    rw [phase] at inOrder
    obtain ⟨before, rest, examined, splits, history⟩ := inOrder
    rw [examines_of_ne (by simp [phase]), Option.toList_none, append_nil]
    exact .allocating splits history phase keeps moved
  | _ =>
    rw [phase] at inside
    cases inside

/-- The loop over running requests of a call, as far as it went. -/
abbrev run (environment : StepEnvironment) (scheduler : Scheduler M E) (transitions : Nat) :
    Except EngineError (RunningWalk M E) :=
  Machine.run (advance environment) ⟨scheduler.beginStep environment, []⟩
    (List.replicate transitions ())

/-- If the loop comes to the end of the running list with tokens left, and the priority policy
never gave up a request in front of the position that the call had not scheduled, then every
running request was examined exactly once. -/
theorem examines_each_once (environment : StepEnvironment)
    (scheduler : Scheduler M E) (separate : scheduler.running.Nodup) (transitions : Nat)
    (walk : RunningWalk M E)
    (along : Machine.Along (advance environment)
      (fun walk _ => keepsPosition environment walk.step = true)
      ⟨scheduler.beginStep environment, []⟩ (List.replicate transitions ()))
    (reached : run environment scheduler transitions = .ok walk)
    (phase : walk.step.phase = .running) (tokensLeft : 0 < walk.step.tokenBudget)
    (ends : examines walk.step = none) :
    ∀ id ∈ walk.step.scheduler.running, walk.examined.count id = 1 := by
  have inOrder : InOrder walk := by
    refine Machine.invariant_of_run (fun _ _ _ => InOrder.advance) ?_ along reached
    exact ⟨[], scheduler.running, rfl, rfl, separate, Sublist.refl _, nofun, fun _ _ => nofun⟩
  unfold InOrder at inOrder
  rw [phase] at inOrder
  obtain ⟨before, rest, splits⟩ := inOrder
  rw [examines, if_pos ⟨phase, tokensLeft⟩, splits.running, splits.position,
    getElem?_append_right le_rfl, Nat.sub_self, getElem?_eq_none_iff] at ends
  obtain rfl : rest = [] := length_eq_zero_iff.mp (Nat.le_zero.mp ends)
  rw [splits.running, append_nil]
  exact splits.once

section Crowded

open Engine

/-- Four blocks of two tokens, given to requests by priority in chunks of two tokens. -/
def crowdedEngine : Engine NativeKVCacheManager EncoderCacheManager :=
  .init (.init
    { maxNumRunningReqs := 4
      maxNumScheduledTokens := 8
      maxModelLen := 8
      blockSize := 2
      policy := .priority
      longPrefillTokenThreshold := 2
      schedulerReserveFullIsl := false }
    (.init [{ kind := .fullAttention, blockSize := 2 }] 5 2 8 8 false false []) (.init 0) none)

/-- The arrival of a request with a priority. -/
def addPrioritized (requestId promptLength : Nat) (priority : Int) : EngineOperation :=
  .addRequest
    { requestId := requestId
      promptTokenIds := some (List.replicate promptLength 7)
      samplingParams := some { maxTokens := 2 }
      priority := priority }
    fun _ => false

/-- The first request waits for an answer while the others compute their prompts. -/
def crowdedRun (first third : Int) : List EngineOperation :=
  [addPrioritized 1 2 first, .schedule .quiet, answerToken,
    .schedule .quiet, addPrioritized 2 6 0, addPrioritized 3 6 third,
    .schedule .quiet]

/-- The scheduler after that run. -/
def crowdedScheduler (first third : Int) : Scheduler NativeKVCacheManager EncoderCacheManager :=
  ((crowdedEngine.run (crowdedRun first third)).toOption.getD crowdedEngine).scheduler

/-- The last request has the lowest priority and is given up. -/
theorem crowded_examines_each_once :
    ∃ walk, run .quiet (crowdedScheduler 0 5) 5 = .ok walk ∧ walk.examined = [1, 2] ∧
      ∀ id ∈ walk.step.scheduler.running, walk.examined.count id = 1 := by
  have reached := eq_ok_getD_of_isSome (run .quiet (crowdedScheduler 0 5) 5)
    ⟨crowdedEngine.scheduler.beginStep .quiet, []⟩ (by decide +kernel)
  refine ⟨_, reached, by decide +kernel, ?_⟩
  exact examines_each_once .quiet (crowdedScheduler 0 5) (by decide +kernel) 5 _
    (Machine.along_of_checkAlong _ (by decide +kernel)) reached (by decide +kernel)
    (by decide +kernel) (by decide +kernel)

/-- The first request was passed over and is given up: the position stays, and the loop ends
with tokens left and without the third request. -/
theorem passed_over_victim_hides_request :
    (run .quiet (crowdedScheduler 5 0) 5).toOption.map (fun walk =>
      (decide (walk.step.phase = .running), walk.step.tokenBudget, examines walk.step,
        walk.step.scheduler.running, walk.examined)) =
      some (true, 6, none, [2, 3], [1, 2]) := by
  decide +kernel

end Crowded

end RunningWalk

end TokenCake
