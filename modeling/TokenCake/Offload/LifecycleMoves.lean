import TokenCake.Offload.Lifecycle

/-!
# What happens to lifecycles

Every call of the registry is a sequence of a few moves: a record changes without touching
the cache, gives up its blocks, retains blocks, loses them to a reset, or is forgotten.
Properties of runs follow from what one move does.
-/

namespace TokenCake

variable {cause : TerminalCause}

namespace Lifecycle

/-- Blocks are held only by an owner, and an ended lifecycle holds nothing. -/
structure Sound (record : Lifecycle) : Prop where
  owned : record.retained ≠ [] ∨ record.pendingRetention ≠ [] → record.ownsPreservation = true
  terminal : record.terminalAt.isSome = true →
    record.snapshot = none ∧ record.pendingEvaluation = false ∧ record.retained = [] ∧
      record.pendingRetention = []
  cause : record.terminalCause.isSome = record.terminalAt.isSome

/-- What stays the same in the life of a record. -/
structure Evolves (record next : Lifecycle) : Prop where
  sound : record.Sound → next.Sound
  terminal : record.terminalAt.isSome = true →
    next.terminalAt = record.terminalAt ∧ next.terminalCause = record.terminalCause
  released : record.ownershipReleased = true → next.ownershipReleased = true
  started : record.start.isSome = true → next.start = record.start

variable {record middle next : Lifecycle} {manager left : CPUOffloadingManager}

theorem Evolves.refl (record : Lifecycle) : Evolves record record :=
  ⟨id, fun _ => ⟨rfl, rfl⟩, id, fun _ => rfl⟩

theorem Evolves.trans (first : Evolves record middle) (second : Evolves middle next) :
    Evolves record next where
  sound sound := second.sound (first.sound sound)
  terminal isTerminal := by
    obtain ⟨sameTime, sameCause⟩ := first.terminal isTerminal
    have later := second.terminal (by rw [sameTime]; exact isTerminal)
    rw [sameTime, sameCause] at later
    exact later
  released isReleased := second.released (first.released isReleased)
  started isStarted := by
    have same := first.started isStarted
    rw [second.started (by rw [same]; exact isStarted), same]

theorem ownsPreservation_iff :
    record.ownsPreservation = true ↔ record.start.isSome = true ∧ record.terminalAt.isSome = false ∧
        record.ownershipReleased = false := by
  unfold ownsPreservation
  cases record.terminalAt <;> simp

/-- A sound record that owns no preservation holds no blocks. -/
theorem Sound.holds_nothing (sound : record.Sound) (disowned : record.ownsPreservation = false) :
    record.retained = [] ∧ record.pendingRetention = [] := by
  have nothing : ¬(record.retained ≠ [] ∨ record.pendingRetention ≠ []) := fun held => by
    cases (sound.owned held).symm.trans disowned
  simpa only [not_or, not_not] using nothing

/-- A record that released its blocks. -/
def withoutBlocks (record : Lifecycle) : Lifecycle :=
  { record with retained := [], pendingRetention := [], ownershipReleased := true }

theorem release_spec (released : record.release manager = .ok (next, left)) :
    next = record.withoutBlocks ∧
      (record.retained = [] ∧ left = manager ∨ manager.release record.retained = .ok left) := by
  unfold release at released
  split at released
  · next nothing =>
    cases released
    exact ⟨rfl, .inl ⟨List.isEmpty_iff.mp nothing, rfl⟩⟩
  · obtain ⟨left', isReleased, returned⟩ := bind_eq_ok.mp released
    cases returned
    exact ⟨rfl, .inr isReleased⟩

theorem evolves_withoutBlocks (record : Lifecycle) : Evolves record record.withoutBlocks where
  sound sound :=
    { owned := fun held => by simp [withoutBlocks] at held
      terminal := fun isTerminal => by
        obtain ⟨noSnapshot, notPending, -⟩ := sound.terminal isTerminal
        exact ⟨noSnapshot, notPending, rfl, rfl⟩
      cause := sound.cause }
  terminal _ := ⟨rfl, rfl⟩
  released _ := rfl
  started _ := rfl

/-- A record that ended. -/
def ended (record : Lifecycle) (cause : TerminalCause) (now : ℚ) : Lifecycle :=
  { record.withoutBlocks with
    snapshot := none
    pendingEvaluation := false
    nextEvaluationStep := 0
    backoffSignature := none
    terminalCause := some cause
    terminalAt := some now }

variable {now : ℚ}

theorem evolves_ended (running : record.terminalAt.isSome = false) :
    Evolves record.withoutBlocks (record.ended cause now) where
  sound _ :=
    { owned := fun held => by simp [ended, withoutBlocks] at held
      terminal := fun _ => ⟨rfl, rfl, rfl, rfl⟩
      cause := rfl }
  terminal isTerminal := by
    have same : record.withoutBlocks.terminalAt = record.terminalAt := rfl
    rw [same, running] at isTerminal
    cases isTerminal
  released _ := rfl
  started _ := rfl

theorem terminalize_spec (returned : record.terminalize cause now manager = .ok (next, left)) :
    record.terminalAt.isSome = true ∧ next = record ∧ left = manager ∨
      record.terminalAt.isSome = false ∧ next = record.ended cause now ∧
        record.release manager = .ok (record.withoutBlocks, left) := by
  unfold terminalize at returned
  split at returned
  · next isTerminal =>
    cases returned
    exact .inl ⟨isTerminal, rfl, rfl⟩
  · next running =>
    obtain ⟨⟨released, manager'⟩, isReleased, returned⟩ := bind_eq_ok.mp returned
    cases returned
    have same := (release_spec isReleased).1
    subst same
    exact .inr ⟨by simpa using running, rfl, isReleased⟩

end Lifecycle

namespace LifecycleRegistry

open Lifecycle

/-- One thing that happens to the registry and the cache. -/
inductive Move : Custody → Custody → Prop where
  /-- The clock is read, or the learned durations change. -/
  | clerical {registry next : LifecycleRegistry} (manager : CPUOffloadingManager)
      (records : next.records = registry.records)
      (generations : next.generations = registry.generations) :
      Move (registry, manager) (next, manager)
  /-- A record changes, but not the blocks it retains. -/
  | update {registry : LifecycleRegistry} {identifier : Text} {record changed : Lifecycle}
      (manager : CPUOffloadingManager) (found : registry.records.get? identifier = some record)
      (evolves : Evolves record changed) (retained : changed.retained = record.retained) :
      Move (registry, manager) (registry.setRecord identifier changed, manager)
  /-- A record gives up its blocks, and may change otherwise. -/
  | release {registry : LifecycleRegistry} {identifier : Text} {record changed : Lifecycle}
      {manager left : CPUOffloadingManager} (found : registry.records.get? identifier = some record)
      (released : record.release manager = .ok (record.withoutBlocks, left))
      (evolves : Evolves record.withoutBlocks changed) (retained : changed.retained = []) :
      Move (registry, manager) (registry.setRecord identifier changed, left)
  /-- An owner retains blocks. -/
  | retain {registry : LifecycleRegistry} {identifier : Text} {record : Lifecycle}
      (manager : CPUOffloadingManager) (found : registry.records.get? identifier = some record)
      (owns : record.ownsPreservation = true) (keys : List OffloadKey)
      (fresh : ∀ key ∈ keys, key ∉ record.retained) :
      Move (registry, manager) (registry.setRecord identifier
          { record with retained := record.retained ++ (manager.retain keys).1 },
          (manager.retain keys).2)
  /-- An ended record is forgotten. -/
  | erase {registry : LifecycleRegistry} {identifier : Text} {record : Lifecycle}
      (manager : CPUOffloadingManager) (found : registry.records.get? identifier = some record)
      (isTerminal : record.terminalAt.isSome = true) :
      Move (registry, manager)
        ({ registry with records := registry.records.erase identifier }, manager)

/-- A sequence of moves. -/
abbrev Moves : Custody → Custody → Prop := Relation.ReflTransGen Move

theorem Moves.readClock (registry : LifecycleRegistry) (manager : CPUOffloadingManager) :
    Moves (registry, manager) (registry.readClock.2, manager) :=
  .single (.clerical manager rfl rfl)

variable {registry : LifecycleRegistry} {next custody : Custody} {manager : CPUOffloadingManager}
  {record : Lifecycle} {id : Text} {event : LifecycleEvent} {now : ℚ}
  {result : Lifecycle × CPUOffloadingManager} {seconds : ℚ}

/-- Storing what a release made of a record. -/
theorem moves_release (found : registry.records.get? id = some record)
    (released : record.release manager = .ok result) :
    Moves (registry, manager) (registry.storeRecord id result) := by
  obtain ⟨next, left⟩ := result
  have same := (release_spec released).1
  subst same
  exact .single (.release found released (.refl _) rfl)

/-- Storing what the end of a record made of it. -/
theorem moves_terminalize (found : registry.records.get? id = some record)
    (returned : record.terminalize cause now manager = .ok result) :
    Moves (registry, manager) (registry.storeRecord id result) := by
  obtain ⟨next, left⟩ := result
  rcases terminalize_spec returned with ⟨-, rfl, rfl⟩ | ⟨running, rfl, released⟩
  · exact .single (.update _ found (.refl _) rfl)
  · exact .single (.release found released (evolves_ended running) rfl)

theorem moves_expireRecord
    (returned : expireRecord now custody id = .ok next) : Moves custody next := by
  unfold expireRecord at returned
  split at returned
  · cases returned
    exact .refl
  · next record found =>
    split at returned
    · next terminalAt isTerminal =>
      split at returned
      · cases returned
        exact .single (.erase _ found (by rw [isTerminal]; rfl))
      · cases returned
        exact .refl
    · split at returned
      · split at returned
        · obtain ⟨result, ended, returned⟩ := bind_eq_ok.mp returned
          cases returned
          exact moves_terminalize found ended
        · split at returned
          · obtain ⟨result, released, returned⟩ := bind_eq_ok.mp returned
            cases returned
            exact moves_release found released
          · cases returned
            exact .refl
      · split at returned
        · obtain ⟨result, ended, returned⟩ := bind_eq_ok.mp returned
          cases returned
          exact moves_terminalize found ended
        · cases returned
          exact .refl

theorem moves_expire (returned : expire custody = .ok next) : Moves custody next := by
  refine invariant_of_foldlM (fun state id next moved stepped => ?_) (.readClock _ _) returned
  exact moved.trans (moves_expireRecord stepped)

theorem setRecord_setRecord (registry : LifecycleRegistry) (id : Text) (first second : Lifecycle) :
    (registry.setRecord id first).setRecord id second = registry.setRecord id second := by
  unfold setRecord
  simp only [Dict.set_set]

theorem get?_setRecord_self (registry : LifecycleRegistry) (id : Text) (record : Lifecycle) :
    (registry.setRecord id record).records.get? id = some record :=
  Dict.get?_set_self ..

/-- The end of a generation: it is struck from the generations after the time has passed. -/
theorem moves_generationFinished {cause : GenerationCause} {snapshot : Option PrefixSnapshot}
    (returned : generationFinished custody identifier cause snapshot = .ok next) :
    ∃ expired, Moves custody expired ∧
      Moves ({ expired.1 with generations := expired.1.generations.erase identifier }, expired.2)
        next := by
  obtain ⟨⟨registry, manager⟩, expired, returned⟩ := bind_eq_ok.mp returned
  refine ⟨_, moves_expire expired, ?_⟩
  dsimp only at returned
  split at returned
  · cases returned
    exact .refl
  · next record found =>
    split at returned
    · cases returned
      exact .refl
    · next running =>
      refine (Moves.readClock ..).trans ?_
      split at returned
      · obtain ⟨result, ended, returned⟩ := bind_eq_ok.mp returned
        cases returned
        exact moves_terminalize found ended
      · cases returned
        have evolves : Evolves record
            { record with
              completedAt := some (registry.clock registry.readings)
              snapshot := snapshot
              pendingEvaluation := record.start.isSome } :=
          { sound := fun sound =>
              ⟨sound.owned, fun isTerminal => absurd isTerminal running, sound.cause⟩
            terminal := fun _ => ⟨rfl, rfl⟩
            released := id
            started := fun _ => rfl }
        exact .single (.update manager found evolves rfl)

/-- A record is given up if its blocks could not be loaded back in time. -/
theorem moves_setH2dEstimate (found : registry.records.get? identifier = some record)
    (returned : setH2dEstimate (registry, manager) identifier record seconds = .ok next) :
    Moves (registry, manager) next := by
  unfold setH2dEstimate at returned
  split at returned
  · cases returned
  · next startedAt isStarted =>
    dsimp only at returned
    refine (Moves.readClock registry manager).trans ?_
    have evolves : ∀ deadline, Evolves record { record with releaseDeadline := deadline } :=
      fun deadline => ⟨fun sound => { sound with }, fun _ => ⟨rfl, rfl⟩, id, fun _ => rfl⟩
    split at returned
    · obtain ⟨result, released, returned⟩ := bind_eq_ok.mp returned
      cases returned
      have stays : registry.readClock.2.records.get? identifier = some record := found
      have updated := Move.update manager stays (evolves (some (startedAt +
        record.predictedDuration - max registry.settings.releaseLeadS (5 / 4 * seconds)))) rfl
      have moved := moves_release (get?_setRecord_self registry.readClock.2 identifier _) released
      unfold storeRecord at moved ⊢
      rw [setRecord_setRecord] at moved
      exact .head updated moved
    · cases returned
      exact .single (.update manager found (evolves _) rfl)

/-- The estimate may as well be taken after the record was stored. -/
theorem setH2dEstimate_setRecord (registry : LifecycleRegistry) (manager : CPUOffloadingManager)
    (id : Text) (record : Lifecycle) (seconds : ℚ) :
    setH2dEstimate (registry.setRecord id record, manager) id record seconds =
      setH2dEstimate (registry, manager) id record seconds := by
  have stored : ∀ changed, (registry.setRecord id record).readClock.2.setRecord id changed =
        registry.readClock.2.setRecord id changed := by
    intro changed
    exact setRecord_setRecord registry.readClock.2 id record changed
  unfold setH2dEstimate
  cases record.startedAt with
  | none => rfl
  | some startedAt =>
    dsimp only [storeRecord]
    simp only [stored]
    rfl

/-- The estimate neither starts nor ends a record. -/
theorem get?_setH2dEstimate (returned : setH2dEstimate custody id record seconds = .ok next) :
    ∃ changed, next.1.records.get? id = some changed ∧
      changed.terminalAt = record.terminalAt ∧ changed.start = record.start := by
  unfold setH2dEstimate at returned
  split at returned
  · cases returned
  · dsimp only at returned
    split at returned
    · obtain ⟨⟨changed, left⟩, released, returned⟩ := bind_eq_ok.mp returned
      cases returned
      have same := (release_spec released).1
      subst same
      exact ⟨_, get?_setRecord_self .., rfl, rfl⟩
    · cases returned
      exact ⟨_, get?_setRecord_self .., rfl, rfl⟩

theorem predict_spec (registry : LifecycleRegistry) (record : Lifecycle) (event : LifecycleEvent) :
    (registry.predict record event).2.records = registry.records ∧
      (registry.predict record event).2.generations = registry.generations := by
  unfold predict
  dsimp only
  split <;> exact ⟨rfl, rfl⟩

variable (found : registry.records.get? event.lifecycleId = some record)

include found in
theorem moves_startStall
    (notStarted : record.start.isSome = false) (running : record.terminalAt.isSome = false)
    (returned : startStall (registry, manager) record event now = .ok next) :
    Moves (registry, manager) next := by
  unfold startStall at returned
  have predicted := predict_spec registry record event
  generalize registry.predict record event = prediction at returned predicted
  obtain ⟨duration, learned⟩ := prediction
  set started : Lifecycle :=
    { record with
      start := some event
      startedAt := some now
      predictedDuration := duration
      safetyDeadline := some (now + min 3600 (max 60 (4 * duration))) } with isStarted
  have evolves : Evolves record started :=
    { sound := fun sound => by
        have disowned : record.ownsPreservation = false := by
          unfold ownsPreservation
          rw [notStarted]
          rfl
        obtain ⟨noBlocks, noPending⟩ := sound.holds_nothing disowned
        refine ⟨fun held => ?_, fun isTerminal => ?_, sound.cause⟩
        · rcases held with held | held
          · exact absurd noBlocks held
          · exact absurd noPending held
        · have same : started.terminalAt = record.terminalAt := rfl
          rw [same, running] at isTerminal
          cases isTerminal
      terminal := fun _ => ⟨rfl, rfl⟩
      released := id
      started := fun isSome => by
        rw [notStarted] at isSome
        cases isSome }
  have stays : learned.records.get? event.lifecycleId = some record := by rw [predicted.1, found]
  obtain ⟨⟨estimated, left⟩, isEstimated, returned⟩ := bind_eq_ok.mp returned
  obtain ⟨changed, isChanged, sameTerminal, -⟩ := get?_setH2dEstimate isEstimated
  rw [← setH2dEstimate_setRecord] at isEstimated
  have moved := moves_setH2dEstimate (get?_setRecord_self learned event.lifecycleId started)
    isEstimated
  have first : Moves (registry, manager) (estimated, left) :=
    (Relation.ReflTransGen.single (.clerical manager predicted.1 predicted.2)).trans
      (.head (.update manager stays evolves rfl) moved)
  refine first.trans ?_
  dsimp only at returned isChanged
  rw [isChanged] at returned
  cases returned
  have marked : Evolves changed { changed with pendingEvaluation := changed.completedAt.isSome } :=
    { sound := fun sound => by
        refine ⟨sound.owned, fun isTerminal => ?_, sound.cause⟩
        have notTerminal : changed.terminalAt.isSome = false := by
          rw [sameTerminal]
          exact running
        have isTerminal' : changed.terminalAt.isSome = true := isTerminal
        rw [notTerminal] at isTerminal'
        cases isTerminal'
      terminal := fun _ => ⟨rfl, rfl⟩
      released := id
      started := fun _ => rfl }
  exact .single (.update left isChanged marked rfl)

theorem learn_spec (returned : registry.learn record now = .ok (sampled, learned)) :
    learned.records = registry.records ∧ learned.generations = registry.generations ∧
      ∃ sample, sampled = { record with anonymousSample := sample } := by
  unfold learn at returned
  split at returned
  · split at returned
    · cases returned
      exact ⟨rfl, rfl, _, rfl⟩
    · split at returned
      · cases returned
        exact ⟨rfl, rfl, record.anonymousSample, rfl⟩
      · cases returned
        exact ⟨rfl, rfl, record.anonymousSample, rfl⟩
  · cases returned

include found in
theorem moves_finishStall (returned : finishStall (registry, manager) record event now = .ok next) :
    Moves (registry, manager) next := by
  obtain ⟨⟨sampled, learned⟩, isLearned, returned⟩ := bind_eq_ok.mp returned
  obtain ⟨sameRecords, sameGenerations, sample, rfl⟩ := learn_spec isLearned
  obtain ⟨result, ended, returned⟩ := bind_eq_ok.mp returned
  cases returned
  have accepted : Evolves record
      { record with anonymousSample := sample, finishAccepted := true } :=
    ⟨fun sound => { sound with }, fun _ => ⟨rfl, rfl⟩, id, fun _ => rfl⟩
  have stays : learned.records.get? event.lifecycleId = some record := by rw [sameRecords, found]
  have updated := Move.update manager stays accepted rfl
  have moved := moves_terminalize (get?_setRecord_self learned event.lifecycleId _) ended
  unfold storeRecord at moved ⊢
  rw [setRecord_setRecord] at moved
  exact .head (.clerical manager sameRecords sameGenerations) (.head updated moved)

/-- An event is refused and changes nothing, or it starts or finishes the stall. -/
theorem dispose_spec
    (returned : dispose custody record event now = .ok (disposition, statusCode, next)) :
    disposition ≠ .applied ∧ next = custody ∨ disposition = .applied ∧
      (event.event = .stallStarted ∧ record.start.isSome = false ∧
          record.terminalAt.isSome = false ∧ startStall custody record event now = .ok next ∨
        event.event = .stallFinished ∧ record.terminalAt.isSome = false ∧
          finishStall custody record event now = .ok next) := by
  unfold dispose at returned
  split at returned
  · next isStart =>
    split at returned
    · cases returned
      exact .inl ⟨nofun, rfl⟩
    · split at returned
      · cases returned
        exact .inl ⟨nofun, rfl⟩
      · next unclaimed =>
        rw [not_or, Bool.not_eq_true, Bool.not_eq_true] at unclaimed
        obtain ⟨started, isStarted, returned⟩ := bind_eq_ok.mp returned
        cases returned
        exact .inr ⟨rfl, .inl ⟨isStart, unclaimed.1, unclaimed.2, isStarted⟩⟩
  · next isFinish =>
    split at returned
    · cases returned
      exact .inl ⟨by split <;> nofun, rfl⟩
    · next running =>
      split at returned
      · cases returned
        exact .inl ⟨nofun, rfl⟩
      · obtain ⟨finished, isFinished, returned⟩ := bind_eq_ok.mp returned
        cases returned
        exact .inr ⟨rfl, .inr ⟨isFinish, Bool.not_eq_true _ ▸ running, isFinished⟩⟩

theorem apply_spec {result : LifecycleEventResult}
    (returned : apply custody event = .ok (result, next)) :
    ∃ expired, expire custody = .ok expired ∧
      (expired.1.records.get? event.lifecycleId = none ∧ result.disposition = .unknown ∧
          next = expired ∨
        ∃ record statusCode, expired.1.records.get? event.lifecycleId = some record ∧
          dispose (expired.1.readClock.2, expired.2) record event expired.1.readClock.1 =
            .ok (result.disposition, statusCode, next)) := by
  obtain ⟨⟨registry, manager⟩, expired, returned⟩ := bind_eq_ok.mp returned
  refine ⟨(registry, manager), expired, ?_⟩
  dsimp only at returned
  split at returned
  · next absent =>
    cases returned
    exact .inl ⟨absent, rfl, rfl⟩
  · next record found =>
    obtain ⟨⟨disposition, statusCode, disposed⟩, isDisposed, returned⟩ := bind_eq_ok.mp returned
    cases returned
    exact .inr ⟨record, statusCode, found, isDisposed⟩

theorem moves_apply {result : LifecycleEventResult}
    (returned : apply custody event = .ok (result, next)) : Moves custody next := by
  obtain ⟨expired, isExpired, ⟨-, -, rfl⟩ | ⟨record, statusCode, found, isDisposed⟩⟩ :=
    apply_spec returned
  · exact moves_expire isExpired
  · refine (moves_expire isExpired).trans ((Moves.readClock ..).trans ?_)
    obtain ⟨-, rfl⟩ | ⟨-, ⟨-, notStarted, running, isStarted⟩ | ⟨-, -, isFinished⟩⟩ :=
      dispose_spec isDisposed
    · exact .refl
    · exact moves_startStall found notStarted running isStarted
    · exact moves_finishStall found isFinished

theorem moves_retainReady
    (returned : retainReady custody id keys = .ok next) : Moves custody next := by
  obtain ⟨⟨registry, manager⟩, expired, returned⟩ := bind_eq_ok.mp returned
  refine (moves_expire expired).trans ?_
  dsimp only at returned
  split at returned
  · cases returned
    exact .refl
  · next record found =>
    split at returned
    · next owns =>
      cases returned
      exact .single (.retain manager found owns _ fun key mem =>
        of_decide_eq_true (List.mem_filter.mp mem).2)
    · cases returned
      exact .refl

theorem moves_releaseRecord (returned : release custody id = .ok next) : Moves custody next := by
  unfold release at returned
  split at returned
  · cases returned
    exact .refl
  · next record found =>
    obtain ⟨result, released, returned⟩ := bind_eq_ok.mp returned
    cases returned
    exact moves_release found released

theorem moves_invalidateSnapshots (registry : LifecycleRegistry) (manager : CPUOffloadingManager) :
    Moves (registry, manager) (registry.invalidateSnapshots, manager) := by
  unfold invalidateSnapshots
  generalize registry.records.keys = identifiers
  induction identifiers generalizing registry with
  | nil => exact .refl
  | cons identifier rest ih =>
    rw [List.foldl_cons]
    refine Relation.ReflTransGen.trans ?_ (ih _)
    split
    · exact .refl
    · next record found =>
      have evolves : Evolves record
          { record with snapshot := none, pendingEvaluation := false } :=
        { sound := fun sound => ⟨sound.owned, fun isTerminal => by
            obtain ⟨-, -, noBlocks, noPending⟩ := sound.terminal isTerminal
            exact ⟨rfl, rfl, noBlocks, noPending⟩, sound.cause⟩
          terminal := fun _ => ⟨rfl, rfl⟩
          released := id
          started := fun _ => rfl }
      exact .single (.update manager found evolves rfl)

end LifecycleRegistry

end TokenCake
