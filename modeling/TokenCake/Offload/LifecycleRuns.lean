import TokenCake.Offload.LifecycleMoves

/-!
# Runs of the lifecycle registry

What holds of every record in every reachable state, and what holds over time: the end of a
record is final, each association accepts one start and one finish of a stall, and an
identifier is not associated twice while its generation runs.
-/

namespace TokenCake

open Dict Machine

variable {registry : LifecycleRegistry} {now : ℚ} {changed : Lifecycle}

namespace LifecycleRegistry

open Lifecycle

/-- Every record comes from one that was there before. -/
def RecordsEvolve (registry next : LifecycleRegistry) : Prop :=
  ∀ identifier record, next.records.get? identifier = some record →
    ∃ earlier, registry.records.get? identifier = some earlier ∧ Evolves earlier record

theorem RecordsEvolve.refl (registry : LifecycleRegistry) : RecordsEvolve registry registry :=
  fun _ record found => ⟨record, found, .refl record⟩

theorem RecordsEvolve.trans (first : RecordsEvolve registry middle)
    (second : RecordsEvolve middle next) : RecordsEvolve registry next := by
  intro id record found
  obtain ⟨between, isBetween, later⟩ := second id record found
  obtain ⟨earlier, isEarlier, sooner⟩ := first id between isBetween
  exact ⟨earlier, isEarlier, sooner.trans later⟩

variable {custody next : Custody} {id : Text} {record : Lifecycle}

/-- Storing a record that evolved from the stored one. -/
theorem recordsEvolve_setRecord (found : registry.records.get? id = some record)
    (evolves : Evolves record changed) :
    RecordsEvolve registry (registry.setRecord id changed) := by
  intro other stored isStored
  unfold setRecord at isStored
  rw [get?_set] at isStored
  split at isStored
  · next same =>
    cases isStored
    exact ⟨record, same ▸ found, evolves⟩
  · exact ⟨stored, isStored, .refl stored⟩

/-- Retaining more blocks is the business of an owner. -/
theorem evolves_hold (owns : record.ownsPreservation = true) (retained pending : List OffloadKey) :
    Evolves record { record with retained := retained, pendingRetention := pending } where
  sound sound :=
    { owned := fun _ => owns
      terminal := fun isTerminal => by
        have running := (ownsPreservation_iff.mp owns).2.1
        have isTerminal' : record.terminalAt.isSome = true := isTerminal
        rw [running] at isTerminal'
        cases isTerminal'
      cause := sound.cause }
  terminal _ := ⟨rfl, rfl⟩
  released := id
  started _ := rfl

theorem recordsEvolve_of_move (move : Move custody next) : RecordsEvolve custody.1 next.1 := by
  cases move with
  | clerical manager records _ =>
    intro id record found
    rw [records] at found
    exact ⟨record, found, .refl record⟩
  | update manager found evolves _ => exact recordsEvolve_setRecord found evolves
  | release found _ evolves _ =>
    exact recordsEvolve_setRecord found ((evolves_withoutBlocks _).trans evolves)
  | retain manager found owns keys _ => exact recordsEvolve_setRecord found (evolves_hold owns ..)
  | erase manager found _ =>
    intro other record isRecord
    rw [get?_erase] at isRecord
    split at isRecord
    · cases isRecord
    · exact ⟨record, isRecord, .refl record⟩

theorem recordsEvolve_of_moves (moves : Moves custody next) : RecordsEvolve custody.1 next.1 := by
  induction moves with
  | refl => exact .refl _
  | tail _ move ih => exact ih.trans (recordsEvolve_of_move move)

theorem generations_of_moves
    (moves : Moves custody next) : next.1.generations = custody.1.generations := by
  induction moves with
  | refl => rfl
  | tail _ move ih =>
    rw [← ih]
    cases move with
    | clerical _ _ generations => exact generations
    | update | release | retain | erase => rfl

theorem recordsEvolve_resetRecord (returned : resetRecord now custody identifier = .ok next) :
    RecordsEvolve custody.1 next.1 ∧ next.1.generations = custody.1.generations := by
  unfold resetRecord at returned
  split at returned
  · cases returned
    exact ⟨.refl _, rfl⟩
  · next record found =>
    obtain ⟨⟨changed, left⟩, ended, returned⟩ := bind_eq_ok.mp returned
    cases returned
    refine ⟨recordsEvolve_setRecord found ?_, rfl⟩
    have cleared : Evolves record { record with retained := [] } :=
      { sound := fun sound =>
          { owned := fun held => sound.owned (.inr (held.resolve_left fun some => some rfl))
            terminal := fun isTerminal => by
              obtain ⟨noSnapshot, notPending, -, noPending⟩ := sound.terminal isTerminal
              exact ⟨noSnapshot, notPending, rfl, noPending⟩
            cause := sound.cause }
        terminal := fun _ => ⟨rfl, rfl⟩
        released := id
        started := fun _ => rfl }
    rcases terminalize_spec ended with ⟨-, rfl, -⟩ | ⟨running, rfl, -⟩
    · exact cleared
    · exact (cleared.trans (evolves_withoutBlocks _)).trans (evolves_ended running)

theorem recordsEvolve_externalReset (returned : externalResetSucceeded custody = .ok next) :
    RecordsEvolve custody.1 next.1 ∧ next.1.generations = custody.1.generations := by
  refine invariant_of_foldlM (fun state id following before stepped => ?_) ?_ returned
  · obtain ⟨evolves, generations⟩ := recordsEvolve_resetRecord stepped
    exact ⟨before.1.trans evolves, generations.trans before.2⟩
  · exact ⟨.refl _, rfl⟩

/-- The time does not change what was learned. -/
theorem history_expireRecord (returned : expireRecord now custody id = .ok next) :
    next.1.history = custody.1.history := by
  unfold expireRecord at returned
  split at returned
  · cases returned
    rfl
  · split at returned
    · split at returned <;> cases returned <;> rfl
    · split at returned
      · split at returned
        · obtain ⟨_, -, returned⟩ := bind_eq_ok.mp returned
          cases returned
          rfl
        · split at returned
          · obtain ⟨_, -, returned⟩ := bind_eq_ok.mp returned
            cases returned
            rfl
          · cases returned
            rfl
      · split at returned
        · obtain ⟨_, -, returned⟩ := bind_eq_ok.mp returned
          cases returned
          rfl
        · cases returned
          rfl

theorem history_expire
    (returned : expire custody = .ok next) : next.1.history = custody.1.history := by
  refine invariant_of_foldlM (fun _ _ _ before stepped => ?_) ?_ returned
  · exact (history_expireRecord stepped).trans before
  · rfl

end LifecycleRegistry

/-- A call of the registry, or something that happens to what it shares with others. -/
inductive RegistryOperation where
  | associate (requestId : RequestId) (metadata : TokenCakeMetadata)
  | generationFinished (identifier : Text) (cause : GenerationCause)
      (snapshot : Option PrefixSnapshot)
  | apply (event : LifecycleEvent)
  | release (identifier : Text)
  | expire
  | retainReady (identifier : Text) (keys : List OffloadKey)
  | invalidateSnapshots
  | externalResetSucceeded
  /-- The offloading scheduler waits for keys on behalf of an owner. -/
  | awaitRetention (identifier : Text) (keys : List OffloadKey)
  /-- Others change the CPU cache. -/
  | changeCache (manager : CPUOffloadingManager)

namespace RegistryOperation

open LifecycleRegistry Lifecycle

/-- Keys are awaited for records that own preservation. -/
def awaitKeys (registry : LifecycleRegistry) (identifier : Text) (keys : List OffloadKey) :
    LifecycleRegistry :=
  match registry.records.get? identifier with
  | none => registry
  | some record =>
    if record.ownsPreservation then
      registry.setRecord identifier
        { record with pendingRetention := record.pendingRetention ++ keys }
    else registry

/-- The state after an operation. -/
def step (custody : Custody) : RegistryOperation → Except OffloadError Custody
  | associate requestId metadata => do
      return (← LifecycleRegistry.associate custody requestId metadata).2
  | generationFinished identifier cause snapshot =>
    LifecycleRegistry.generationFinished custody identifier cause snapshot
  | apply event => do return (← LifecycleRegistry.apply custody event).2
  | release identifier => LifecycleRegistry.release custody identifier
  | expire => LifecycleRegistry.expire custody
  | retainReady identifier keys => LifecycleRegistry.retainReady custody identifier keys
  | invalidateSnapshots => .ok (custody.1.invalidateSnapshots, custody.2)
  | externalResetSucceeded => LifecycleRegistry.externalResetSucceeded custody
  | awaitRetention identifier keys => .ok (awaitKeys custody.1 identifier keys, custody.2)
  | changeCache manager => .ok (custody.1, manager)

/-- A call that associates an identifier with a new generation. -/
def associates (identifier : Text) (custody : Custody) : RegistryOperation → Bool
  | associate requestId metadata =>
    decide (metadata.lifecycleId = identifier) &&
      match LifecycleRegistry.associate custody requestId metadata with
      | .ok (answer, _) => answer
      | .error _ => false
  | _ => false

/-- A call that answers an event of a lifecycle with `applied`. -/
def applies (identifier : Text) (name : EventName) (custody : Custody) : RegistryOperation → Bool
  | apply event =>
    decide (event.lifecycleId = identifier ∧ event.event = name) &&
      match LifecycleRegistry.apply custody event with
      | .ok (result, _) => decide (result.disposition = .applied)
      | .error _ => false
  | _ => false

/-- Number of events of a lifecycle that a run applies. -/
def numApplied (identifier : Text) (name : EventName) : Custody → List RegistryOperation → Nat
  | _, [] => 0
  | custody, operation :: rest =>
    (if applies identifier name custody operation then 1 else 0) +
      match step custody operation with
      | .ok next => numApplied identifier name next rest
      | .error _ => 0

variable {custody next : Custody} {id : Text} {operations : List RegistryOperation}
  {record : Lifecycle} {operation : RegistryOperation} {name : EventName} {event : LifecycleEvent}
  {result : LifecycleEventResult} {metadata : TokenCakeMetadata} {id : RequestId}
  {statusCode : Nat} {final : Custody} {answer : Bool}

/-- A successful association adds one record after the time has passed. -/
theorem associate_spec
    (returned : LifecycleRegistry.associate custody id metadata = .ok (answer, next)) :
    ∃ expired, Moves custody expired ∧ (answer = false ∧ next = expired ∧
          (metadata.lifecycleId ∈ expired.1.records ∨ metadata.lifecycleId ∈ expired.1.generations) ∨
        answer = true ∧ metadata.lifecycleId ∉ expired.1.records ∧
          metadata.lifecycleId ∉ expired.1.generations ∧
          next = ({ expired.1 with
            generations := expired.1.generations.set metadata.lifecycleId id
            records := expired.1.records.set metadata.lifecycleId { metadata := metadata } },
            expired.2)) := by
  obtain ⟨⟨registry, manager⟩, expired, returned⟩ := bind_eq_ok.mp returned
  refine ⟨(registry, manager), moves_expire expired, ?_⟩
  dsimp only at returned
  split at returned
  · next taken =>
    cases returned
    exact .inl ⟨rfl, rfl, taken⟩
  · next fresh =>
    rw [not_or] at fresh
    cases returned
    exact .inr ⟨rfl, fresh.1, fresh.2, rfl⟩

theorem recordsEvolve_awaitKeys
    (registry : LifecycleRegistry) (id : Text) (keys : List OffloadKey) :
    RecordsEvolve registry (awaitKeys registry id keys) ∧
      (awaitKeys registry id keys).generations = registry.generations := by
  unfold awaitKeys
  split
  · exact ⟨.refl _, rfl⟩
  · next record found =>
    split
    · next owns => exact ⟨recordsEvolve_setRecord found (evolves_hold owns ..), rfl⟩
    · exact ⟨.refl _, rfl⟩

/-- What an operation does to the records: those it leaves come from earlier ones, apart from
the one it associates. -/
theorem records_of_step (stepped : step custody operation = .ok next)
    (found : next.1.records.get? identifier = some record) :
    (∃ earlier, custody.1.records.get? identifier = some earlier ∧ Evolves earlier record) ∨
      associates identifier custody operation = true ∧
        ∃ metadata, record = { metadata := metadata } := by
  cases operation with
  | associate id metadata =>
    obtain ⟨⟨answer, following⟩, returned, stepped⟩ := bind_eq_ok.mp stepped
    cases stepped
    obtain ⟨expired, moves, ⟨rfl, rfl, -⟩ | ⟨rfl, -, -, rfl⟩⟩ := associate_spec returned
    · exact .inl (recordsEvolve_of_moves moves identifier record found)
    · rw [get?_set] at found
      split at found
      · next same =>
        cases found
        refine .inr ⟨?_, metadata, rfl⟩
        simp [associates, returned, same]
      · exact .inl (recordsEvolve_of_moves moves identifier record found)
  | generationFinished finished cause snapshot =>
    obtain ⟨expired, before, after⟩ := moves_generationFinished stepped
    have last := recordsEvolve_of_moves after
    exact .inl ((recordsEvolve_of_moves before).trans last identifier record found)
  | apply event =>
    obtain ⟨⟨result, following⟩, returned, stepped⟩ := bind_eq_ok.mp stepped
    cases stepped
    exact .inl (recordsEvolve_of_moves (moves_apply returned) identifier record found)
  | release released =>
    exact .inl (recordsEvolve_of_moves (moves_releaseRecord stepped) identifier record found)
  | expire => exact .inl (recordsEvolve_of_moves (moves_expire stepped) identifier record found)
  | retainReady retaining keys =>
    exact .inl (recordsEvolve_of_moves (moves_retainReady stepped) identifier record found)
  | invalidateSnapshots =>
    cases stepped
    exact .inl (recordsEvolve_of_moves (moves_invalidateSnapshots _ custody.2) identifier record
      found)
  | externalResetSucceeded =>
    exact .inl ((recordsEvolve_externalReset stepped).1 identifier record found)
  | awaitRetention awaiting keys =>
    cases stepped
    exact .inl ((recordsEvolve_awaitKeys custody.1 awaiting keys).1 identifier record found)
  | changeCache manager =>
    cases stepped
    exact .inl ⟨record, found, .refl record⟩

/-- Records that come from earlier ones keep a property that evolution keeps, and so does a
new record that has it. -/
theorem all_of_run {property : Lifecycle → Prop}
    (keeps : ∀ record changed, property record → Evolves record changed → property changed)
    (fresh : ∀ metadata, property { metadata := metadata })
    {operations : List RegistryOperation} {custody final : Custody}
    (before : ∀ id record, custody.1.records.get? id = some record → property record)
    (reached : Machine.run step custody operations = .ok final) :
    ∀ id record, final.1.records.get? id = some record → property record := by
  refine invariant_of_run ?_ before (along_true operations) reached
  intro state operation next all _ stepped id record found
  rcases records_of_step stepped found with ⟨earlier, isEarlier, evolves⟩ | ⟨-, metadata, rfl⟩
  · exact keeps earlier record (all id earlier isEarlier) evolves
  · exact fresh metadata

theorem sound_fresh (metadata : TokenCakeMetadata) : Sound { metadata := metadata } where
  owned held := by simp at held
  terminal isTerminal := by simp at isTerminal
  cause := rfl

/-- While an identifier is not associated anew, its record evolves from the first one. -/
theorem evolves_of_run (sameAssociation : Machine.Along step
      (fun state operation => associates id state operation = false) custody operations)
    (reached : Machine.run step custody operations = .ok final)
    (found : final.1.records.get? id = some record) :
    ∃ earlier, custody.1.records.get? id = some earlier ∧ Evolves earlier record := by
  have traced : ∀ record, final.1.records.get? id = some record →
      ∃ earlier, custody.1.records.get? id = some earlier ∧ Evolves earlier record := by
    refine invariant_of_run ?_ (fun record isRecord => ⟨record, isRecord, .refl record⟩)
      sameAssociation reached
    intro state operation next before noAssociation stepped record isRecord
    rcases records_of_step stepped isRecord with ⟨between, isBetween, later⟩ | ⟨associated, -⟩
    · obtain ⟨earlier, isEarlier, sooner⟩ := before between isBetween
      exact ⟨earlier, isEarlier, sooner.trans later⟩
    · cases noAssociation.symm.trans associated
  exact traced record found

/-- A record accepts no further event of a name. -/
def Spent (name : EventName) (record : Lifecycle) : Prop :=
  match name with
  | .stallStarted => record.start.isSome = true
  | .stallFinished => record.terminalAt.isSome = true

theorem spent_of_evolves (spent : Spent name record)
    (evolves : Evolves record changed) : Spent name changed := by
  cases name with
  | stallStarted =>
    unfold Spent at spent ⊢
    rw [evolves.started spent]
    exact spent
  | stallFinished =>
    unfold Spent at spent ⊢
    rw [(evolves.terminal spent).1]
    exact spent

/-- An event that a record does not accept any more is not applied. -/
theorem dispose_of_spent (spent : Spent event.event record)
    (returned : dispose custody record event now = .ok (disposition, statusCode, next)) :
    disposition ≠ .applied := by
  obtain ⟨refused, -⟩ | ⟨-, ⟨isStart, notStarted, -⟩ | ⟨isFinish, running, -⟩⟩ :=
    dispose_spec returned
  · exact refused
  · rw [isStart] at spent
    exact absurd (notStarted.symm.trans spent) nofun
  · rw [isFinish] at spent
    exact absurd (running.symm.trans spent) nofun

/-- An event that is applied leaves a record that accepts no further one. -/
theorem spent_of_dispose
    (returned : dispose (registry, manager) record event now = .ok (.applied, statusCode, next)) :
    ∃ changed, next.1.records.get? event.lifecycleId = some changed ∧ Spent event.event changed := by
  obtain ⟨refused, -⟩ | ⟨-, ⟨isStart, -, -, isStarted⟩ | ⟨isFinish, running, isFinished⟩⟩ :=
    dispose_spec returned
  · exact absurd rfl refused
  · rw [isStart]
    unfold startStall at isStarted
    obtain ⟨⟨estimated, left⟩, isEstimated, isStarted⟩ := bind_eq_ok.mp isStarted
    obtain ⟨changed, isChanged, -, sameStart⟩ := get?_setH2dEstimate isEstimated
    dsimp only at isStarted isChanged
    rw [isChanged] at isStarted
    cases isStarted
    refine ⟨_, get?_setRecord_self .., ?_⟩
    rw [sameStart]
    rfl
  · rw [isFinish]
    obtain ⟨⟨sampled, learned⟩, isLearned, isFinished⟩ := bind_eq_ok.mp isFinished
    obtain ⟨-, -, sample, rfl⟩ := learn_spec isLearned
    obtain ⟨⟨changed, left⟩, ended, isFinished⟩ := bind_eq_ok.mp isFinished
    cases isFinished
    refine ⟨changed, get?_setRecord_self .., ?_⟩
    rcases terminalize_spec ended with ⟨isTerminal, -⟩ | ⟨-, rfl, -⟩
    · exact absurd (running.symm.trans isTerminal) nofun
    · rfl

/-- An event that is not applied only lets the time pass. -/
theorem unchanged_of_not_applied
    (returned : LifecycleRegistry.apply custody event = .ok (result, next))
    (notApplied : result.disposition ≠ .applied) :
    ∃ expired, LifecycleRegistry.expire custody = .ok expired ∧
      next.1.records = expired.1.records ∧ next.2 = expired.2 ∧
      next.1.history = custody.1.history := by
  obtain ⟨expired, isExpired, ⟨-, -, rfl⟩ | ⟨record, statusCode, -, isDisposed⟩⟩ :=
    apply_spec returned
  · exact ⟨next, isExpired, rfl, rfl, history_expire isExpired⟩
  · have same : next = (expired.1.readClock.2, expired.2) :=
      (dispose_spec isDisposed).elim And.right fun applied => absurd applied.1 notApplied
    have history := history_expire isExpired
    refine ⟨expired, isExpired, ?_⟩
    rw [same]
    exact ⟨rfl, rfl, history⟩

/-- All records of an identifier refuse further events of a name. -/
def AllSpent (identifier : Text) (name : EventName) (custody : Custody) : Prop :=
  ∀ record, custody.1.records.get? identifier = some record → Spent name record

theorem applies_iff {id : Text} {name : EventName} {custody : Custody}
    {operation : RegistryOperation} :
    applies id name custody operation = true ↔
      ∃ event result next, operation = .apply event ∧ event.lifecycleId = id ∧
        event.event = name ∧ LifecycleRegistry.apply custody event = .ok (result, next) ∧
        result.disposition = .applied := by
  cases operation with
  | apply event =>
    cases answered : LifecycleRegistry.apply custody event with
    | error failure => simp [applies, answered]
    | ok answer =>
      obtain ⟨result, next⟩ := answer
      simp only [applies, answered, Bool.and_eq_true, decide_eq_true_eq]
      constructor
      · rintro ⟨⟨sameId, sameName⟩, isApplied⟩
        exact ⟨event, result, next, rfl, sameId, sameName, answered, isApplied⟩
      · rintro ⟨_, _, _, ⟨⟩, sameId, sameName, again, isApplied⟩
        cases answered.symm.trans again
        exact ⟨⟨sameId, sameName⟩, isApplied⟩
  | _ => simp [applies]

theorem not_applies_of_allSpent (spent : AllSpent id name custody)
    (operation : RegistryOperation) : applies id name custody operation = false := by
  rw [Bool.eq_false_iff]
  intro applied
  obtain ⟨event, result, next, rfl, rfl, rfl, returned, isApplied⟩ := applies_iff.mp applied
  obtain ⟨expired, isExpired, ⟨-, isUnknown, -⟩ | ⟨record, statusCode, found, isDisposed⟩⟩ :=
    apply_spec returned
  · cases isUnknown.symm.trans isApplied
  · obtain ⟨earlier, isEarlier, evolves⟩ :=
      recordsEvolve_of_moves (moves_expire isExpired) _ _ found
    exact dispose_of_spent (spent_of_evolves (spent earlier isEarlier) evolves) isDisposed isApplied

theorem allSpent_of_applies (applied : applies id name custody operation = true)
    (stepped : step custody operation = .ok next) : AllSpent id name next := by
  obtain ⟨event, result, following, rfl, rfl, rfl, returned, isApplied⟩ := applies_iff.mp applied
  obtain ⟨⟨result', next'⟩, again, stepped⟩ := bind_eq_ok.mp stepped
  cases stepped
  cases returned.symm.trans again
  obtain ⟨expired, isExpired, ⟨-, isUnknown, -⟩ | ⟨record, statusCode, found, isDisposed⟩⟩ :=
    apply_spec returned
  · cases isUnknown.symm.trans isApplied
  · rw [isApplied] at isDisposed
    obtain ⟨changed, isChanged, spent⟩ := spent_of_dispose isDisposed
    intro other isOther
    cases isChanged.symm.trans isOther
    exact spent

theorem allSpent_of_step (spent : AllSpent id name custody)
    (noAssociation : associates id custody operation = false)
    (stepped : step custody operation = .ok next) : AllSpent id name next := by
  intro record found
  rcases records_of_step stepped found with ⟨earlier, isEarlier, evolves⟩ | ⟨associated, -⟩
  · exact spent_of_evolves (spent earlier isEarlier) evolves
  · cases noAssociation.symm.trans associated

theorem numApplied_eq_zero_of_allSpent (spent : AllSpent id name custody)
    (sameAssociation : Machine.Along step
      (fun state operation => associates id state operation = false) custody operations) :
    numApplied id name custody operations = 0 := by
  induction operations generalizing custody with
  | nil => rfl
  | cons operation rest ih =>
    unfold numApplied
    rw [not_applies_of_allSpent spent operation]
    cases stepped : step custody operation with
    | error failure => rfl
    | ok next =>
      simp only [Bool.false_eq_true, if_false, Nat.zero_add]
      exact ih (allSpent_of_step spent sameAssociation.1 stepped) (sameAssociation.2 next stepped)

/-- An association accepts each kind of event once. -/
theorem numApplied_le_one (name : EventName) (sameAssociation : Machine.Along step
      (fun state operation => associates id state operation = false) custody operations) :
    numApplied id name custody operations ≤ 1 := by
  induction operations generalizing custody with
  | nil => exact Nat.zero_le 1
  | cons operation rest ih =>
    unfold numApplied
    cases stepped : step custody operation with
    | error failure =>
      dsimp only
      split <;> omega
    | ok next =>
      dsimp only
      split
      · next applied =>
        rw [numApplied_eq_zero_of_allSpent (allSpent_of_applies applied stepped)
          (sameAssociation.2 next stepped)]
      · have later := ih (sameAssociation.2 next stepped)
        omega

/-- The end of the generation of an identifier. -/
def finishes (identifier : Text) : RegistryOperation → Prop
  | generationFinished finished _ _ => finished = identifier
  | _ => False

theorem generating_of_step (generating : identifier ∈ custody.1.generations)
    (unfinished : ¬finishes identifier operation)
    (stepped : step custody operation = .ok next) : identifier ∈ next.1.generations := by
  cases operation with
  | associate id metadata =>
    obtain ⟨⟨answer, following⟩, returned, stepped⟩ := bind_eq_ok.mp stepped
    cases stepped
    obtain ⟨expired, moves, ⟨-, rfl, -⟩ | ⟨-, -, -, rfl⟩⟩ := associate_spec returned
    · rw [generations_of_moves moves]
      exact generating
    · rw [mem_set, generations_of_moves moves]
      exact .inr generating
  | generationFinished finished cause snapshot =>
    obtain ⟨expired, before, after⟩ := moves_generationFinished stepped
    have different : identifier ≠ finished := fun same => unfinished same.symm
    rw [generations_of_moves after]
    rw [mem_erase, generations_of_moves before]
    exact ⟨different, generating⟩
  | apply event =>
    obtain ⟨⟨result, following⟩, returned, stepped⟩ := bind_eq_ok.mp stepped
    cases stepped
    rw [generations_of_moves (moves_apply returned)]
    exact generating
  | release released =>
    rw [generations_of_moves (moves_releaseRecord stepped)]
    exact generating
  | expire =>
    rw [generations_of_moves (moves_expire stepped)]
    exact generating
  | retainReady retaining keys =>
    rw [generations_of_moves (moves_retainReady stepped)]
    exact generating
  | invalidateSnapshots =>
    cases stepped
    have same := generations_of_moves (moves_invalidateSnapshots custody.1 custody.2)
    rw [same]
    exact generating
  | externalResetSucceeded =>
    rw [(recordsEvolve_externalReset stepped).2]
    exact generating
  | awaitRetention awaiting keys =>
    cases stepped
    rw [(recordsEvolve_awaitKeys custody.1 awaiting keys).2]
    exact generating
  | changeCache manager =>
    cases stepped
    exact generating

/-- An identifier is not associated again before its generation has finished. -/
theorem associate_refused {start : Custody} {otherId : RequestId} {other : TokenCakeMetadata}
    (associated : LifecycleRegistry.associate custody id metadata = .ok (true, start))
    (reached : Machine.run step start operations = .ok final)
    (unfinished : ∀ operation ∈ operations, ¬finishes metadata.lifecycleId operation)
    (same : other.lifecycleId = metadata.lifecycleId)
    (again : LifecycleRegistry.associate final otherId other = .ok (answer, next)) :
    answer = false := by
  have generating : metadata.lifecycleId ∈ start.1.generations := by
    obtain ⟨expired, -, ⟨isFalse, -⟩ | ⟨-, -, -, rfl⟩⟩ := associate_spec associated
    · cases isFalse
    · exact mem_set.mpr (.inl rfl)
  have still : metadata.lifecycleId ∈ final.1.generations := by
    clear associated
    induction operations generalizing start with
    | nil =>
      cases reached
      exact generating
    | cons operation rest ih =>
      obtain ⟨between, stepped, reached⟩ := (run_cons_eq_ok step).mp reached
      exact ih reached (fun other mem => unfinished other (List.mem_cons_of_mem _ mem))
        (generating_of_step generating (unfinished operation List.mem_cons_self) stepped)
  obtain ⟨expired, moves, ⟨isFalse, -⟩ | ⟨-, -, fresh, -⟩⟩ := associate_spec again
  · exact isFalse
  · rw [same, generations_of_moves moves] at fresh
    exact absurd still fresh

/-- The lifecycles of every run.  In every reachable state all records are sound.  While an
identifier is not associated anew, the end and the release of its record are final, and at
most one start and one finish are applied.  An event that is not applied only lets the time
pass.  An identifier is not associated again before its generation has finished. -/
theorem registry_sound_of_run
    {settings : OffloadConfig} {clock : Nat → ℚ} {manager : CPUOffloadingManager}
    {before after : List RegistryOperation} {custody final : Custody}
    (reached : Machine.run step ({ settings := settings, clock := clock }, manager) before =
      .ok custody)
    (continued : Machine.run step custody after = .ok final) :
    (∀ identifier record, final.1.records.get? identifier = some record → record.Sound) ∧
    (∀ identifier,
      Machine.Along step (fun state operation => associates identifier state operation = false)
        custody after →
      (∀ record changed, custody.1.records.get? identifier = some record →
        final.1.records.get? identifier = some changed →
        (record.terminalAt.isSome = true ∨ record.terminalCause.isSome = true →
          changed.terminalAt = record.terminalAt ∧ changed.terminalCause = record.terminalCause) ∧
        (record.ownershipReleased = true → changed.ownershipReleased = true)) ∧
      numApplied identifier .stallStarted custody after ≤ 1 ∧
      numApplied identifier .stallFinished custody after ≤ 1) ∧
    (∀ event result next, LifecycleRegistry.apply final event = .ok (result, next) →
      result.disposition ≠ .applied →
      ∃ expired, LifecycleRegistry.expire final = .ok expired ∧
        next.1.records = expired.1.records ∧ next.2 = expired.2 ∧
        next.1.history = final.1.history) ∧
    (∀ requestId metadata start, LifecycleRegistry.associate custody requestId metadata =
        .ok (true, start) →
      ∀ operations later, Machine.run step start operations = .ok later →
      (∀ operation ∈ operations, ¬finishes metadata.lifecycleId operation) →
      ∀ otherId other answer next, other.lifecycleId = metadata.lifecycleId →
        LifecycleRegistry.associate later otherId other = .ok (answer, next) → answer = false) := by
  have soundBefore : ∀ identifier record, custody.1.records.get? identifier = some record →
      record.Sound :=
    all_of_run (fun _ _ sound evolves => evolves.sound sound) sound_fresh
      (fun identifier record found => by cases found) reached
  have soundAfter := all_of_run (fun _ _ sound evolves => evolves.sound sound) sound_fresh
    soundBefore continued
  refine ⟨soundAfter, fun identifier sameAssociation => ⟨?_, ?_⟩, ?_, ?_⟩
  · intro record changed found isChanged
    obtain ⟨earlier, isEarlier, evolves⟩ := evolves_of_run sameAssociation continued isChanged
    cases found.symm.trans isEarlier
    refine ⟨fun ended => evolves.terminal ?_, evolves.released⟩
    rcases ended with isTerminal | hasCause
    · exact isTerminal
    · rw [← (soundBefore identifier record found).cause]
      exact hasCause
  · exact ⟨numApplied_le_one _ sameAssociation, numApplied_le_one _ sameAssociation⟩
  · exact fun event result next returned => unchanged_of_not_applied returned
  · intro requestId metadata start associated operations later run unfinished otherId other answer
      next same again
    exact associate_refused associated run unfinished same again

/-- A registry with a clock that counts its readings. -/
def emptyCustody : Custody :=
  ({ settings := {}, clock := fun reading => reading }, .init 2 (.lru ⟨.empty⟩) 1 4)

/-- A generation that completes after its stall has started. -/
def stalledRun : List RegistryOperation :=
  [.associate 1 { lifecycleId := 7 },
    .apply { event := .stallStarted, lifecycleId := 7, kind := 0, estimatedDurationS := some 100 },
    .generationFinished 7 .completed none]

/-- The state in the middle of the stall. -/
def stalledCustody : Custody := (Machine.run step emptyCustody stalledRun).toOption.getD emptyCustody

/-- The stall ends, and the event arrives twice. -/
def resumedRun : List RegistryOperation :=
  [.apply { event := .stallFinished, lifecycleId := 7, kind := 0 },
    .apply { event := .stallFinished, lifecycleId := 7, kind := 0 }]

/-- The state after the stall. -/
def resumedCustody : Custody :=
  (Machine.run step stalledCustody resumedRun).toOption.getD stalledCustody

theorem stalledRun_registry_sound :
    (∀ identifier record, resumedCustody.1.records.get? identifier = some record → record.Sound) ∧
      numApplied 7 .stallFinished stalledCustody resumedRun ≤ 1 := by
  have reached : run step ({ settings := {}, clock := fun reading => reading },
      .init 2 (.lru ⟨.empty⟩) 1 4) stalledRun = .ok stalledCustody :=
    eq_ok_getD_of_isSome _ _ (by decide +kernel)
  have continued : run step stalledCustody resumedRun = .ok resumedCustody :=
    eq_ok_getD_of_isSome _ _ (by decide +kernel)
  have result := registry_sound_of_run reached continued
  exact ⟨result.1, (result.2.1 7 (along_of_checkAlong step (by decide +kernel))).2.2⟩

end RegistryOperation

end TokenCake
