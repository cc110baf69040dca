import TokenCake.KVCache.BlockPool
import TokenCake.Offload.CpuManager

/-!
# Lifecycles

A lifecycle follows one generation through the stall that comes after it.  While it owns
preservation, it retains blocks in the CPU cache.  Metrics are left out.

Every reading of the clock is the next element of a sequence of times.
-/

namespace TokenCake

/-- How a generation ended. -/
inductive GenerationCause where
  | completed
  | aborted
  | error
deriving DecidableEq, Repr

/-- Why a lifecycle ended. -/
inductive TerminalCause where
  | completed
  | finished
  | aborted
  | error
  | expired
  | reset
deriving DecidableEq, Repr

/-- The end of a lifecycle with its generation. -/
def GenerationCause.toTerminalCause : GenerationCause → TerminalCause
  | completed => .completed
  | aborted => .aborted
  | error => .error

/-- The events that an application reports. -/
inductive EventName where
  | stallStarted
  | stallFinished
deriving DecidableEq, Repr

/-- What became of an event. -/
inductive Disposition where
  | applied
  | duplicate
  | lateFinish
  | unknown
  | conflict
deriving DecidableEq, Repr

/-- An event of a stall. -/
structure LifecycleEvent where
  event : EventName
  lifecycleId : Text
  kind : Text
  estimatedDurationS : Option ℚ := none
deriving DecidableEq

/-- The state of a lifecycle, as an answer to an event names it. -/
inductive LifecycleState where
  | unknown
  | generating
  | awaitingStart
  | active
  | released
  | terminal (cause : TerminalCause)
deriving DecidableEq, Repr

/-- The answer to an event. -/
structure LifecycleEventResult where
  lifecycleId : Text
  event : EventName
  state : LifecycleState
  disposition : Disposition
  statusCode : Nat := 200
deriving DecidableEq

/-- Settings of the preservation of prefixes. -/
structure OffloadConfig where
  enabled : Bool := true
  minGpuUsage : ℚ := 60 / 100
  highPressureGpuUsage : ℚ := 85 / 100
  scoreThreshold : ℚ := 1
  defaultStallS : ℚ := 1
  releaseLeadS : ℚ := 1 / 10
  ewmaAlpha : ℚ := 1 / 2

/-- The offloadable blocks of one group at the end of a generation. -/
structure SnapshotGroup where
  keys : List OffloadKey
  blockIds : List (List BlockId)
  gpuHashes : List (List (Option BlockHashWithGroupId))
deriving DecidableEq

/-- The blocks of a finished generation. -/
structure PrefixSnapshot where
  groups : List SnapshotGroup
  /-- The request of the context that is passed to the CPU cache. -/
  reqId : RequestId
deriving DecidableEq

/-- The record of one agent's generation and the stall behind it. -/
structure Lifecycle where
  metadata : TokenCakeMetadata
  completedAt : Option ℚ := none
  snapshot : Option PrefixSnapshot := none
  start : Option LifecycleEvent := none
  startedAt : Option ℚ := none
  predictedDuration : ℚ := 0
  /-- `none` stands for infinity. -/
  safetyDeadline : Option ℚ := none
  releaseDeadline : Option ℚ := none
  ownershipReleased : Bool := false
  retained : List OffloadKey := []
  pendingRetention : List OffloadKey := []
  pendingEvaluation : Bool := false
  nextEvaluationStep : Nat := 0
  backoffSignature : Option (List Int) := none
  lastStoreStep : Int := -5
  terminalCause : Option TerminalCause := none
  terminalAt : Option ℚ := none
  finishAccepted : Bool := false
  anonymousSample : Option ℚ := none

namespace Lifecycle

/-- The state of a record, which is not stored. -/
def state (record : Lifecycle) : LifecycleState :=
  match record.terminalCause with
  | some cause => .terminal cause
  | none =>
    if record.start.isSome then if record.ownershipReleased then .released else .active
    else if record.completedAt.isNone then .generating
    else .awaitingStart

/-- Whether blocks may be preserved for a record. -/
def ownsPreservation (record : Lifecycle) : Bool :=
  record.start.isSome && record.terminalAt.isNone && !record.ownershipReleased

/-- Give up all blocks. -/
def release (record : Lifecycle) (manager : CPUOffloadingManager) :
    Except OffloadError (Lifecycle × CPUOffloadingManager) := do
  let manager ← if record.retained.isEmpty then pure manager else manager.release record.retained
  return ({ record with retained := [], pendingRetention := [], ownershipReleased := true },
    manager)

/-- End a lifecycle, unless it has ended already. -/
def terminalize
    (record : Lifecycle) (cause : TerminalCause) (now : ℚ) (manager : CPUOffloadingManager) :
    Except OffloadError (Lifecycle × CPUOffloadingManager) :=
  if record.terminalAt.isSome then .ok (record, manager)
  else do
    let (record, manager) ← record.release manager
    return ({ record with
      snapshot := none
      pendingEvaluation := false
      nextEvaluationStep := 0
      backoffSignature := none
      terminalCause := some cause
      terminalAt := some now }, manager)

end Lifecycle

/-- Key of a learned duration. -/
inductive HistoryKey where
  | type (agentType kind : Text)
  | name (agentName kind : Text)
deriving DecidableEq, Repr

/-- All lifecycles that are known. -/
structure LifecycleRegistry where
  settings : OffloadConfig
  /-- The readings of the clock. -/
  clock : Nat → ℚ
  /-- Number of readings so far. -/
  readings : Nat := 0
  records : Dict Text Lifecycle := .empty
  /-- The request that generates for a lifecycle. -/
  generations : Dict Text RequestId := .empty
  /-- Learned durations, least recently used first. -/
  history : Dict HistoryKey ℚ := .empty

namespace LifecycleRegistry

/-- Time for a stall to begin after a generation. -/
def attachSeconds : ℚ := 60

/-- Time for which a record that ended is kept. -/
def tombstoneSeconds : ℚ := 60

/-- The most durations that are remembered. -/
def historyLimit : Nat := 4096

/-- The time, and the registry after the clock was read. -/
def readClock (registry : LifecycleRegistry) : ℚ × LifecycleRegistry :=
  (registry.clock registry.readings, { registry with readings := registry.readings + 1 })

variable (custody : Custody) (registry : LifecycleRegistry) (record : Lifecycle)
  (identifier : Text) (event : LifecycleEvent)

/-- Store a record. -/
def setRecord (record : Lifecycle) : LifecycleRegistry :=
  { registry with records := registry.records.set identifier record }

/-- Whether a deadline has passed. -/
def reached (deadline : Option ℚ) (now : ℚ) : Bool :=
  match deadline with
  | none => false
  | some deadline => decide (now ≥ deadline)

/-- The registry together with the CPU cache in which its lifecycles retain blocks. -/
abbrev Custody := LifecycleRegistry × CPUOffloadingManager

/-- Store what a change made of a record, next to the cache it left. -/
def storeRecord (changed : Lifecycle × CPUOffloadingManager) : Custody :=
  (registry.setRecord identifier changed.1, changed.2)

/-- What the time does to one lifecycle. -/
def expireRecord (now : ℚ) (custody : Custody) (identifier : Text) : Except OffloadError Custody :=
  match custody.1.records.get? identifier with
  | none => .ok custody
  | some record =>
    match record.terminalAt with
    | some terminalAt =>
      if now ≥ terminalAt + tombstoneSeconds then
        .ok ({ custody.1 with records := custody.1.records.erase identifier }, custody.2)
      else .ok custody
    | none =>
      if record.startedAt.isSome then
        if reached record.safetyDeadline now then do
          return custody.1.storeRecord identifier (← record.terminalize .expired now custody.2)
        else if reached record.releaseDeadline now then do
          return custody.1.storeRecord identifier (← record.release custody.2)
        else .ok custody
      else if reached (record.completedAt.map (· + attachSeconds)) now then do
        return custody.1.storeRecord identifier (← record.terminalize .expired now custody.2)
      else .ok custody

/-- Let the time pass for every lifecycle. -/
def expire (custody : Custody) : Except OffloadError Custody :=
  let (now, registry) := custody.1.readClock
  registry.records.keys.foldlM (expireRecord now) (registry, custody.2)

/-- Associate a generation with a new lifecycle; the answer is false if the lifecycle already
belongs to a generation, which the source reports as an exception. -/
def associate (requestId : RequestId)
    (metadata : TokenCakeMetadata) : Except OffloadError (Bool × Custody) := do
  let (registry, manager) ← expire custody
  let identifier := metadata.lifecycleId
  if identifier ∈ registry.records ∨ identifier ∈ registry.generations then
    return (false, registry, manager)
  else
    return (true,
      { registry with
        generations := registry.generations.set identifier requestId
        records := registry.records.set identifier { metadata := metadata } }, manager)

/-- End a generation and keep its blocks for a stall. -/
def generationFinished (cause : GenerationCause)
    (snapshot : Option PrefixSnapshot) : Except OffloadError Custody := do
  let (registry, manager) ← expire custody
  let registry := { registry with generations := registry.generations.erase identifier }
  match registry.records.get? identifier with
  | none => return (registry, manager)
  | some record =>
    if record.terminalAt.isSome then return (registry, manager)
    else
      let (now, registry) := registry.readClock
      if cause ≠ .completed ∨ ¬registry.settings.enabled then
        return registry.storeRecord identifier
          (← record.terminalize cause.toTerminalCause now manager)
      else
        return (registry.setRecord identifier
          { record with
            completedAt := some now
            snapshot := snapshot
            pendingEvaluation := record.start.isSome }, manager)

/-- Durations are learned for each type of agent, or else for each name. -/
def historyKey (record : Lifecycle) (kind : Text) : Option HistoryKey :=
  if record.metadata.agentType ≠ 0 then some (.type record.metadata.agentType kind)
  else if record.metadata.agentName ≠ 0 then some (.name record.metadata.agentName kind)
  else none

/-- The duration of a stall: the caller's estimate and the learned one, averaged if both are
present. -/
def predict (event : LifecycleEvent) : ℚ × LifecycleRegistry :=
  let key := historyKey record event.kind
  let history := key.bind registry.history.get?
  let registry :=
    match key, history with
    | some key, some _ => { registry with history := registry.history.moveToEnd key }
    | _, _ => registry
  let duration :=
    match event.estimatedDurationS, history with
    | none, none => registry.settings.defaultStallS
    | none, some history => history
    | some estimate, none => estimate
    | some estimate, some history => 1 / 2 * (estimate + history)
  (duration, registry)

/-- Learn the duration of a stall that has ended. -/
def learn (now : ℚ) : Except OffloadError (Lifecycle × LifecycleRegistry) :=
  match record.start, record.startedAt with
  | some start, some startedAt =>
    let sample := max 0 (now - startedAt)
    match historyKey record start.kind with
    | none => .ok ({ record with anonymousSample := some sample }, registry)
    | some key =>
      let history := registry.history.erase key
      match registry.history.get? key with
      | some previous =>
        let alpha := registry.settings.ewmaAlpha
        .ok (record, { registry with
          history := history.set key (alpha * sample + (1 - alpha) * previous) })
      | none =>
        let room :=
          if history.entries.length ≥ historyLimit then history.dropOldest 1 else history
        .ok (record, { registry with history := room.set key sample })
  | _, _ => .error .assertionFailed

/-- Take the time to load the blocks back into account; the blocks are given up if it is too
late already. -/
def setH2dEstimate (record : Lifecycle) (seconds : ℚ) : Except OffloadError Custody :=
  match record.startedAt with
  | none => .error .assertionFailed
  | some startedAt =>
    let deadline := startedAt + record.predictedDuration
      - max custody.1.settings.releaseLeadS (5 / 4 * seconds)
    let record := { record with releaseDeadline := some deadline }
    let (now, registry) := custody.1.readClock
    if now ≥ deadline then do
      return registry.storeRecord identifier (← record.release custody.2)
    else .ok (registry.setRecord identifier record, custody.2)

/-- Begin a stall and predict its duration. -/
def startStall (now : ℚ) : Except OffloadError Custody := do
  let (duration, registry) := custody.1.predict record event
  let record :=
    { record with
      start := some event
      startedAt := some now
      predictedDuration := duration
      safetyDeadline := some (now + min 3600 (max 60 (4 * duration))) }
  let (registry, manager) ← setH2dEstimate (registry, custody.2) event.lifecycleId record 0
  match registry.records.get? event.lifecycleId with
  | none => .error .assertionFailed
  | some record =>
    return (registry.setRecord event.lifecycleId
      { record with pendingEvaluation := record.completedAt.isSome }, manager)

/-- End a stall and learn its duration. -/
def finishStall (now : ℚ) : Except OffloadError Custody := do
  let (record, registry) ← custody.1.learn record now
  let record := { record with finishAccepted := true }
  return registry.storeRecord event.lifecycleId (← record.terminalize .finished now custody.2)

/-- What an event does to a lifecycle, and how it is answered. -/
def dispose (now : ℚ) : Except OffloadError (Disposition × Nat × Custody) :=
  match event.event with
  | .stallStarted =>
    if record.start = some event then .ok (.duplicate, 200, custody)
    else if record.start.isSome ∨ record.terminalAt.isSome then .ok (.conflict, 409, custody)
    else do return (.applied, 200, ← startStall custody record event now)
  | .stallFinished =>
    if record.terminalAt.isSome then
      .ok (if record.finishAccepted then .duplicate else .lateFinish, 200, custody)
    else if record.start.isNone then .ok (.conflict, 409, custody)
    else do return (.applied, 200, ← finishStall custody record event now)

/-- Apply an event to the record it names. -/
def apply (event : LifecycleEvent) : Except OffloadError (LifecycleEventResult × Custody) := do
  let (registry, manager) ← expire custody
  match registry.records.get? event.lifecycleId with
  | none =>
    return (
      { lifecycleId := event.lifecycleId
        event := event.event
        state := .unknown
        disposition := .unknown
        statusCode := 404 }, registry, manager)
  | some record =>
    let (now, registry) := registry.readClock
    let (disposition, statusCode, registry, manager) ←
      dispose (registry, manager) record event now
    let state := ((registry.records.get? event.lifecycleId).map Lifecycle.state).getD .unknown
    return (
      { lifecycleId := event.lifecycleId
        event := event.event
        state := state
        disposition := disposition
        statusCode := statusCode }, registry, manager)

/-- Retain those of some keys that are ready, if the lifecycle still owns preservation. -/
def retainReady (keys : List OffloadKey) : Except OffloadError Custody := do
  let (registry, manager) ← expire custody
  match registry.records.get? identifier with
  | none => return (registry, manager)
  | some record =>
    if record.ownsPreservation then
      let (retained, manager) := manager.retain (keys.filter fun key => key ∉ record.retained)
      return (registry.setRecord identifier
        { record with retained := record.retained ++ retained }, manager)
    else return (registry, manager)

/-- Release one lifecycle on behalf of a caller. -/
def release (custody : Custody) (identifier : Text) : Except OffloadError Custody :=
  match custody.1.records.get? identifier with
  | none => .ok custody
  | some record => do
      return custody.1.storeRecord identifier (← record.release custody.2)

/-- Forget all snapshots. -/
def invalidateSnapshots (registry : LifecycleRegistry) : LifecycleRegistry :=
  registry.records.keys.foldl (fun registry identifier =>
    match registry.records.get? identifier with
    | none => registry
    | some record =>
      registry.setRecord identifier { record with snapshot := none, pendingEvaluation := false })
    registry

/-- A reset of the cache ends one lifecycle; its blocks are gone already. -/
def resetRecord (now : ℚ) (custody : Custody) (identifier : Text) : Except OffloadError Custody :=
  match custody.1.records.get? identifier with
  | none => .ok custody
  | some record => do
      return custody.1.storeRecord identifier
        (← { record with retained := [] }.terminalize .reset now custody.2)

/-- A reset of the cache ends all lifecycles. -/
def externalResetSucceeded (custody : Custody) : Except OffloadError Custody :=
  let (now, registry) := custody.1.readClock
  registry.records.keys.foldlM (resetRecord now) (registry, custody.2)

end LifecycleRegistry

end TokenCake
