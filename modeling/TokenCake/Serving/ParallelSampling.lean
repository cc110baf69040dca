import TokenCake.Serving.DeltaStream

/-!
# Parallel sampling

The samples of one request are children that a loop registers, adds and submits one by one,
while outputs of submitted children arrive.  The request ends when no registered child is
unfinished.  This means that all children have finished only if no child finishes alone before
the last one is registered.
-/

namespace TokenCake

open List Nat Function

variable {L : Type}

/-- A request with several samples; children are named by their index. -/
structure ParentRequest (L : Type) where
  n : Nat
  outputKind : RequestOutputKind
  childRequests : List Nat := []
  outputAggregator : List (Option (CompletionOutput L)) :=
    if outputKind = .finalOnly then List.replicate n none else []

namespace ParentRequest

/-- Begin a child request. -/
def getChildInfo (parent : ParentRequest L) (index : Nat) : ParentRequest L :=
  { parent with childRequests := parent.childRequests.insert index }

/-- The completions to send for a completion of a child, and whether the request ends. -/
def getOutputs (parent : ParentRequest L) (childRequestId : Nat) (completion : CompletionOutput L) :
    List (Option (CompletionOutput L)) × Bool × ParentRequest L :=
  let childRequests :=
    if completion.finished then parent.childRequests.erase childRequestId
    else parent.childRequests
  if parent.outputKind = .finalOnly then
    let aggregator := parent.outputAggregator.set completion.index (some completion)
    (if childRequests.isEmpty then aggregator else [], childRequests.isEmpty,
      { parent with childRequests := childRequests, outputAggregator := aggregator })
  else
    (if completion.finished ∧ childRequestId ∉ parent.childRequests then []
      else [some completion],
      childRequests.isEmpty, { parent with childRequests := childRequests })

end ParentRequest

/-- The loop over the children, the output processor and the outputs put into the queue. -/
structure FanOut (L : Type) where
  parent : ParentRequest L
  streamInterval : Nat
  /-- How many children are registered, known to the output processor, and submitted. -/
  registered : Nat := 0
  added : Nat := 0
  submitted : Nat := 0
  requestStates : Nat → Option (RequestState L) := fun _ => none
  queue : List (RequestOutput L) := []

/-- A step of the loop, or an output of a child. -/
inductive FanOutOperation (L : Type) where
  | advance
  | processOutput (child : Nat) (output : EngineCoreOutput L)

namespace FanOut

/-- The next step of the loop: children are registered, added and submitted in turn. -/
def advance (fanOut : FanOut L) : FanOut L :=
  if fanOut.registered = fanOut.submitted then
    if fanOut.registered < fanOut.parent.n then
      { fanOut with
        parent := fanOut.parent.getChildInfo fanOut.registered
        registered := fanOut.registered + 1 }
    else fanOut
  else if fanOut.added = fanOut.submitted then
    { fanOut with
      requestStates := Function.update fanOut.requestStates fanOut.added (some
          { requestIndex := fanOut.added
            outputKind := fanOut.parent.outputKind
            streamInterval := fanOut.streamInterval })
      added := fanOut.added + 1 }
  else { fanOut with submitted := fanOut.submitted + 1 }

/-- Send an output of a child to the parent. -/
def send (fanOut : FanOut L) (child : Nat) (completion : CompletionOutput L) : FanOut L :=
  let (outputs, finished, parent) := fanOut.parent.getOutputs child completion
  { fanOut with
    parent := parent
    queue := if outputs = [] then fanOut.queue else fanOut.queue ++ [⟨outputs, finished⟩] }

/-- Process an output of a child; a finished child is forgotten. -/
def processOutput (fanOut : FanOut L) (child : Nat) (output : EngineCoreOutput L) : FanOut L :=
  match fanOut.requestStates child with
  | none => fanOut
  | some state =>
    let (completion, state) :=
      (state.update output).nextCompletion (output.newTokens.map Prod.fst) output.ends
    let kept :=
      { fanOut with
        requestStates := Function.update fanOut.requestStates child
          (if output.ends then none else some state) }
    match completion with
    | none => kept
    | some completion => kept.send child completion

/-- One operation.  The engine has outputs of submitted children only. -/
def step (fanOut : FanOut L) : FanOutOperation L → Except EngineError (FanOut L)
  | .advance => .ok fanOut.advance
  | .processOutput child output => do
      ensure (decide (child < fanOut.submitted)) .keyError
      return fanOut.processOutput child output

/-- Before the first step. -/
def init (n : Nat) (outputKind : RequestOutputKind) (streamInterval : Nat) : FanOut L where
  parent := { n := n, outputKind := outputKind }
  streamInterval := streamInterval

/-- A child finishes before all are registered only if another registered child has not. -/
def KeepsSibling (fanOut : FanOut L) : FanOutOperation L → Prop
  | .advance => True
  | .processOutput child output => output.ends = true → fanOut.registered < fanOut.parent.n →
      ∃ other ∈ fanOut.parent.childRequests, other ≠ child

instance (fanOut : FanOut L) :
    (operation : FanOutOperation L) → Decidable (fanOut.KeepsSibling operation)
  | .advance => .isTrue trivial
  | .processOutput _ _ => inferInstanceAs (Decidable (_ → _))

/-- The output processor forgot a child. -/
def IsFinished (fanOut : FanOut L) (child : Nat) : Prop :=
  child < fanOut.added ∧ fanOut.requestStates child = none

/-- All children have finished. -/
def AllFinished (fanOut : FanOut L) : Prop :=
  ∀ child < fanOut.parent.n, fanOut.IsFinished child

/-- How often a finished completion of a child was put into the queue. -/
def delivered (fanOut : FanOut L) (child : Nat) : Nat :=
  (fanOut.queue.flatMap RequestOutput.outputs).countP fun completion =>
    completion.any fun completion => completion.index = child ∧ completion.finished

/-- What parent and queue say, if the children that are done are the given ones. -/
structure Accounts (n : Nat) (outputKind : RequestOutputKind) (done : Nat → Prop)
    (fanOut : FanOut L) : Prop where
  total : fanOut.parent.n = n
  kind : fanOut.parent.outputKind = outputKind
  registered : fanOut.registered ≤ n
  children : ∀ child, child ∈ fanOut.parent.childRequests ↔ child < fanOut.registered ∧ ¬ done child
  nodup : fanOut.parent.childRequests.Nodup
  ends : fanOut.queue.countP RequestOutput.finished =
    if fanOut.registered = n ∧ fanOut.parent.childRequests = [] then 1 else 0
  streamed : outputKind ≠ .finalOnly → ∀ child,
    (done child → fanOut.delivered child = 1) ∧ (¬ done child → fanOut.delivered child = 0)
  aggregated : outputKind = .finalOnly → fanOut.parent.outputAggregator.length = n ∧
    (∀ child, done child → ∃ completion,
      fanOut.parent.outputAggregator[child]? = some (some completion) ∧
        completion.index = child ∧ completion.finished = true) ∧
    fanOut.queue =
      if fanOut.registered = n ∧ fanOut.parent.childRequests = [] then
        [⟨fanOut.parent.outputAggregator, true⟩] else []

variable {n : Nat} {outputKind : RequestOutputKind} {done : Nat → Prop} {fanOut next : FanOut L}
  {child : Nat} {completion : CompletionOutput L}

/-- Only parent, queue and the number of registered children matter. -/
theorem Accounts.congr (accounts : Accounts n outputKind done fanOut)
    (parent : next.parent = fanOut.parent) (registered : next.registered = fanOut.registered)
    (queue : next.queue = fanOut.queue)
    (same : ∀ child, alsoDone child ↔ done child) : Accounts n outputKind alsoDone next := by
  obtain rfl : alsoDone = done := funext fun child => propext (same child)
  cases fanOut
  cases next
  cases parent
  cases registered
  cases queue
  exact { accounts with }

theorem delivered_append (fanOut : FanOut L) (output : RequestOutput L) (child : Nat) :
    { fanOut with queue := fanOut.queue ++ [output] }.delivered child =
      fanOut.delivered child + output.outputs.countP fun completion =>
        completion.any fun completion => completion.index = child ∧ completion.finished := by
  simp [delivered]

theorem Accounts.send (accounts : Accounts n outputKind done fanOut)
    (streams : outputKind ≠ .finalOnly) (mem : child ∈ fanOut.parent.childRequests)
    (goesOn : completion.finished = false) :
    Accounts n outputKind done (fanOut.send child completion) := by
  have kind : fanOut.parent.outputKind ≠ .finalOnly := accounts.kind ▸ streams
  have some_ : fanOut.parent.childRequests ≠ [] := ne_nil_of_mem mem
  have shape : fanOut.send child completion =
      { fanOut with queue := fanOut.queue ++ [⟨[some completion], false⟩] } := by
    simp [FanOut.send, ParentRequest.getOutputs, kind, goesOn, some_]
  rw [shape]
  refine { accounts with
    ends := ?_
    streamed := fun _ other => ?_
    aggregated := fun final => absurd final streams }
  · rw [countP_append, accounts.ends]
    simp
  · rw [delivered_append]
    simpa [goesOn] using accounts.streamed streams other

/-- The last output of a child. -/
theorem Accounts.finish (accounts : Accounts n outputKind done fanOut)
    (mem : child ∈ fanOut.parent.childRequests)
    (sibling : fanOut.registered < n → ∃ other ∈ fanOut.parent.childRequests, other ≠ child)
    (ends : completion.finished = true) (index : completion.index = child) :
    Accounts n outputKind (fun other => done other ∨ other = child)
      (fanOut.send child completion) := by
  obtain ⟨registered, unfinished⟩ := (accounts.children child).mp mem
  have some_ : fanOut.parent.childRequests ≠ [] := ne_nil_of_mem mem
  set rest := fanOut.parent.childRequests.erase child with isRest
  have closes : fanOut.registered = n ∧ rest = [] ↔ rest = [] := by
    refine ⟨And.right, fun empty => ⟨by_contra fun early => ?_, empty⟩⟩
    obtain ⟨other, listed, different⟩ := sibling (lt_of_le_of_ne accounts.registered early)
    have stays : other ∈ rest := (mem_erase_of_ne different).mpr listed
    rw [empty] at stays
    cases stays
  have children : ∀ other, other ∈ rest ↔
      other < fanOut.registered ∧ ¬ (done other ∨ other = child) := by
    intro other
    rw [isRest, accounts.nodup.mem_erase_iff, accounts.children, not_or]
    tauto
  have before : fanOut.queue.countP RequestOutput.finished = 0 := by
    rw [accounts.ends, if_neg fun closed => some_ closed.2]
  have nodup := accounts.nodup.erase child
  by_cases final : outputKind = .finalOnly
  · have kind : fanOut.parent.outputKind = .finalOnly := accounts.kind.trans final
    obtain ⟨length, aggregated, nothing⟩ := accounts.aggregated final
    rw [if_neg fun closed => some_ closed.2] at nothing
    have stored : ∀ other, done other ∨ other = child → ∃ stored,
        (fanOut.parent.outputAggregator.set child (some completion))[other]? =
          some (some stored) ∧ stored.index = other ∧ stored.finished = true := by
      intro other finished
      by_cases same : other = child
      · subst same
        refine ⟨completion, ?_, index, ends⟩
        rw [getElem?_set_self]
        rw [length]
        exact lt_of_lt_of_le registered accounts.registered
      · rw [getElem?_set_ne (Ne.symm same)]
        exact aggregated other (finished.resolve_right same)
    have full : fanOut.parent.outputAggregator.set child (some completion) ≠ [] := by
      rw [← length_pos_iff, length_set, length]
      exact lt_of_le_of_lt (zero_le _) (lt_of_lt_of_le registered accounts.registered)
    have shape : fanOut.send child completion = { fanOut with
          parent := { fanOut.parent with
            childRequests := rest
            outputAggregator := fanOut.parent.outputAggregator.set child (some completion) }
          queue := if rest = [] then
            [⟨fanOut.parent.outputAggregator.set child (some completion), true⟩] else [] } := by
      by_cases empty : rest = [] <;>
        simp [FanOut.send, ParentRequest.getOutputs, kind, ends, index, ← isRest, empty, full,
          nothing]
    rw [shape]
    refine ⟨accounts.total, accounts.kind, accounts.registered, children, nodup, ?_,
      fun streams => absurd final streams,
      fun _ => ⟨by rw [length_set, length], stored, by simp only [closes]⟩⟩
    simp only [closes]
    split <;> rfl
  · have kind : fanOut.parent.outputKind ≠ .finalOnly := accounts.kind ▸ final
    have shape : fanOut.send child completion = { fanOut with
          parent := { fanOut.parent with childRequests := rest }
          queue := fanOut.queue ++ [⟨[some completion], rest.isEmpty⟩] } := by
      simp [FanOut.send, ParentRequest.getOutputs, kind, ends, mem, isRest]
    rw [shape]
    refine ⟨accounts.total, accounts.kind, accounts.registered, children, nodup, ?_,
      fun _ other => ?_, fun only => absurd only final⟩
    · simp only [closes]
      rw [countP_append, before]
      by_cases empty : rest = [] <;> simp [empty]
    · have counted := accounts.streamed final other
      have more : FanOut.delivered { fanOut with
          queue := fanOut.queue ++ [⟨[some completion], rest.isEmpty⟩] } other =
          fanOut.delivered other + if child = other then 1 else 0 := by
        rw [delivered_append]
        simp [ends, index]
      refine more ▸ ?_
      by_cases same : other = child
      · subst same
        simp [counted.2 unfinished]
      · simpa [same, Ne.symm same] using counted

/-- The queue accounts for the finished children, and the others are known. -/
structure Sound (n : Nat) (outputKind : RequestOutputKind) (fanOut : FanOut L) : Prop where
  accounts : Accounts n outputKind fanOut.IsFinished fanOut
  submitted : fanOut.submitted ≤ fanOut.added
  added : fanOut.added ≤ fanOut.registered
  states : ∀ child state, fanOut.requestStates child = some state →
    child < fanOut.added ∧ state.requestIndex = child ∧ state.outputKind = outputKind

section

variable (sound : Sound n outputKind fanOut)

include sound

theorem Sound.advance : Sound n outputKind fanOut.advance := by
  obtain ⟨accounts, submitted, added, states⟩ := sound
  unfold FanOut.advance
  split_ifs with ready more open_
  · rw [accounts.total] at more
    have unfinished : ¬ fanOut.IsFinished fanOut.registered := fun finished => by
      have := finished.1
      omega
    have fresh : fanOut.registered ∉ fanOut.parent.childRequests := by
      rw [accounts.children]
      omega
    have some_ : fanOut.parent.childRequests.insert fanOut.registered ≠ [] :=
      ne_nil_of_mem mem_insert_self
    have early : ¬ (fanOut.registered = n ∧ fanOut.parent.childRequests = []) := by omega
    refine ⟨⟨accounts.total, accounts.kind, more, fun child => ?_,
      accounts.nodup.insert, ?_, accounts.streamed,
      fun final => ?_⟩, submitted, by dsimp only; omega, states⟩
    · refine mem_insert_iff.trans ?_
      rw [accounts.children, Nat.lt_succ_iff_lt_or_eq]
      constructor
      · rintro (rfl | ⟨before, open_⟩)
        · exact ⟨.inr rfl, unfinished⟩
        · exact ⟨.inl before, open_⟩
      · rintro ⟨before | rfl, open_⟩
        · exact .inr ⟨before, open_⟩
        · exact .inl rfl
    · exact accounts.ends.trans ((if_neg early).trans (if_neg fun closed => some_ closed.2).symm)
    · obtain ⟨length, aggregated, queue⟩ := accounts.aggregated final
      exact ⟨length, aggregated,
        queue.trans ((if_neg early).trans (if_neg fun closed => some_ closed.2).symm)⟩
  · exact ⟨accounts, submitted, added, states⟩
  · refine ⟨accounts.congr rfl rfl rfl fun child => ?_, by dsimp only; omega, by dsimp only; omega,
      fun child state known => ?_⟩
    · unfold IsFinished
      dsimp only
      by_cases new : child = fanOut.added
      · simp [new]
      · rw [update_of_ne new, Nat.lt_succ_iff_lt_or_eq, or_iff_left new]
    · by_cases new : child = fanOut.added
      · subst new
        dsimp only at known
        rw [update_self, Option.some.injEq] at known
        subst known
        exact ⟨Nat.lt_succ_self _, rfl, accounts.kind⟩
      · dsimp only at known
        rw [update_of_ne new] at known
        exact (states child state known).imp_left Nat.lt_succ_of_lt
  · exact ⟨accounts.congr rfl rfl rfl fun _ => .rfl, by dsimp only; omega, added, states⟩

/-- A known child gets another state or none. -/
theorem Sound.replace (known : child < fanOut.added)
    (states : next.requestStates = Function.update fanOut.requestStates child value)
    (valid : ∀ state ∈ value, state.requestIndex = child ∧ state.outputKind = outputKind)
    (counts : next.added = fanOut.added ∧ next.submitted = fanOut.submitted ∧
      next.registered = fanOut.registered) (accounts : Accounts n outputKind
      (fun other => if other = child then value = none else fanOut.IsFinished other) next) :
    Sound n outputKind next := by
  obtain ⟨sameAdded, sameSubmitted, sameRegistered⟩ := counts
  refine ⟨accounts.congr rfl rfl rfl fun other => ?_, ?_, ?_, fun other state found => ?_⟩
  · unfold IsFinished
    rw [states, sameAdded]
    by_cases same : other = child
    · subst same
      rw [update_self, if_pos rfl, and_iff_right known]
    · rw [update_of_ne same, if_neg same]
  · rw [sameAdded, sameSubmitted]
    exact sound.submitted
  · rw [sameAdded, sameRegistered]
    exact sound.added
  · rw [states] at found
    rw [sameAdded]
    by_cases same : other = child
    · subst same
      rw [update_self] at found
      exact ⟨known, valid state found⟩
    · rw [update_of_ne same] at found
      exact sound.states other state found

theorem Sound.processOutput (sibling : fanOut.KeepsSibling (.processOutput child output)) :
    Sound n outputKind (fanOut.processOutput child output) := by
  unfold FanOut.processOutput
  cases found : fanOut.requestStates child with
  | none => exact sound
  | some state =>
    obtain ⟨known, index, kind⟩ := sound.states child state found
    have unfinished : ¬ fanOut.IsFinished child := fun finished => by
      cases finished.2.symm.trans found
    have mem := (sound.accounts.children child).mpr ⟨lt_of_lt_of_le known sound.added, unfinished⟩
    obtain ⟨sameIndex, sameKind, made, always⟩ :=
      (state.update output).nextCompletion_spec (output.newTokens.map Prod.fst) output.ends
    have valid := And.intro (sameIndex.trans index) (sameKind.trans kind)
    unfold KeepsSibling at sibling
    rw [sound.accounts.total] at sibling
    dsimp only
    generalize (state.update output).nextCompletion (output.newTokens.map Prod.fst)
      output.ends = result at *
    obtain ⟨completion, state'⟩ := result
    cases ends : output.ends with
    | false =>
      rw [ends] at made
      have accounts : ∀ other : FanOut L, Accounts n outputKind fanOut.IsFinished other →
          Accounts n outputKind (fun other => if other = child then some state' = none
            else fanOut.IsFinished other) other := by
        refine fun other accounts => accounts.congr rfl rfl rfl fun id => ?_
        by_cases same : id = child
        · subst same
          simpa using unfinished
        · rw [if_neg same]
      have isValid : ∀ state ∈ some state',
          state.requestIndex = child ∧ state.outputKind = outputKind := by
        rintro _ ⟨⟩
        exact valid
      rw [if_neg Bool.false_ne_true]
      cases completion with
      | none =>
        exact sound.replace known rfl isValid ⟨rfl, rfl, rfl⟩
          (accounts _ (sound.accounts.congr rfl rfl rfl fun _ => .rfl))
      | some completion =>
        obtain ⟨_, goesOn, streams⟩ := made completion rfl
        refine sound.replace known rfl isValid ⟨rfl, rfl, rfl⟩ (accounts _ ?_)
        refine Accounts.send (sound.accounts.congr rfl rfl rfl fun _ => .rfl) ?_ mem goesOn
        exact kind ▸ streams rfl
    | true =>
      obtain ⟨completion, rfl⟩ := always ends
      obtain ⟨isIndex, isFinished, _⟩ := made completion rfl
      have finishes : Accounts n outputKind (fun other => fanOut.IsFinished other ∨ other = child)
          ({ fanOut with requestStates := update fanOut.requestStates child none }.send
            child completion) :=
        .finish (sound.accounts.congr rfl rfl rfl fun _ => .rfl) mem (sibling ends)
          (isFinished.trans ends) (isIndex.trans index)
      rw [if_pos rfl]
      refine sound.replace known rfl nofun ⟨rfl, rfl, rfl⟩
        (finishes.congr rfl rfl rfl fun other => ?_)
      by_cases same : other = child <;> simp [same]

end

/-- In every run in which no child finishes alone before all are registered, a finished output
is put into the queue exactly when all children have finished, and once.  Every child's finished
completion is delivered once, in the final mode as one list in the order of the children. -/
theorem ends_exactly_once (n : Nat)
    (severalSamples : 2 ≤ n) (outputKind : RequestOutputKind) (streamInterval : Nat)
    (operations : List (FanOutOperation L)) (final : FanOut L)
    (along : Machine.Along step KeepsSibling (init n outputKind streamInterval) operations)
    (reached : Machine.run step (init n outputKind streamInterval) operations = .ok final) :
    (0 < final.queue.countP RequestOutput.finished → final.AllFinished) ∧ (final.AllFinished →
        final.queue.countP RequestOutput.finished = 1 ∧
        (outputKind ≠ .finalOnly → ∀ child < n, final.delivered child = 1) ∧
        (outputKind = .finalOnly → ∃ output, final.queue = [output] ∧ output.outputs.length = n ∧
          ∀ child < n, ∃ completion, output.outputs[child]? = some (some completion) ∧
            completion.index = child ∧ completion.finished = true)) := by
  have sound : Sound n outputKind final := by
    refine Machine.invariant_of_run (fun fanOut operation next sound sibling stepped => ?_) ?_ along
      reached
    · cases operation with
      | advance =>
        cases stepped
        exact sound.advance
      | processOutput child output =>
        obtain ⟨_, _, returned⟩ := bind_eq_ok.mp stepped
        cases returned
        exact sound.processOutput sibling
    · have early : ¬ (0 = n ∧ ([] : List Nat) = []) := by omega
      refine ⟨⟨rfl, rfl, zero_le _, fun child => ?_, nodup_nil, (if_neg early).symm,
        fun _ child => ⟨fun finished => absurd finished.1 (not_lt_zero _),
          fun _ => rfl⟩, fun final => ⟨?_, fun child finished =>
            absurd finished.1 (not_lt_zero _), (if_neg early).symm⟩⟩, le_rfl, le_rfl, nofun⟩
      · simp [init]
      · simp [init, final]
  have closed : final.AllFinished ↔ final.registered = n ∧ final.parent.childRequests = [] := by
    unfold AllFinished
    rw [sound.accounts.total]
    have children := sound.accounts.children
    constructor
    · intro all
      have last := (all (n - 1) (by omega)).1
      have added := sound.added
      have registered := sound.accounts.registered
      refine ⟨by omega, eq_nil_iff_forall_not_mem.mpr fun child member => ?_⟩
      have open_ := (children child).mp member
      exact open_.2 (all child (by omega))
    · rintro ⟨registered, nobody⟩ child before
      by_contra open_
      have member := (children child).mpr ⟨by omega, open_⟩
      rw [nobody] at member
      cases member
  have ends := sound.accounts.ends
  constructor
  · intro some_
    by_contra open_
    rw [ends, if_neg (closed.not.mp open_)] at some_
    cases some_
  · intro all
    rw [if_pos (closed.mp all)] at ends
    refine ⟨ends, fun streams child before =>
      (sound.accounts.streamed streams child).1 (all child ?_), fun isFinal => ?_⟩
    · rwa [sound.accounts.total]
    · obtain ⟨length, aggregated, queue⟩ := sound.accounts.aggregated isFinal
      rw [if_pos (closed.mp all)] at queue
      refine ⟨_, queue, length, fun child before => aggregated child (all child ?_)⟩
      rwa [sound.accounts.total]

/-- Two children, both registered before the first one finishes. -/
def submittedBoth : List (FanOutOperation Nat) := List.replicate 6 .advance

/-- Both children finish. -/
def bothFinish : List (FanOutOperation Nat) :=
  [.processOutput 0 { newTokens := [(7, 70)], finishReason := true },
    .processOutput 1 { newTokens := [(8, 80)], finishReason := true }]

/-- The request ends with both completions. -/
theorem bothFinish_ends_once :
    ∃ final : FanOut Nat,
      Machine.run step (init 2 .finalOnly 1) (submittedBoth ++ bothFinish) = .ok final ∧
      (0 < final.queue.countP RequestOutput.finished → final.AllFinished) ∧
      final.queue.map (fun output => output.outputs.map (Option.map CompletionOutput.index)) =
        [[some 0, some 1]] := by
  obtain ⟨final, reached⟩ : ∃ final,
      Machine.run step (init 2 .finalOnly 1) (submittedBoth ++ bothFinish) = .ok final :=
    ⟨_, rfl⟩
  refine ⟨final, reached, (ends_exactly_once 2 le_rfl .finalOnly 1 _ final
    (Machine.along_of_checkAlong step (by decide +kernel)) reached).1, ?_⟩
  cases reached
  decide +kernel

/-- The first child finishes before the second one is registered: the request ends with a
completion missing, and it ends again with the second child. -/
theorem early_finish_ends_twice :
    ((Machine.run step (init 2 .finalOnly 1) ([.advance, .advance, .advance] ++ bothFinish.take 1 ++
        [.advance, .advance, .advance] ++ bothFinish.drop 1)).toOption.map fun final =>
      final.queue.map fun output =>
        (output.outputs.map (Option.map CompletionOutput.index), output.finished)) =
      some [([some 0, none], true), ([some 0, some 1], true)] := by
  decide +kernel

end FanOut

end TokenCake
