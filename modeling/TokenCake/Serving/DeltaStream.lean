import TokenCake.Library.Machine
import TokenCake.Request.Defs

/-!
# Outputs of a request and streams of deltas

What the output processor makes of the engine's outputs: completions that are sent at
intervals, and the merging of the samples of one request.  Texts, prompt logprobs and metrics
are left out; whether a stop string matched is part of the input.  Logprobs of one position are
of any type, and a request without logprobs is one whose outputs carry none.

A request with one sample and logprobs streams deltas through a collector that merges what its
reader did not take yet.  The logprobs of a delta are a slice from the end, which is the whole
list for a delta without tokens.  As long as every delta that is sent carries a token, each
token and its logprobs are delivered exactly once.
-/

namespace TokenCake

/-- Which part of the output a client wants. -/
inductive RequestOutputKind where
  | cumulative
  | delta
  | finalOnly
deriving DecidableEq, Repr

variable {L : Type}

/-- The logprobs of a completion: a list of its own, or the list of the logprobs processor. -/
inductive SampleLogprobs (L : Type) where
  | own (entries : List L)
  | shared
deriving DecidableEq, Repr

/-- What a completion's logprobs are, given the list of the logprobs processor. -/
def SampleLogprobs.read (processor : List L) : SampleLogprobs L → List L
  | own entries => entries
  | shared => processor

/-- An output for the client. -/
structure CompletionOutput (L : Type) where
  index : Nat
  tokenIds : List TokenId
  logprobs : SampleLogprobs L
  finished : Bool
deriving DecidableEq, Repr

/-- An output for the client.  Samples that were not aggregated yet are missing. -/
structure RequestOutput (L : Type) where
  outputs : List (Option (CompletionOutput L))
  finished : Bool
deriving DecidableEq, Repr

/-- An output of the engine core: new tokens with their logprobs, whether it has a finish
reason, and whether the detokenizer finds a stop string. -/
structure EngineCoreOutput (L : Type) where
  newTokens : List (TokenId × L)
  finishReason : Bool := false
  stopString : Bool := false
deriving DecidableEq, Repr

/-- Whether an output is the last one of its request. -/
def EngineCoreOutput.ends (output : EngineCoreOutput L) : Bool :=
  output.finishReason || output.stopString

/-- The state of a request in the output processor. -/
structure RequestState (L : Type) where
  requestIndex : Nat
  outputKind : RequestOutputKind
  streamInterval : Nat
  sentTokensOffset : Nat := 0
  /-- The tokens of the detokenizer. -/
  outputTokenIds : List TokenId := []
  /-- The list of the logprobs processor. -/
  logprobs : List L := []
deriving DecidableEq, Repr

/-- The slice of the last entries, `entries[-count:]`. -/
def lastEntries (entries : List L) (count : Nat) : List L :=
  if count = 0 then entries else entries.drop (entries.length - count)

namespace RequestState

section

variable (state : RequestState L)

/-- Take the tokens and logprobs of an output. -/
def update (output : EngineCoreOutput L) : RequestState L :=
  { state with
    outputTokenIds := state.outputTokenIds ++ output.newTokens.map Prod.fst
    logprobs := state.logprobs ++ output.newTokens.map Prod.snd }

/-- A completion with the given new tokens. -/
def newCompletionOutput (tokenIds : List TokenId) (finished : Bool) : CompletionOutput L where
  index := state.requestIndex
  tokenIds := if state.outputKind = .delta then tokenIds else state.outputTokenIds
  logprobs :=
    if state.outputKind = .delta ∧ state.logprobs ≠ [] then
      .own (lastEntries state.logprobs tokenIds.length)
    else .shared
  finished := finished

/-- The output to send after new tokens, if one is due. -/
def nextCompletion (newTokenIds : List TokenId)
    (finished : Bool) : Option (CompletionOutput L) × RequestState L :=
  if finished = false ∧ state.outputKind = .finalOnly then (none, state)
  else if 1 < state.streamInterval then
    if finished = true ∨ state.sentTokensOffset = 0 ∨
        state.sentTokensOffset + state.streamInterval ≤ state.outputTokenIds.length then
      if state.outputKind = .delta then
        (some (state.newCompletionOutput (state.outputTokenIds.drop state.sentTokensOffset)
            finished),
          { state with sentTokensOffset := state.outputTokenIds.length })
      else (some (state.newCompletionOutput newTokenIds finished), state)
    else (none, state)
  else (some (state.newCompletionOutput newTokenIds finished), state)

/-- A finished request sends a completion, and an unfinished one none in the final mode. -/
theorem nextCompletion_spec (newTokenIds : List TokenId) (finished : Bool) :
    (state.nextCompletion newTokenIds finished).2.requestIndex = state.requestIndex ∧
      (state.nextCompletion newTokenIds finished).2.outputKind = state.outputKind ∧
      (∀ completion ∈ (state.nextCompletion newTokenIds finished).1,
        completion.index = state.requestIndex ∧ completion.finished = finished ∧
          (finished = false → state.outputKind ≠ .finalOnly)) ∧ (finished = true → ∃ completion,
        (state.nextCompletion newTokenIds finished).1 = some completion) := by
  unfold nextCompletion
  split_ifs <;> simp_all [newCompletionOutput]

end

end RequestState

open List Prod

/-- Merge the next completion of a request into one that was not read.  The entries that are
appended to a shared list stay in the list of the logprobs processor. -/
def CompletionOutput.add (completion next : CompletionOutput L)
    (processor : List L) : CompletionOutput L × List L :=
  let entries := next.logprobs.read processor
  let merged :=
    { completion with
      tokenIds := completion.tokenIds ++ next.tokenIds
      finished := next.finished }
  match completion.logprobs with
  | .own earlier => ({ merged with logprobs := .own (earlier ++ entries) }, processor)
  | .shared => (merged, processor ++ entries)

/-- A request, its collector, and what was received and read. -/
structure DeltaStream (L : Type) where
  state : RequestState L
  /-- The output processor knows the request. -/
  live : Bool := true
  /-- The output in the collector: its completion, and whether it is finished. -/
  output : Option (CompletionOutput L × Bool) := none
  received : List (TokenId × L) := []
  readTokenIds : List TokenId := []
  readLogprobs : List L := []
deriving DecidableEq, Repr

/-- What happens to a stream: the engine answers, the request is aborted, or the client reads. -/
inductive StreamEvent (L : Type) where
  | output (output : EngineCoreOutput L)
  | abort
  | get

namespace DeltaStream

/-- A new stream. -/
def init (streamInterval : Nat) : DeltaStream L where
  state := { requestIndex := 0, outputKind := .delta, streamInterval := streamInterval }

section

variable (stream : DeltaStream L)

/-- Put an output into the queue of the client, merging it with one that waits. -/
def put (completion : CompletionOutput L) : DeltaStream L :=
  match stream.output with
  | none => { stream with output := some (completion, completion.finished) }
  | some (waiting, done) =>
    let (merged, processor) := waiting.add completion stream.state.logprobs
    { stream with
      output := some (merged, done || completion.finished)
      state := { stream.state with logprobs := processor } }

/-- Send the completion that is due; a finished request is forgotten. -/
def send (newTokenIds : List TokenId) (finished : Bool) : DeltaStream L :=
  let (completion, state) := stream.state.nextCompletion newTokenIds finished
  let sent := { stream with state := state, live := !finished }
  match completion with
  | none => sent
  | some completion => sent.put completion

/-- One event.  Outputs of unknown requests are ignored, and an empty collector is not read. -/
def step : StreamEvent L → Except EngineError (DeltaStream L)
  | .output output =>
    if stream.live then
      .ok ({ stream with
        state := stream.state.update output
        received := stream.received ++ output.newTokens }.send
          (output.newTokens.map Prod.fst) output.ends)
    else .ok stream
  | .abort => if stream.live then .ok (stream.send [] true) else .ok stream
  | .get =>
    match stream.output with
    | none => .ok stream
    | some (completion, _) =>
      .ok
        { stream with
          output := none
          readTokenIds := stream.readTokenIds ++ completion.tokenIds
          readLogprobs :=
            stream.readLogprobs ++ completion.logprobs.read stream.state.logprobs }

/-- Received tokens wait for the end of an interval. -/
def HasUnsent : Prop :=
  1 < stream.state.streamInterval ∧ stream.state.sentTokensOffset < stream.received.length

/-- An event does not make the request send a delta without tokens, except as its only one. -/
def SendsTokens : StreamEvent L → Prop
  | .output output =>
    output.newTokens ≠ [] ∨
      if output.ends then stream.HasUnsent ∨ stream.received = []
      else 1 < stream.state.streamInterval ∧ stream.state.sentTokensOffset ≠ 0
  | .abort => stream.HasUnsent ∨ stream.received = []
  | .get => True

end

instance (stream : DeltaStream L) : Decidable stream.HasUnsent :=
  inferInstanceAs (Decidable (_ ∧ _))

instance (stream : DeltaStream L) :
    (event : StreamEvent L) → Decidable (stream.SendsTokens event)
  | .output _ => inferInstanceAs (Decidable (_ ∨ _))
  | .abort => inferInstanceAs (Decidable (_ ∨ _))
  | .get => .isTrue trivial

/-- The first tokens are read or wait in the collector, each with its logprobs. -/
structure Delivers (sent : Nat) (stream : DeltaStream L) : Prop where
  kind : stream.state.outputKind = .delta
  tokenIds : stream.state.outputTokenIds = stream.received.map Prod.fst
  logprobs : stream.state.logprobs = stream.received.map Prod.snd
  offset : 1 < stream.state.streamInterval → stream.state.sentTokensOffset = sent
  le : sent ≤ stream.received.length
  readTokenIds : stream.readTokenIds ++ (stream.output.elim [] fun output => output.1.tokenIds) =
    (stream.received.map Prod.fst).take sent
  readLogprobs : stream.readLogprobs ++ (stream.output.elim [] fun output =>
      output.1.logprobs.read stream.state.logprobs) = (stream.received.map Prod.snd).take sent
  own : stream.live = true → ∀ output ∈ stream.output, ∃ entries, output.1.logprobs = .own entries

variable {stream next : DeltaStream L} {sent : Nat}

theorem lastEntries_eq_drop {entries : List L} (short : sent < entries.length) :
    lastEntries entries (entries.length - sent) = entries.drop sent := by
  unfold lastEntries
  rw [if_neg (by omega)]
  congr 1
  omega

/-- A delta of all unsent tokens carries their logprobs. -/
theorem Delivers.newCompletionOutput (delivers : Delivers sent stream) (finished : Bool)
    (some_ : sent < stream.received.length ∨ finished = true ∧ stream.received = []) :
    let completion := stream.state.newCompletionOutput
      ((stream.received.map Prod.fst).drop sent) finished
    completion.tokenIds = (stream.received.map Prod.fst).drop sent ∧
      completion.logprobs.read stream.state.logprobs = (stream.received.map Prod.snd).drop sent ∧
      (finished = false → ∃ entries, completion.logprobs = .own entries) := by
  unfold RequestState.newCompletionOutput
  rw [delivers.kind, delivers.logprobs]
  rcases some_ with short | ⟨rfl, nothing⟩
  · have full : stream.received.map snd ≠ [] := by
      rw [ne_eq, map_eq_nil_iff]
      rintro empty
      rw [empty] at short
      cases short
    have slice : lastEntries (stream.received.map snd)
        ((stream.received.map fst).drop sent).length = (stream.received.map snd).drop sent := by
      rw [length_drop, length_map, ← length_map snd]
      exact lastEntries_eq_drop (by rwa [length_map])
    rw [if_pos rfl, if_pos ⟨rfl, full⟩, slice]
    exact ⟨rfl, rfl, fun _ => ⟨_, rfl⟩⟩
  · rw [nothing]
    exact ⟨rfl, by simp [SampleLogprobs.read], nofun⟩

/-- Sending all unsent tokens. -/
theorem Delivers.put (delivers : Delivers sent stream)
    (owned : ∀ output ∈ stream.output, ∃ entries, output.1.logprobs = .own entries)
    {completion : CompletionOutput L}
    (tokens : completion.tokenIds = (stream.received.map Prod.fst).drop sent)
    (entries : completion.logprobs.read stream.state.logprobs =
      (stream.received.map Prod.snd).drop sent)
    (own : stream.live = true → ∃ entries, completion.logprobs = .own entries) {offset : Nat}
    (counted : 1 < stream.state.streamInterval → offset = stream.received.length) :
    Delivers stream.received.length
      ({ stream with state := { stream.state with sentTokensOffset := offset } }.put
        completion) := by
  have allTokens : (stream.received.map fst).take sent ++ completion.tokenIds =
      (stream.received.map fst).take stream.received.length := by
    rw [tokens, take_append_drop, take_of_length_le (by rw [length_map])]
  have allEntries : (stream.received.map snd).take sent ++
      completion.logprobs.read stream.state.logprobs =
        (stream.received.map snd).take stream.received.length := by
    rw [entries, take_append_drop, take_of_length_le (by rw [length_map])]
  rw [← delivers.readTokenIds, append_assoc] at allTokens
  rw [← delivers.readLogprobs, append_assoc] at allEntries
  unfold DeltaStream.put
  cases waits : stream.output with
  | none =>
    rw [waits] at allTokens allEntries
    refine ⟨delivers.kind, delivers.tokenIds, delivers.logprobs, counted, le_rfl, allTokens,
      allEntries, fun live output isOutput => ?_⟩
    cases isOutput
    exact own live
  | some output =>
    obtain ⟨waiting, done⟩ := output
    obtain ⟨earlier, isOwn⟩ : ∃ earlier, waiting.logprobs = .own earlier := owned _ waits
    rw [waits] at allTokens allEntries
    dsimp only [Option.elim] at allTokens allEntries ⊢
    rw [isOwn] at allEntries
    unfold CompletionOutput.add
    rw [isOwn]
    refine ⟨delivers.kind, delivers.tokenIds, delivers.logprobs, counted, le_rfl, allTokens,
      allEntries, fun _ output isOutput => ?_⟩
    cases isOutput
    exact ⟨_, rfl⟩

theorem put_fields (stream : DeltaStream L) (completion : CompletionOutput L) :
    (stream.put completion).received = stream.received ∧
      (stream.put completion).live = stream.live ∧
      (stream.put completion).state.streamInterval = stream.state.streamInterval := by
  unfold put
  cases stream.output <;> exact ⟨rfl, rfl, rfl⟩

theorem send_fields (stream : DeltaStream L) (newTokenIds : List TokenId) (finished : Bool) :
    (stream.send newTokenIds finished).received = stream.received ∧
      (stream.send newTokenIds finished).live = !finished ∧
      (stream.send newTokenIds finished).state.streamInterval = stream.state.streamInterval := by
  unfold send RequestState.nextCompletion
  split_ifs
  all_goals first
    | exact put_fields ..
    | exact ⟨rfl, rfl, rfl⟩

/-- Everything is sent that need not wait for the end of an interval. -/
def Delivered (stream : DeltaStream L) : Prop :=
  ∃ sent, Delivers sent stream ∧
    (stream.state.streamInterval ≤ 1 ∨ stream.live = false → sent = stream.received.length)

/-- A request that sends, if anything, all its unsent tokens. -/
theorem Delivers.delivered_send (delivers : Delivers sent stream) (live : stream.live = true)
    {newTokenIds : List TokenId} {finished : Bool}
    (new : stream.state.streamInterval ≤ 1 → newTokenIds = (stream.received.map Prod.fst).drop sent)
    (some_ : sent < stream.received.length ∨ finished = true ∧ stream.received = [] ∨
      finished = false ∧ 1 < stream.state.streamInterval ∧ sent ≠ 0) :
    (stream.send newTokenIds finished).Delivered := by
  obtain ⟨received, lives, same⟩ := stream.send_fields newTokenIds finished
  unfold Delivered
  rw [received, lives, same, Bool.not_eq_false']
  have streams : ¬ (finished = false ∧ stream.state.outputKind = .finalOnly) := by
    rw [delivers.kind]
    exact fun final => nomatch final.2
  have sends : (sent < stream.received.length ∨ finished = true ∧ stream.received = []) →
      ∀ offset, (1 < stream.state.streamInterval → offset = stream.received.length) →
      Delivers stream.received.length ({ stream with
          state := { stream.state with sentTokensOffset := offset }
          live := !finished }.put (stream.state.newCompletionOutput
            (stream.state.outputTokenIds.drop sent) finished)) := by
    intro some_ offset counted
    rw [delivers.tokenIds]
    obtain ⟨tokens, entries, own⟩ := delivers.newCompletionOutput finished some_
    have ends : Delivers sent { stream with live := !finished } :=
      { delivers with own := fun _ => delivers.own live }
    exact ends.put (delivers.own live) tokens entries (fun lives => own (by simpa using lives))
      counted
  unfold DeltaStream.send RequestState.nextCompletion
  rw [if_neg streams]
  by_cases interval : 1 < stream.state.streamInterval
  · have count : stream.state.outputTokenIds.length = stream.received.length := by
      rw [delivers.tokenIds, length_map]
    rw [if_pos interval, delivers.offset interval, if_pos delivers.kind]
    by_cases due : finished = true ∨ sent = 0 ∨
        sent + stream.state.streamInterval ≤ stream.state.outputTokenIds.length
    · rw [if_pos due]
      refine ⟨_, sends ?_ _ fun _ => count, fun _ => rfl⟩
      rcases some_ with short | only | ⟨rfl, _, notFirst⟩
      · exact .inl short
      · exact .inr only
      · rcases due with final | first | full
        · cases final
        · exact absurd first notFirst
        · exact .inl (by omega)
    · rw [if_neg due]
      refine ⟨sent, { delivers with own := fun _ => delivers.own live }, fun all => ?_⟩
      exact all.elim (by omega) fun final => absurd (.inl final) due
  · rw [if_neg interval, new (by omega), ← delivers.tokenIds]
    refine ⟨_, sends ?_ stream.state.sentTokensOffset fun many => absurd many interval,
      fun _ => rfl⟩
    rcases some_ with short | only | ⟨_, many, _⟩
    · exact .inl short
    · exact .inr only
    · exact absurd many interval

/-- The tokens of an output are received before they are sent. -/
theorem Delivers.receive (delivers : Delivers sent stream)
    (live : stream.live = true) (output : EngineCoreOutput L) :
    Delivers sent { stream with
      state := stream.state.update output
      received := stream.received ++ output.newTokens } where
  kind := delivers.kind
  tokenIds := by rw [List.map_append, ← delivers.tokenIds]; rfl
  logprobs := by rw [List.map_append, ← delivers.logprobs]; rfl
  offset := delivers.offset
  le := by rw [List.length_append]; exact delivers.le.trans (Nat.le_add_right ..)
  readTokenIds := by
    rw [map_append, take_append_of_le_length (by rw [length_map]; exact delivers.le)]
    exact delivers.readTokenIds
  readLogprobs := by
    rw [map_append, take_append_of_le_length (by rw [length_map]; exact delivers.le),
      ← delivers.readLogprobs]
    cases waits : stream.output with
    | none => rfl
    | some output =>
      obtain ⟨entries, isOwn⟩ := delivers.own live output waits
      dsimp only [Option.elim]
      rw [isOwn]
      rfl
  own := delivers.own

theorem delivered_of_step (delivered : stream.Delivered) (sends : stream.SendsTokens event)
    (stepped : stream.step event = .ok next) : next.Delivered := by
  obtain ⟨sent, delivers, all⟩ := delivered
  cases event with
  | output output =>
    simp only [step] at stepped
    split at stepped
    · next live =>
      cases stepped
      refine (delivers.receive live output).delivered_send live (fun single => ?_) ?_
      · rw [all (.inl single), map_append, ← length_map fst, drop_left]
      · have le := delivers.le
        rw [length_append, append_eq_nil_iff]
        by_cases none_ : output.newTokens = []
        · rcases sends with tokens | sends
          · exact absurd none_ tokens
          · split at sends
            · next ends =>
              rcases sends with ⟨interval, unsent⟩ | nothing
              · rw [delivers.offset interval] at unsent
                exact .inl (by omega)
              · exact .inr (.inl ⟨ends, nothing, none_⟩)
            · next goesOn =>
              rw [delivers.offset sends.1] at sends
              exact .inr (.inr ⟨by simpa using goesOn, sends⟩)
        · have some_ := length_pos_iff.mpr none_
          exact .inl (by omega)
    · cases stepped
      exact ⟨sent, delivers, all⟩
  | abort =>
    simp only [step] at stepped
    split at stepped
    · next live =>
      cases stepped
      refine delivers.delivered_send live (fun single => ?_) ?_
      · rw [all (.inl single), drop_of_length_le (by rw [length_map])]
      · rcases sends with ⟨interval, unsent⟩ | nothing
        · rw [delivers.offset interval] at unsent
          exact .inl unsent
        · exact .inr (.inl ⟨rfl, nothing⟩)
    · cases stepped
      exact ⟨sent, delivers, all⟩
  | get =>
    simp only [step] at stepped
    cases waits : stream.output with
    | none =>
      rw [waits] at stepped
      cases stepped
      exact ⟨sent, delivers, all⟩
    | some output =>
      have tokens := delivers.readTokenIds
      have entries := delivers.readLogprobs
      rw [waits] at stepped tokens entries
      cases stepped
      refine ⟨sent, { delivers with readTokenIds := ?_, readLogprobs := ?_, own := nofun }, all⟩
      · exact (append_nil _).trans tokens
      · exact (append_nil _).trans entries

/-- When a request has ended and its collector is empty, the outputs read carry every received
token and its logprobs exactly once and in order, if no event made it send a delta without
tokens. -/
theorem delivers_exactly_once
    (streamInterval : Nat) (events : List (StreamEvent L)) (final : DeltaStream L)
    (along : Machine.Along step SendsTokens (init streamInterval) events)
    (reached : Machine.run step (init streamInterval) events = .ok final)
    (ended : final.live = false) (drained : final.output = none) :
    final.readTokenIds = final.received.map Prod.fst ∧
      final.readLogprobs = final.received.map Prod.snd := by
  obtain ⟨sent, delivers, all⟩ : final.Delivered := by
    refine Machine.invariant_of_run (fun _ _ _ => delivered_of_step) ?_ along reached
    exact ⟨0, ⟨rfl, rfl, rfl, fun _ => rfl, le_rfl, rfl, rfl, nofun⟩, fun _ => rfl⟩
  have tokens := delivers.readTokenIds
  have entries := delivers.readLogprobs
  rw [drained, all (.inr ended), take_of_length_le (by rw [length_map])] at tokens entries
  exact ⟨(append_nil _).symm.trans tokens, (append_nil _).symm.trans entries⟩

/-- With an unsent token, an aborted request delivers everything once. -/
theorem abort_with_unsent_token :
    ∃ final : DeltaStream Nat, Machine.run step (init 2) [.output { newTokens := [(7, 70)] },
        .output { newTokens := [(8, 80)] }, .get, .abort, .get] = .ok final ∧
      final.readTokenIds = final.received.map Prod.fst ∧
      final.readLogprobs = final.received.map Prod.snd := by
  refine ⟨_, eq_ok_getD_of_isSome _ (init 2) (by decide +kernel), ?_⟩
  exact delivers_exactly_once 2 _ _ (Machine.along_of_checkAlong step (by decide +kernel))
    (eq_ok_getD_of_isSome _ _ (by decide +kernel)) (by decide +kernel) (by decide +kernel)

/-- A request that is aborted after its tokens were sent delivers all their logprobs again, and
so does one that receives an output without tokens. -/
theorem empty_delta_repeats_logprobs :
    ((Machine.run step (init 1 : DeltaStream Nat)
        [.output { newTokens := [(7, 70)] }, .abort, .get]).toOption.map fun final =>
      (final.live, final.output.isNone, final.readTokenIds, final.readLogprobs)) =
        some (false, true, [7], [70, 70]) ∧
    ((Machine.run step (init 1 : DeltaStream Nat)
        [.output { newTokens := [(7, 70)] }, .output { newTokens := [] },
          .output { newTokens := [(8, 80)], finishReason := true }, .get]).toOption.map
        fun final => (final.live, final.output.isNone, final.readTokenIds, final.readLogprobs)) =
      some (false, true, [7, 8], [70, 70, 80]) := by
  decide +kernel

end DeltaStream

end TokenCake
