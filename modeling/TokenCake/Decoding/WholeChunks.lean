import TokenCake.Decoding.Stream

/-!
# Chunks that end at characters

The text of a stream is cut at three kinds of positions: behind the front part of the window,
at the bytes that are held back, and at a stop string.  The first and the last kind are
boundaries between characters.  The second one is not in general, so a stream survives exactly
if it is one whenever a chunk is handed out.
-/

namespace TokenCake

open List Option Utf8 Utf8Text

/-- A failure that ends the program. -/
def DecodeError.IsPanic : DecodeError → Prop
  | notCharBoundary | subtractOverflow => True
  | tokenizer | streamClosedBeforeTerminalOutput => False

namespace TokenDecoder

theorem returns_run (decode : TokenDecoder) (ids : List TokenId) :
    Returns DecodeError.IsPanic (fun _ => True) (decode.run ids) := by
  unfold run
  split
  · exact ⟨.error not_false, nofun⟩
  · exact .ok trivial

end TokenDecoder

namespace Utf8Text

variable {text : Utf8Text} {position : Nat}

theorem cut_of_isBoundary (bounded : IsBoundary text position) :
    ∃ front back, cut text position = .ok (front, back) ∧ text = front ++ back ∧
      byteLength front = position := by
  obtain ⟨front, back, rfl, rfl⟩ := isBoundary_iff.mp bounded
  exact ⟨front, back, by rw [cut, splitAt?_append], rfl, rfl⟩

theorem cut_of_not_isBoundary (unbounded : ¬ IsBoundary text position) :
    cut text position = .error .notCharBoundary := by
  unfold cut
  split
  · rfl
  · next parts split => exact absurd (by rw [IsBoundary, split]; rfl) unbounded

theorem returns_sliceFrom (bounded : IsBoundary text position) :
    Returns DecodeError.IsPanic (fun rest => ∃ front, text = front ++ rest)
      (sliceFrom text position) := by
  obtain ⟨front, back, parted, whole, -⟩ := cut_of_isBoundary bounded
  unfold sliceFrom
  rw [parted]
  exact .ok ⟨front, whole⟩

end Utf8Text

namespace DecodeStream

variable {decode : TokenDecoder} {stream next : DecodeStream}

/-- The output of a stream grows by a text, and nothing is handed out. -/
structure Extends (stream next : DecodeStream) (new : Utf8Text) : Prop where
  output : next.cumulativeOutput = stream.cumulativeOutput ++ new
  outputIndex : next.outputIndex = stream.outputIndex
  minBytesToBuffer : next.minBytesToBuffer = stream.minBytesToBuffer

theorem Extends.refl (stream : DecodeStream) : Extends stream stream [] :=
  ⟨(append_nil _).symm, rfl, rfl⟩

variable (decode stream)

theorem seedSuffix_extends (lengths : List Nat) :
    Returns DecodeError.IsPanic (fun found => ∀ seeded ∈ found, Extends stream seeded [])
      (seedSuffix decode stream lengths) := by
  induction lengths with
  | nil => exact .ok nofun
  | cons suffixLen longer ih =>
    refine .bind (decode.returns_run _) fun decoded _ => ?_
    split
    · refine .ok fun seeded isSeeded => ?_
      cases isSeeded
      exact ⟨(append_nil _).symm, rfl, rfl⟩
    · exact ih

theorem seedPrefix_extends :
    Returns DecodeError.IsPanic (Extends stream · []) (seedPrefix decode stream) := by
  refine .bind (seedSuffix_extends decode stream _) fun found extended => ?_
  cases found with
  | some seeded => exact .ok (extended seeded rfl)
  | none =>
    refine .bind (decode.returns_run _) fun decoded _ => ?_
    split
    · exact .ok (.refl _)
    · exact .ok ⟨(append_nil _).symm, rfl, rfl⟩

theorem seedWindow_extends :
    Returns DecodeError.IsPanic (Extends stream · []) (seedWindow decode stream) := by
  unfold seedWindow
  split
  · exact seedPrefix_extends decode stream
  · exact .ok (.refl _)

/-- A decoder behind a further token: it counts the new text, which is complete. -/
def Pushed (stream : DecodeStream) (pushed : Nat × DecodeStream) : Prop :=
  ∃ new, Extends stream pushed.2 new ∧ pushed.1 = byteLength new ∧ new.endsWithReplacement = false

theorem appendToken_pushed (tokenId : TokenId) :
    Returns DecodeError.IsPanic (Pushed stream) (appendToken decode stream tokenId) := by
  refine .bind (decode.returns_run _) fun string _ => ?_
  dsimp only
  split
  · exact .ok ⟨[], ⟨(append_nil _).symm, rfl, rfl⟩, rfl, rfl⟩
  · next complete =>
    refine .bind (returns_sliceFrom (isBoundary_floorCharBoundary ..))
      fun newChunk ⟨front, whole⟩ => ?_
    refine .bind (decode.returns_run _) fun prefixText _ => ?_
    refine .ok ⟨newChunk, ⟨rfl, rfl, rfl⟩, rfl, ?_⟩
    rw [Bool.or_eq_true, not_or, whole] at complete
    by_cases nonempty : newChunk = []
    · rw [nonempty]
      rfl
    · rw [← endsWithReplacement_append nonempty]
      exact Bool.eq_false_iff.mpr complete.2

/-- A token extends the output by complete text, whatever the tokenizer does. -/
theorem pushToken_pushed (tokenId : TokenId) :
    Returns DecodeError.IsPanic (Pushed stream) (pushToken decode stream tokenId) := by
  refine .bind (seedWindow_extends decode stream) fun seeded start => ?_
  refine (appendToken_pushed decode seeded tokenId).imp
    fun pushed ⟨new, extended, counted, complete⟩ => ?_
  refine ⟨new, ⟨?_, extended.outputIndex.trans start.outputIndex,
    extended.minBytesToBuffer.trans start.minBytesToBuffer⟩, counted, complete⟩
  rw [extended.output, start.output, append_nil]

theorem drain_extends :
    Returns DecodeError.IsPanic (fun drained => ∃ new, Extends stream drained new)
      (drain decode stream) := by
  unfold drain
  split
  · exact .ok ⟨[], .refl _⟩
  · refine .bind (decode.returns_run _) fun string _ => ?_
    refine .bind (returns_sliceFrom (isBoundary_floorCharBoundary ..)) fun rest _ => ?_
    exact .ok ⟨rest, rfl, rfl, rfl⟩

variable {decode stream}

/-- The bytes that are held back begin at a boundary, if there is more to hand out. -/
def HoldsBackCharacters (stream : DecodeStream) : Prop :=
  stream.outputIndex < byteLength stream.cumulativeOutput - stream.minBytesToBuffer →
    IsBoundary stream.cumulativeOutput
      (byteLength stream.cumulativeOutput - stream.minBytesToBuffer)

/-- What was handed out is the front part of the output, without the bytes that are held
back. -/
structure HandedOut (stream : DecodeStream) (chunks : List Utf8Text) : Prop where
  front : chunks.flatten <+: stream.cumulativeOutput
  measured : byteLength chunks.flatten = stream.outputIndex
  held : stream.outputIndex ≤ byteLength stream.cumulativeOutput - stream.minBytesToBuffer

variable {chunks : List Utf8Text}

theorem HandedOut.of_extends {new : Utf8Text} (handed : HandedOut stream chunks)
    (extended : Extends stream next new) : HandedOut next chunks where
  front := by
    rw [extended.output]
    exact handed.front.trans (prefix_append ..)
  measured := by rw [extended.outputIndex, handed.measured]
  held := by
    have := handed.held
    rw [extended.outputIndex, extended.output, extended.minBytesToBuffer, byteLength_append]
    omega

/-- What follows the chunks up to a boundary is the slice between them. -/
theorem HandedOut.sliceBetween (handed : HandedOut stream chunks)
    (behind : stream.outputIndex ≤ stop) (bounded : IsBoundary stream.cumulativeOutput stop) :
    ∃ chunk, stream.cumulativeOutput.sliceBetween stream.outputIndex stop = .ok chunk ∧
      chunks.flatten ++ chunk <+: stream.cumulativeOutput ∧
      byteLength (chunks.flatten ++ chunk) = stop := by
  obtain ⟨front, back, parted, whole, measured⟩ := Utf8Text.cut_of_isBoundary bounded
  have starts : chunks.flatten <+: front := by
    refine prefix_of_byteLength_le handed.front ?_ (by rw [handed.measured, measured]; exact behind)
    rw [whole]
    exact prefix_append ..
  obtain ⟨chunk, rfl⟩ := starts
  refine ⟨chunk, ?_, by rw [whole]; exact prefix_append .., measured⟩
  unfold Utf8Text.sliceBetween
  rw [parted, ← handed.measured]
  exact Utf8Text.sliceFrom_append ..

/-- A chunk can be handed out if characters are held back as a whole. -/
theorem HandedOut.nextChunk (handed : HandedOut stream chunks)
    (characters : stream.HoldsBackCharacters) :
    Returns DecodeError.IsPanic (fun taken => HandedOut taken.2 (chunks ++ taken.1.toList) ∧
        taken.2.minBytesToBuffer = stream.minBytesToBuffer ∧
        taken.2.cumulativeOutput = stream.cumulativeOutput) stream.nextChunk := by
  unfold DecodeStream.nextChunk
  dsimp only
  split
  · next ready =>
    obtain ⟨chunk, sliced, front, measured⟩ :=
      handed.sliceBetween (Nat.le_of_lt ready) (characters ready)
    rw [sliced]
    have flattened : (chunks ++ [chunk]).flatten = chunks.flatten ++ chunk := by simp
    refine .ok ⟨⟨?_, ?_, le_rfl⟩, rfl, rfl⟩
    · rw [toList_some, flattened]
      exact front
    · rw [toList_some, flattened]
      exact measured
  · refine .ok ⟨?_, rfl, rfl⟩
    rw [toList_none, append_nil]
    exact handed

/-- Behind the chunks, the rest of a text is the last chunk. -/
theorem lastChunk_append (front rest : Utf8Text) :
    ∃ chunk, lastChunk (byteLength front) (front ++ rest) = .ok chunk ∧ chunk.getD [] = rest := by
  unfold lastChunk
  split
  · exact ⟨some rest, by rw [sliceFrom_append]; rfl, rfl⟩
  · next short =>
    refine ⟨none, rfl, ?_⟩
    by_contra nonempty
    have visible : 0 < byteLength rest := byteLength_pos fun empty => nonempty empty.symm
    rw [byteLength_append] at short
    omega

/-- The end of a stream completes what was handed out, if it is cut behind that. -/
theorem HandedOut.flush (handed : HandedOut stream chunks) {truncateOutputTo : Option Nat}
    (behind : ∀ stop ∈ truncateOutputTo,
      stream.outputIndex ≤ stop ∧ IsBoundary stream.cumulativeOutput stop) :
    Returns DecodeError.IsPanic (fun flushed => chunks.flatten ++ flushed.1.1.getD [] = flushed.1.2)
      (stream.flush decode truncateOutputTo) := by
  refine .bind (drain_extends decode stream) fun drained ⟨new, extended⟩ => ?_
  have all := handed.of_extends extended
  have cut : ∃ output, drained.cumulativeOutput.truncate? truncateOutputTo = .ok output ∧
      chunks.flatten <+: output := by
    cases truncateOutputTo with
    | none => exact ⟨_, rfl, all.front⟩
    | some stop =>
      obtain ⟨later, bounded⟩ := behind stop rfl
      have bounded : IsBoundary drained.cumulativeOutput stop := by
        rw [extended.output]
        exact bounded.append new
      obtain ⟨front, back, parted, whole, measured⟩ := cut_of_isBoundary bounded
      refine ⟨front, ?_, prefix_of_byteLength_le all.front (by rw [whole]; exact prefix_append ..)
        (by rw [all.measured, measured, extended.outputIndex]; exact later)⟩
      change truncate _ stop = _
      unfold truncate
      rw [if_pos bounded.le, parted]
      rfl
  obtain ⟨_, truncated, rest, rfl⟩ := cut
  obtain ⟨chunk, last, same⟩ := lastChunk_append chunks.flatten rest
  rw [truncated, ← all.measured]
  refine .ok_bind ?_
  rw [last]
  exact .ok (by rw [same])

end DecodeStream

variable {stops : List Utf8Text} {stop : Utf8Text}

section StopStrings

variable {pattern bytes : List UInt8}

theorem prefix_of_rposition {count position : Nat}
    (found : rposition pattern bytes count = some position) : pattern <+: bytes.drop position := by
  induction count with
  | zero => cases found
  | succ count ih =>
    unfold rposition at found
    split at found
    · next same =>
      cases found
      rw [← same]
      exact take_prefix ..
    · exact ih found

variable {nextOff index : Nat}

/-- A stop string that is found ends in the new bytes. -/
theorem matchesStopString_spec
    (matched : matchesStopString bytes nextOff stops index = some (found, off)) :
    ∃ stop, index ≤ found ∧ stops[found - index]? = some stop ∧
      encode stop <+: bytes.drop off ∧ nextOff ≤ off + byteLength stop := by
  induction stops generalizing index with
  | nil => cases matched
  | cons stop stops ih =>
    unfold matchesStopString at matched
    dsimp only at matched
    split at matched
    · next position found =>
      cases matched
      have occurs := prefix_of_rposition found
      rw [drop_drop] at occurs
      exact ⟨stop, le_rfl, by simp, occurs, by omega⟩
    · obtain ⟨other, later, listed, occurs, ends⟩ := ih matched
      refine ⟨other, by omega, ?_, occurs, ends⟩
      rw [show found - index = found - (index + 1) + 1 by omega, getElem?_cons_succ]
      exact listed

theorem not_prefix_of_rposition {count position : Nat}
    (missing : rposition pattern bytes count = none)
    (searched : position < count) : ¬ pattern <+: bytes.drop position := by
  induction count with
  | zero => cases searched
  | succ count ih =>
    unfold rposition at missing
    split at missing
    · cases missing
    · next different =>
      by_cases last : position = count
      · rw [last, prefix_iff_eq_take]
        exact fun same => different same.symm
      · exact ih missing (by omega)

/-- If no stop string is found, none ends in the new bytes. -/
theorem not_prefix_of_matchesStopString
    (missing : matchesStopString bytes nextOff stops index = none) (listed : stop ∈ stops)
    (nonempty : stop ≠ [])
    (ends : nextOff ≤ position + byteLength stop) : ¬ encode stop <+: bytes.drop position := by
  induction stops generalizing index with
  | nil => cases listed
  | cons first stops ih =>
    unfold matchesStopString at missing
    dsimp only at missing
    split at missing
    · cases missing
    · next absent =>
      rcases mem_cons.mp listed with rfl | later
      · intro occurs
        have fits := occurs.length_le
        have visible := byteLength_pos nonempty
        change byteLength stop ≤ _ at fits
        rw [length_drop] at fits absent
        refine not_prefix_of_rposition absent
          (show position - (nextOff - byteLength stop) < _ by omega) ?_
        rwa [drop_drop, show nextOff - byteLength stop +
          (position - (nextOff - byteLength stop)) = position by omega]
      · exact ih missing later

end StopStrings

namespace TextEventStream

variable {options : TextDecodeOptions}

/-- No stop string is longer than what is held back, and one byte. -/
theorem byteLength_le_minBytesToBuffer (excluded : options.includeStopStrInOutput = false)
    (configured : options.stopStrings = some stops)
    (mem : stop ∈ stops) : byteLength stop ≤ minBytesToBuffer options + 1 := by
  have listed : byteLength stop ∈ stops.map byteLength := mem_map_of_mem mem
  obtain ⟨longest, isLongest⟩ : ∃ longest, (stops.map byteLength).max? = some longest := by
    rw [← isSome_iff_exists, isSome_max?_iff]
    exact ne_nil_of_mem listed
  have bound := (max?_eq_some_iff.mp isLongest).2 _ listed
  unfold minBytesToBuffer
  rw [excluded, configured, bind_some, isLongest]
  simp only [Bool.false_eq_true, if_false, getD_some]
  omega

variable (nonempty : ∀ stops ∈ options.stopStrings, ∀ stop ∈ stops, stop ≠ [])

include nonempty in
/-- The search for stop strings returns, and finds a position behind which nothing was handed
out. -/
theorem findStop_spec (before new : Utf8Text) (tokenCount tokIdx : Nat) :
    ∃ found, findStop options (before ++ new) (byteLength new) tokenCount tokIdx = .ok found ∧
      ∀ stop ∈ found, byteLength before - minBytesToBuffer options ≤ stop.truncateOutputTo ∧
          IsBoundary (before ++ new) stop.truncateOutputTo := by
  unfold findStop
  cases configured : options.stopStrings with
  | none => exact ⟨none, rfl, nofun⟩
  | some stops =>
    dsimp only
    split
    · have total : (encode (before ++ new)).length = byteLength before + byteLength new := by
        rw [encode_append, length_append]
        rfl
      rw [total, ensure, if_pos (by rw [decide_eq_true_iff]; omega)]
      split
      · exact ⟨none, rfl, nofun⟩
      · next index off matched =>
        obtain ⟨stop, -, listed, occurs, ends⟩ := matchesStopString_spec matched
        rw [Nat.sub_zero] at listed
        have mem := mem_of_getElem? listed
        obtain ⟨front, back, parts, measured⟩ :=
          exists_parts_of_encode_prefix_drop (nonempty stops configured stop mem) occurs
        refine ⟨_, rfl, fun found same => ?_⟩
        cases same
        dsimp only
        rw [listed, getD_some]
        split
        · refine ⟨by omega, ?_⟩
          rw [parts, ← measured, ← byteLength_append]
          exact (isBoundary_byteLength _).append back
        · next excluded =>
          have fits := byteLength_le_minBytesToBuffer (by simpa using excluded) configured mem
          refine ⟨by omega, ?_⟩
          rw [parts, ← measured, append_assoc]
          exact (isBoundary_byteLength _).append _
    · exact ⟨none, rfl, nofun⟩

/-- No stop string occurs in a text. -/
def StopFree (options : TextDecodeOptions) (text : Utf8Text) : Prop :=
  ∀ stops ∈ options.stopStrings, ∀ stop ∈ stops, ¬ stop <:+: text

variable {tokenCount : Nat} {text : Utf8Text}

include nonempty in
/-- An output that is searched and goes on has no stop string. -/
theorem stopFree_of_findStop {before new : Utf8Text} {tokIdx : Nat}
    (free : StopFree options before) (checked : options.minTokens < tokenCount)
    (missing : findStop options (before ++ new) (byteLength new) tokenCount tokIdx = .ok none) :
    StopFree options (before ++ new) := by
  rintro stops configured stop mem ⟨front, back, parts⟩
  have total : (encode (before ++ new)).length = byteLength before + byteLength new := by
    rw [encode_append, length_append]
    rfl
  have occurs : encode stop <+: (encode (before ++ new)).drop (byteLength front) := by
    rw [← parts, encode_append, encode_append, append_assoc, byteLength, drop_left]
    exact prefix_append ..
  unfold findStop at missing
  rw [configured] at missing
  dsimp only at missing
  rw [if_pos checked, total] at missing
  obtain ⟨_, -, missing⟩ := bind_eq_ok.mp missing
  split at missing
  · next unmatched =>
    by_cases late : byteLength before < byteLength front + byteLength stop
    · exact not_prefix_of_matchesStopString unmatched mem
        (nonempty stops configured stop mem) (by omega) occurs
    · -- The occurrence lies in what was searched before.
      obtain ⟨rest, whole⟩ : front ++ stop <+: before :=
        prefix_of_byteLength_le ⟨back, parts⟩ (prefix_append ..)
          (by rw [byteLength_append]; omega)
      exact free stops configured stop mem ⟨front, rest, whole⟩
  · cases missing

include nonempty in
/-- In a text without stop strings, none is found. -/
theorem findStop_of_stopFree
    (free : options.minTokens < tokenCount → StopFree options text) (tokIdx : Nat) :
    findStop options text (byteLength text) tokenCount tokIdx = .ok none := by
  unfold findStop
  cases configured : options.stopStrings with
  | none => rfl
  | some stops =>
    dsimp only
    split
    · next checked =>
      rw [ensure, if_pos (by rw [decide_eq_true_iff]; exact Nat.le_succ _)]
      split
      · rfl
      · next index off matched =>
        obtain ⟨stop, -, listed, occurs, -⟩ := matchesStopString_spec matched
        have mem := mem_of_getElem? listed
        obtain ⟨front, back, parts, -⟩ :=
          exists_parts_of_encode_prefix_drop (nonempty stops configured stop mem) occurs
        exact absurd ⟨front, back, parts.symm⟩ (free checked stops configured stop mem)
    · rfl

/-- A text that is shown as soon as it is decoded. -/
structure Showable (options : TextDecodeOptions) (text : Utf8Text) : Prop where
  complete : text.endsWithReplacement = false
  /-- The first tokens of a request need not be searched. -/
  stopFree : options.minTokens = 0 → StopFree options text

/-- The bytes that are held back are whole characters, in every output from which a chunk may
be taken. -/
def HoldsBackCharacters (options : TextDecodeOptions) : Prop :=
  ∀ text, Showable options text → minBytesToBuffer options < byteLength text →
    IsBoundary text (byteLength text - minBytesToBuffer options)

section Run

variable {decode : TokenDecoder} {intermediate : Bool}

/-- A stream that goes on. -/
structure Coherent (options : TextDecodeOptions) (intermediate : Bool)
    (stream : TextEventStream) : Prop where
  sameOptions : stream.options = options
  sameMode : stream.intermediate = intermediate
  buffered : stream.decoder.minBytesToBuffer = minBytesToBuffer options
  handed : stream.decoder.HandedOut stream.chunks
  shown : Showable options stream.decoder.cumulativeOutput

/-- A loop over tokens: its stream goes on, or is cut behind what was handed out. -/
structure TokenLoop.Sound (options : TextDecodeOptions) (intermediate : Bool)
    (state : TokenLoop) : Prop where
  handed : state.stream.decoder.HandedOut state.stream.chunks
  stopped : ∀ found ∈ state.found, state.stream.decoder.outputIndex ≤ found.truncateOutputTo ∧
    IsBoundary state.stream.decoder.cumulativeOutput found.truncateOutputTo
  goesOn : state.found = none → Coherent options intermediate state.stream

theorem coherent_new
    (options : TextDecodeOptions) (intermediate : Bool) (promptTokenIds : List TokenId)
    (nonempty : ∀ stops ∈ options.stopStrings, ∀ stop ∈ stops, stop ≠ []) :
    Coherent options intermediate (new options intermediate promptTokenIds) where
  sameOptions := rfl
  sameMode := rfl
  buffered := rfl
  handed := ⟨ nil_prefix, rfl, Nat.zero_le _⟩
  shown := ⟨rfl, fun _ stops configured stop mem occurs =>
    nonempty stops configured stop mem (infix_nil.mp occurs)⟩

variable {stream : TextEventStream} {state : TokenLoop}

include nonempty in
/-- The search behind a new token returns; without a match the stream goes on. -/
theorem Coherent.search (coherent : Coherent options intermediate stream) {decoder : DecodeStream}
    {new : Utf8Text} (extended : stream.decoder.Extends decoder new)
    (complete : new.endsWithReplacement = false) (tokIdx : Nat) :
    ∃ found, findStop stream.options decoder.cumulativeOutput (byteLength new)
        (stream.outputTokenCount + tokIdx + 1) tokIdx = .ok found ∧
      (∀ stop ∈ found, decoder.outputIndex ≤ stop.truncateOutputTo ∧
        IsBoundary decoder.cumulativeOutput stop.truncateOutputTo) ∧
      (found = none → Coherent options intermediate { stream with decoder := decoder }) := by
  obtain ⟨found, searched, stopped⟩ := findStop_spec nonempty stream.decoder.cumulativeOutput new
    (stream.outputTokenCount + tokIdx + 1) tokIdx
  refine ⟨found, ?_, fun stop isStop => ?_, fun missing => ?_⟩
  · rw [coherent.sameOptions, extended.output]
    exact searched
  · obtain ⟨late, bounded⟩ := stopped stop isStop
    have held := coherent.handed.held
    rw [coherent.buffered] at held
    rw [extended.outputIndex, extended.output]
    exact ⟨by omega, bounded⟩
  · refine ⟨coherent.sameOptions, coherent.sameMode,
      extended.minBytesToBuffer.trans coherent.buffered, coherent.handed.of_extends extended,
      ?_, fun unlimited => ?_⟩
    · rw [extended.output]
      by_cases nothing : new = []
      · rw [nothing, append_nil]
        exact coherent.shown.complete
      · rw [endsWithReplacement_append nothing]
        exact complete
    · rw [extended.output]
      exact stopFree_of_findStop nonempty (coherent.shown.stopFree unlimited) (by omega)
        (missing ▸ searched)

/-- A chunk can be taken if characters are held back as a whole. -/
theorem Coherent.takeChunk (coherent : Coherent options intermediate state.stream)
    (characters : intermediate = true → HoldsBackCharacters options) :
    Returns DecodeError.IsPanic
      (fun next => Coherent options intermediate next.stream ∧ next.found = state.found)
      (takeChunk state) := by
  unfold TextEventStream.takeChunk
  split
  · next isIntermediate =>
    have holds : state.stream.decoder.HoldsBackCharacters := by
      intro ready
      rw [coherent.buffered] at ready ⊢
      exact characters (coherent.sameMode ▸ isIntermediate) _ coherent.shown (by omega)
    refine .bind (coherent.handed.nextChunk holds)
      fun ⟨chunk, decoder⟩ ⟨handed, buffered, output⟩ => ?_
    have shown : Showable options decoder.cumulativeOutput := by
      rw [output]
      exact coherent.shown
    have buffered := buffered.trans coherent.buffered
    cases chunk with
    | none =>
      rw [toList_none, append_nil] at handed
      exact .ok ⟨⟨coherent.sameOptions, coherent.sameMode, buffered, handed, shown⟩, rfl⟩
    | some chunk =>
      exact .ok ⟨⟨coherent.sameOptions, coherent.sameMode, buffered, handed, shown⟩, rfl⟩
  · exact .ok ⟨coherent, rfl⟩

theorem Coherent.decodeToken (coherent : Coherent options intermediate state.stream)
    (missing : state.found = none)
    (nonempty : ∀ stops ∈ options.stopStrings, ∀ stop ∈ stops, stop ≠ [])
    (characters : intermediate = true → HoldsBackCharacters options)
    (tokIdx : Nat) (tokenId : TokenId) :
    Returns DecodeError.IsPanic (TokenLoop.Sound options intermediate)
      (decodeToken decode state tokIdx tokenId) := by
  refine .bind (state.stream.decoder.pushToken_pushed decode tokenId)
    fun ⟨newBytes, decoder⟩ ⟨new, extended, counted, complete⟩ => ?_
  obtain ⟨found, searched, stopped, goesOn⟩ := coherent.search nonempty extended complete tokIdx
  dsimp only at counted ⊢
  rw [counted, searched]
  refine .ok_bind ?_
  cases found with
  | some found =>
    refine .ok ⟨coherent.handed.of_extends extended, fun other isFound => ?_, nofun⟩
    cases isFound
    exact stopped found rfl
  | none =>
    refine Returns.imp (Coherent.takeChunk (goesOn rfl) characters) fun next ⟨goesOn, same⟩ => ?_
    exact ⟨goesOn.handed, by rw [same, missing]; exact nofun, fun _ => goesOn⟩

include nonempty in
theorem Coherent.decodeTokens (characters : intermediate = true → HoldsBackCharacters options)
    (coherent : Coherent options intermediate state.stream) (missing : state.found = none)
    (tokIdx : Nat) (tokenIds : List TokenId) :
    Returns DecodeError.IsPanic (TokenLoop.Sound options intermediate)
      (decodeTokens decode state tokIdx tokenIds) := by
  induction tokenIds generalizing state tokIdx with
  | nil => exact .ok ⟨coherent.handed, by rw [missing]; exact nofun, fun _ => coherent⟩
  | cons tokenId rest ih =>
    refine .bind (coherent.decodeToken missing nonempty characters tokIdx tokenId)
      fun next sound => ?_
    split
    · exact .ok sound
    · next open_ =>
      have missing := not_isSome_iff_eq_none.mp open_
      exact ih (sound.goesOn missing) missing _

/-- What an output leads to: a stream that goes on, or a result in which the chunks are the
whole text. -/
def Answered (options : TextDecodeOptions)
    (intermediate : Bool) : (Option TextDelta × TextEventStream) ⊕ TextEventResult → Prop
  | .inl (_, stream) => Coherent options intermediate stream
  | .inr result => result.chunks.flatten ++ result.lastChunk.getD [] = result.fullText

section

variable (characters : intermediate = true → HoldsBackCharacters options)
  (coherent : Coherent options intermediate stream)

include nonempty characters coherent

theorem Coherent.decodeOutput (output : GenerateOutput) :
    Returns DecodeError.IsPanic (Answered options intermediate)
      (decodeOutput decode stream output) := by
  refine .bind (coherent.decodeTokens nonempty characters rfl 0 _) fun state sound => ?_
  have ends : ∀ found, state.found = found → Returns DecodeError.IsPanic
      (fun flushed => state.stream.chunks.flatten ++ flushed.1.1.getD [] = flushed.1.2)
      (state.stream.decoder.flush decode (found.map StopMatch.truncateOutputTo)) := by
    intro found isFound
    refine sound.handed.flush fun stop isStop => ?_
    obtain ⟨stopMatch, isMatch, rfl⟩ := map_eq_some_iff.mp isStop
    exact sound.stopped stopMatch (isFound.trans isMatch)
  cases found : state.found with
  | some stopMatch => exact .bind (ends _ found) fun flushed whole => .ok whole
  | none =>
    cases output.finishReason with
    | some reason => exact .bind (ends _ found) fun flushed whole => .ok whole
    | none =>
      have coherent := sound.goesOn found
      dsimp only
      split
      · exact .ok { coherent with }
      · exact .ok { coherent with }

theorem Coherent.decodedTextEvents (outputs : List GenerateOutput) :
    Returns DecodeError.IsPanic
      (fun answer => answer.2.chunks.flatten ++ answer.2.lastChunk.getD [] = answer.2.fullText)
      (decodedTextEvents decode stream outputs) := by
  induction outputs generalizing stream with
  | nil => exact ⟨.error not_false, nofun⟩
  | cons output outputs ih =>
    refine .bind (coherent.decodeOutput nonempty characters output) fun answer answered => ?_
    rcases answer with ⟨event, following⟩ | result
    · exact .bind (ih answered) fun rest whole => .ok whole
    · exact .ok answered

end

/-- The decoder that answers the same text for all tokens. -/
def showing (text : Utf8Text) : TokenDecoder := fun _ => some text

include nonempty in
/-- A stream is lost when its first token shows a text and the bytes that are held back begin
in a character. -/
theorem decodedTextEvents_showing
    (shown : Showable options text) (long : minBytesToBuffer options < byteLength text)
    (inside : ¬ IsBoundary text (byteLength text - minBytesToBuffer options)) :
    decodedTextEvents (showing text) (new options true [])
      [{ tokenIds := [0], finishReason := none }] = .error .notCharBoundary := by
  have pushed : (DecodeStream.new [] (minBytesToBuffer options)).pushToken (showing text) 0 =
      .ok (byteLength text,
        { minBytesToBuffer := minBytesToBuffer options
          ids := [0]
          prefixText := text
          prefixIndex := 1
          cumulativeOutput := text }) := by
    change DecodeStream.appendToken (showing text) (.new [] (minBytesToBuffer options)) 0 = _
    unfold DecodeStream.appendToken
    dsimp only [bind, Except.bind, TokenDecoder.run, showing, DecodeStream.new]
    split
    · next short =>
      rw [shown.complete, Bool.or_false, decide_eq_true_iff] at short
      exact absurd short (by rw [byteLength_nil]; omega)
    · have start : floorCharBoundary text (byteLength []) = 0 := floorCharBoundary_append [] text
      rw [start, sliceFrom_zero]
      rfl
  have step : decodeToken (showing text) { stream := new options true [] } 0 0 =
      .error .notCharBoundary := by
    change (DecodeStream.pushToken _ (DecodeStream.new [] _) 0 >>= _) = _
    rw [pushed]
    dsimp only [bind, Except.bind]
    have missing : findStop (new options true []).options text (byteLength text)
        ((new options true []).outputTokenCount + 0 + 1) 0 = .ok none :=
      findStop_of_stopFree nonempty (fun checked => shown.stopFree (Nat.lt_one_iff.mp checked)) 0
    rw [missing]
    dsimp only [takeChunk, DecodeStream.nextChunk]
    rw [if_pos (show (new options true []).intermediate = true from rfl), if_pos (by omega),
      sliceBetween, cut_of_not_isBoundary inside]
    rfl
  change ((decodeTokens (showing text) _ 0 [0] >>= _) >>= _) = _
  unfold decodeTokens
  rw [step]
  rfl

end Run

/-- Streaming decode survives every tokenizer, prompt and output exactly if no character can
be cut by the bytes that are held back. -/
theorem decodedTextEvents_iff (options : TextDecodeOptions) (intermediate : Bool)
    (nonempty : ∀ stops ∈ options.stopStrings, ∀ stop ∈ stops, stop ≠ []) :
    (∀ decode promptTokenIds outputs, Avoids DecodeError.IsPanic
          (decodedTextEvents decode (new options intermediate promptTokenIds) outputs) ∧
        ∀ events result,
          decodedTextEvents decode (new options intermediate promptTokenIds) outputs =
              .ok (events, result) →
            result.chunks.flatten ++ result.lastChunk.getD [] = result.fullText) ↔
      (intermediate = true → HoldsBackCharacters options) := by
  constructor
  · rintro survives rfl text shown long
    by_contra inside
    obtain ⟨avoids, -⟩ :=
      survives (showing text) [] [{ tokenIds := [0], finishReason := none }]
    exact avoids _ (decodedTextEvents_showing nonempty shown long inside) trivial
  · intro characters decode promptTokenIds outputs
    obtain ⟨avoids, whole⟩ :=
      (coherent_new options intermediate promptTokenIds nonempty).decodedTextEvents nonempty
        characters outputs
    exact ⟨avoids, fun events result returned => whole _ returned⟩

/-- A stop string of one byte holds nothing back, so no chunk is cut. -/
theorem decodedTextEvents_one_byte :
    let options : TextDecodeOptions := { stopStrings := some [['!']] }
    HoldsBackCharacters options ∧ ∀ decode promptTokenIds outputs, Avoids DecodeError.IsPanic
          (decodedTextEvents decode (new options true promptTokenIds) outputs) ∧
        ∀ events result, decodedTextEvents decode (new options true promptTokenIds) outputs =
            .ok (events, result) →
          result.chunks.flatten ++ result.lastChunk.getD [] = result.fullText := by
  intro options
  have nonempty : ∀ stops ∈ options.stopStrings, ∀ stop ∈ stops, stop ≠ [] := by
    rintro _ ⟨⟩ stop member
    cases mem_singleton.mp member
    exact cons_ne_nil _ _
  have whole : HoldsBackCharacters options := fun text _ _ => isBoundary_byteLength text
  exact ⟨whole, (decodedTextEvents_iff options true nonempty).mpr fun _ => whole⟩

/-- With a stop string of three bytes, two bytes are held back, and the first character of an
output is cut. -/
theorem euro_sign_cut :
    failureOf (decodedTextEvents (showing ['€'])
      (new { stopStrings := some [['E', 'N', 'D']] } true []) [{ tokenIds := [0] }]) =
        some .notCharBoundary := by
  decide +kernel

end TextEventStream

end TokenCake
