import Mathlib.Data.List.Find
import Mathlib.Data.List.Induction

/-!
# Stop strings in the Python front end

Tokens are decoded one by one; behind the last token of a call, the new text is searched for stop
strings.  What may be the beginning of a stop string is not streamed yet, which is enough for every
later truncation: the deltas of a request make up its final text.

Texts are lists of characters, and a token stands for the text that it is decoded to.
-/

namespace TokenCake

open List

/-- The parameters of a request that concern its text. -/
structure StopParams where
  stop : List (List Char) := []
  minTokens : Nat := 0
  includeStopStrInOutput : Bool := false
deriving DecidableEq, Repr

/-- The position of the first occurrence of a pattern from a start index on.  A negative index
counts from the end. -/
def pyFind (text pattern : List Char) (start : Int) : Option Nat :=
  let start := if start < 0 then (start + text.length).toNat else start.toNat
  (range (text.length + 1)).find? fun index => decide (start ≤ index ∧ pattern <+: text.drop index)

/-- The first listed stop string that is found, and the length to which the text is to be
truncated, if it is. -/
def checkStopStrings (outputText : List Char) (newCharCount : Nat) (stop : List (List Char))
    (includeInOutput : Bool) : Option (List Char × Option Nat) :=
  if newCharCount = 0 ∨ stop = [] then none
  else
    stop.findSome? fun stopStr =>
      -- Avoid searching already-searched text.
      (pyFind outputText stopStr (1 - newCharCount - stopStr.length)).map fun stopIndex =>
        if includeInOutput then
          if stopIndex + stopStr.length ≥ outputText.length then (stopStr, none)
          else (stopStr, some (stopIndex + stopStr.length))
        else (stopStr, some stopIndex)

/-- A pattern stands at a position of a text and ends behind an offset. -/
def StandsAt (text pattern : List Char) (offset index : Nat) : Prop :=
  pattern <+: text.drop index ∧ offset < index + pattern.length

instance (text pattern : List Char) (offset index : Nat) :
    Decidable (StandsAt text pattern offset index) :=
  inferInstanceAs (Decidable (_ ∧ _))

/-- The first position at which a pattern stands that ends behind an offset. -/
def completion (text : List Char) (offset : Nat) (pattern : List Char) : Option Nat :=
  (range (text.length + 1)).find? fun index => decide (StandsAt text pattern offset index)

/-- The first listed stop string that ends behind an offset, and its position. -/
def firstStop (stops : List (List Char)) (text : List Char) (offset : Nat) :
    Option (List Char × Nat) :=
  stops.findSome? fun stop => (completion text offset stop).map fun index => (stop, index)

section Search

theorem findSome?_congr_of_mem {α β : Type*} {f g : α → Option β} {list : List α}
    (same : ∀ a ∈ list, f a = g a) : list.findSome? f = list.findSome? g := by
  induction list with
  | nil => rfl
  | cons a list ih =>
    rw [findSome?_cons, findSome?_cons, same a mem_cons_self,
      ih fun b mem => same b (mem_cons_of_mem a mem)]

variable {text pattern stop : List Char} {stops : List (List Char)} {offset index : Nat}

theorem StandsAt.length_le (stands : StandsAt text pattern offset index) (nonempty : pattern ≠ []) :
    index + pattern.length ≤ text.length := by
  have fits := stands.1.length_le
  have positive := length_pos_iff.mpr nonempty
  rw [length_drop] at fits
  omega

/-- Without new text, nothing ends behind the offset. -/
theorem firstStop_of_length_le (nonempty : ∀ stop ∈ stops, stop ≠ [])
    (bound : text.length ≤ offset) : firstStop stops text offset = none := by
  refine findSome?_eq_none_iff.mpr fun stop mem => Option.map_eq_none_iff.mpr ?_
  refine find?_range_eq_none.mpr fun index _ => ?_
  have apart : ¬ StandsAt text stop offset index := fun stands => by
    have ends := stands.length_le (nonempty stop mem)
    have late := stands.2
    omega
  simp [apart]

theorem firstStop_eq_some (found : firstStop stops text offset = some (stop, index)) :
    stop ∈ stops ∧ StandsAt text stop offset index := by
  obtain ⟨listed, mem, isFound⟩ := exists_of_findSome?_eq_some found
  obtain ⟨position, completed, same⟩ := Option.map_eq_some_iff.mp isFound
  cases same
  exact ⟨mem, of_decide_eq_true (find?_range_eq_some.mp completed).1⟩

/-- The search for a pattern, from the start index of the source on, finds the first occurrence that
ends in the new text. -/
theorem pyFind_eq (nonempty : pattern ≠ []) (bound : offset < text.length) :
    pyFind text pattern (1 - (text.length - offset : Nat) - pattern.length) =
      completion text offset pattern := by
  have positive := length_pos_iff.mpr nonempty
  unfold pyFind completion
  rw [if_pos (by omega)]
  refine find?_congr fun index _ => decide_eq_decide.mpr ?_
  rw [StandsAt, and_comm]
  exact and_congr_right' (by omega)

/-- What is left of a text behind a search. -/
def truncated (includeInOutput : Bool) (text : List Char) (found : List Char × Nat) : List Char :=
  text.take (found.2 + if includeInOutput then found.1.length else 0)

/-- The search returns the first listed stop string that ends in the new text. -/
theorem checkStopStrings_eq (text : List Char) (offset : Nat)
    (nonempty : ∀ stop ∈ stops, stop ≠ []) (includeInOutput : Bool) :
    (checkStopStrings text (text.length - offset) stops includeInOutput).map
        (fun found => (found.1, found.2.elim text text.take)) =
      (firstStop stops text offset).map fun found =>
        (found.1, truncated includeInOutput text found) := by
  unfold checkStopStrings
  split
  · next nothing =>
    rcases nothing with old | rfl
    · rw [firstStop_of_length_le nonempty (by omega)]
      rfl
    · rfl
  · next new =>
    rw [firstStop, map_findSome?, map_findSome?]
    refine findSome?_congr_of_mem fun stop mem => ?_
    have bound : offset < text.length := by
      rw [not_or] at new
      omega
    simp only [Function.comp_apply, Option.map_map, pyFind_eq (nonempty stop mem) bound]
    refine Option.map_congr fun index _ => ?_
    cases includeInOutput
    · simp [truncated]
    · by_cases whole : text.length ≤ index + stop.length
      · simp [truncated, whole, take_of_length_le]
      · simp [truncated, whole]

end Search

/-- The text of a request and what of it has been streamed. -/
structure Detokenizer where
  numOutputTokens : Nat := 0
  outputText : List Char := []
  lastOutputTextOffset : Nat := 0
deriving DecidableEq, Repr

namespace Detokenizer

variable (params : StopParams) (detokenizer : Detokenizer)

/-- One pass of the decoding loop, with the offset behind which stop strings are looked for. -/
def appendToken (state : Detokenizer × Nat) (token : List Char) : Detokenizer × Nat :=
  let decoded := { state.1 with
    numOutputTokens := state.1.numOutputTokens + 1
    outputText := state.1.outputText ++ token }
  (decoded, if params.minTokens ≠ 0 ∧ decoded.numOutputTokens ≤ params.minTokens then
    decoded.outputText.length else state.2)

/-- Detokenize the new tokens, and evaluate the stop criteria. -/
def update (newTokens : List (List Char)) (stopTerminated : Bool) :
    Option (List Char) × Detokenizer :=
  if newTokens = [] then (none, detokenizer)
  else
    -- If stop-terminated, exclude the last token from detokenization.
    let skips := stopTerminated && !params.includeStopStrInOutput
    let shown := if skips then newTokens.dropLast else newTokens
    let (decoded, stopCheckOffset) :=
      shown.foldl (appendToken params) (detokenizer, detokenizer.outputText.length)
    let counted := if skips then { decoded with numOutputTokens := decoded.numOutputTokens + 1 }
      else decoded
    if params.stop ≠ [] ∧ counted.numOutputTokens > params.minTokens then
      match checkStopStrings counted.outputText (counted.outputText.length - stopCheckOffset)
        params.stop params.includeStopStrInOutput with
      | none => (none, counted)
      | some (stopString, truncateTo) =>
        (some stopString, { counted with
          outputText := truncateTo.elim counted.outputText counted.outputText.take })
    else (none, counted)

/-- The number of characters to hold back when stop strings are to be excluded from the streamed
output. -/
def stopBufferLength : Nat :=
  if params.stop ≠ [] ∧ !params.includeStopStrInOutput then
    (params.stop.map List.length).max?.getD 0 - 1
  else 0

/-- The text to return, or only what is new of it. -/
def getNextOutputText (finished delta : Bool) : List Char × Detokenizer :=
  let bufferLength := if finished then 0 else stopBufferLength params
  let length := detokenizer.outputText.length - bufferLength
  if !delta then
    if bufferLength = 0 then (detokenizer.outputText, detokenizer)
    else (detokenizer.outputText.take length, detokenizer)
  else if detokenizer.lastOutputTextOffset < length then
    ((detokenizer.outputText.take length).drop detokenizer.lastOutputTextOffset,
      { detokenizer with lastOutputTextOffset := length })
  else ([], detokenizer)

/-! ### What a call does -/

/-- The offset behind which a call looks for stop strings: only the text that it adds, without that
of the tokens up to the minimum. -/
def searchOffset (tokens : List (List Char)) : Nat :=
  (detokenizer.outputText ++
    (tokens.take (params.minTokens - detokenizer.numOutputTokens)).flatten).length

theorem foldl_appendToken (tokens : List (List Char)) :
    tokens.foldl (appendToken params) (detokenizer, detokenizer.outputText.length) =
      ({ detokenizer with
          numOutputTokens := detokenizer.numOutputTokens + tokens.length
          outputText := detokenizer.outputText ++ tokens.flatten },
        searchOffset params detokenizer tokens) := by
  -- The offset moves with the tokens up to the minimum, and stays behind them.
  induction tokens using reverseRecOn with
  | nil => simp [searchOffset]
  | append_singleton tokens token ih =>
    rw [foldl_append, ih]
    simp only [foldl_cons, foldl_nil, appendToken, searchOffset, length_append, flatten_append,
      flatten_cons, flatten_nil, append_nil, append_assoc, Nat.add_assoc, length_cons, length_nil]
    congr 1
    split
    · next held => rw [take_of_length_le (by simp; omega)]; simp
    · next past => rw [take_append_of_le_length (by omega)]

theorem length_le_searchOffset (tokens : List (List Char)) :
    detokenizer.outputText.length ≤ searchOffset params detokenizer tokens := by
  rw [searchOffset, length_append]
  exact Nat.le_add_right ..

/-- The state behind a search. -/
def searched (count : Nat) (text : List Char) (found : Option (List Char × Nat)) :
    Option (List Char) × Detokenizer :=
  (found.map Prod.fst, { detokenizer with
    numOutputTokens := detokenizer.numOutputTokens + count
    outputText := found.elim text (truncated params.includeStopStrInOutput text) })

/-- A call adds the text of its tokens, possibly without the last one, and searches all of the text
behind its offset. -/
theorem update_eq (nonempty : ∀ stop ∈ params.stop, stop ≠ []) (newTokens : List (List Char))
    (stopTerminated : Bool) :
    let shown := if stopTerminated && !params.includeStopStrInOutput then newTokens.dropLast
      else newTokens
    let text := detokenizer.outputText ++ shown.flatten
    update params detokenizer newTokens stopTerminated =
      searched params detokenizer newTokens.length text
        (firstStop params.stop text (searchOffset params detokenizer shown)) := by
  intro shown text
  have short : shown.length ≤ newTokens.length := by
    unfold shown
    split
    · exact (dropLast_sublist newTokens).length_le
    · rfl
  by_cases empty : newTokens = []
  · have nothing : shown = [] := by simp [shown, empty]
    rw [firstStop_of_length_le nonempty (by simp [text, nothing, searchOffset])]
    simp [update, empty, searched, text, nothing]
  have positive := length_pos_iff.mpr empty
  have counted : (if stopTerminated && !params.includeStopStrInOutput then
        { detokenizer with
          numOutputTokens := detokenizer.numOutputTokens + shown.length + 1, outputText := text }
      else { detokenizer with
          numOutputTokens := detokenizer.numOutputTokens + shown.length, outputText := text }) =
      { detokenizer with
        numOutputTokens := detokenizer.numOutputTokens + newTokens.length, outputText := text } := by
    unfold shown
    split
    · rw [length_dropLast, Nat.add_assoc, Nat.sub_add_cancel positive]
    · rfl
  simp only [update, if_neg empty, foldl_appendToken]
  rw [counted]
  split
  · have same := checkStopStrings_eq text (searchOffset params detokenizer shown) nonempty
      params.includeStopStrInOutput
    split
    · next none =>
      rw [none] at same
      rw [Option.map_eq_none_iff.mp same.symm]
      rfl
    · next stopString truncateTo found =>
      rw [found] at same
      obtain ⟨first, isFirst, agree⟩ := Option.map_eq_some_iff.mp same.symm
      rw [isFirst]
      obtain ⟨rfl, truncates⟩ := Prod.mk.inj agree
      simp only [searched, Option.map_some, Option.elim_some, truncates]
  · next unsearched =>
    by_cases stops : params.stop = []
    · rw [stops]
      rfl
    -- The minimum is not passed: the offset is the end of the text.
    have few : ¬ detokenizer.numOutputTokens + newTokens.length > params.minTokens :=
      not_and.mp unsearched stops
    rw [firstStop_of_length_le nonempty]
    · rfl
    · rw [searchOffset, take_of_length_le (by omega)]

/-! ### The streamed text -/

/-- A call with the tokens of a step, and whether the new text is asked for behind it. -/
structure StreamedCall where
  newTokens : List (List Char)
  stopTerminated : Bool := false
  streamed : Bool := true
deriving DecidableEq, Repr

/-- The text that is returned at the end, and the final text. -/
def lastText : List (List Char) × List Char :=
  let (delta, last) := getNextOutputText params detokenizer true true
  ([delta], last.outputText)

/-- The deltas that are returned up to the first stop string or the end of generation, and the final
text. -/
def streamText (detokenizer : Detokenizer) : List StreamedCall → List (List Char) × List Char
  | [] => lastText params detokenizer
  | call :: calls =>
    match update params detokenizer call.newTokens call.stopTerminated with
    | (some _, stopped) => lastText params stopped
    | (none, updated) =>
      if call.streamed then
        let (delta, next) := getNextOutputText params updated false true
        let (deltas, text) := streamText next calls
        (delta :: deltas, text)
      else streamText updated calls

variable {params detokenizer}

/-- The streamed text stops in front of what is held back. -/
def Held (params : StopParams) (detokenizer : Detokenizer) : Prop :=
  detokenizer.lastOutputTextOffset ≤ detokenizer.outputText.length - stopBufferLength params

theorem length_le_stopBufferLength {stop : List Char} (mem : stop ∈ params.stop)
    (excluded : params.includeStopStrInOutput = false) :
    stop.length ≤ stopBufferLength params + 1 := by
  have bound := le_max?_getD_of_mem (mem_map_of_mem (f := List.length) mem) (k := 0)
  rw [stopBufferLength, if_pos ⟨ne_nil_of_mem mem, by simp [excluded]⟩]
  omega

/-- A truncation leaves what has been streamed. -/
theorem truncated_keeps (nonempty : ∀ stop ∈ params.stop, stop ≠ []) (held : Held params detokenizer)
    (tokens : List (List Char)) {found : List Char × Nat}
    (first : firstStop params.stop (detokenizer.outputText ++ tokens.flatten)
      (searchOffset params detokenizer tokens) = some found) :
    detokenizer.lastOutputTextOffset ≤ (truncated params.includeStopStrInOutput
      (detokenizer.outputText ++ tokens.flatten) found).length := by
  obtain ⟨mem, stands⟩ := firstStop_eq_some first
  have ends := stands.length_le (nonempty _ mem)
  have late := stands.2
  have old := length_le_searchOffset params detokenizer tokens
  rw [Held] at held
  rw [truncated, length_take]
  cases excluded : params.includeStopStrInOutput
  · have buffered := length_le_stopBufferLength mem excluded
    simp only [Bool.false_eq_true, if_false]
    omega
  · simp only [if_true]
    omega

/-- A call leaves what has been streamed, and without a stop string also what is held back. -/
theorem update_keeps (nonempty : ∀ stop ∈ params.stop, stop ≠ []) (held : Held params detokenizer)
    {newTokens : List (List Char)} {stopTerminated : Bool} {stop : Option (List Char)}
    {next : Detokenizer}
    (updated : update params detokenizer newTokens stopTerminated = (stop, next)) :
    next.outputText.take next.lastOutputTextOffset =
        detokenizer.outputText.take detokenizer.lastOutputTextOffset ∧
      (stop = none → Held params next) := by
  rw [update_eq params detokenizer nonempty] at updated
  obtain ⟨rfl, rfl⟩ := Prod.mk.inj updated
  have bound : detokenizer.lastOutputTextOffset ≤ detokenizer.outputText.length := by
    rw [Held] at held
    omega
  rcases first : firstStop _ _ _ with _ | found
  · refine ⟨take_append_of_le_length bound, fun _ => held.trans ?_⟩
    simp only [Option.elim_none, length_append]
    omega
  · refine ⟨?_, fun none => nomatch none⟩
    have kept := truncated_keeps nonempty held _ first
    rw [truncated, length_take] at kept
    simp only [Option.elim_some, truncated, take_take]
    rw [Nat.min_eq_left (kept.trans (Nat.min_le_left ..)), take_append_of_le_length bound]

/-- A delta continues what has been streamed, up to what is held back. -/
theorem getNextOutputText_continues (params : StopParams) (detokenizer : Detokenizer)
    (finished : Bool) :
    let next := getNextOutputText params detokenizer finished true
    next.2.outputText = detokenizer.outputText ∧
      detokenizer.outputText.take detokenizer.lastOutputTextOffset ++ next.1 =
        detokenizer.outputText.take next.2.lastOutputTextOffset ∧
      next.2.lastOutputTextOffset = max detokenizer.lastOutputTextOffset
        (detokenizer.outputText.length - if finished then 0 else stopBufferLength params) := by
  intro next
  unfold next getNextOutputText
  simp only [Bool.not_true, Bool.false_eq_true, if_false]
  generalize (detokenizer.outputText.length - if finished then _ else _) = length
  by_cases new : detokenizer.lastOutputTextOffset < length
  · simp only [if_pos new, drop_take, ← take_add, Nat.add_sub_cancel' new.le, true_and]
    exact (Nat.max_eq_right new.le).symm
  · simp only [if_neg new, append_nil, true_and]
    exact (Nat.max_eq_left (Nat.not_lt.mp new)).symm

theorem lastText_flatten :
    detokenizer.outputText.take detokenizer.lastOutputTextOffset ++
        (lastText params detokenizer).1.flatten = (lastText params detokenizer).2 := by
  obtain ⟨same, continues, offset⟩ := getNextOutputText_continues params detokenizer true
  simp only [lastText, flatten_cons, flatten_nil, append_nil, continues, same, offset]
  exact take_of_length_le (Nat.le_max_right ..)

theorem streamText_from (nonempty : ∀ stop ∈ params.stop, stop ≠ []) (calls : List StreamedCall)
    (held : Held params detokenizer) :
    detokenizer.outputText.take detokenizer.lastOutputTextOffset ++
      (streamText params detokenizer calls).1.flatten = (streamText params detokenizer calls).2 := by
  induction calls generalizing detokenizer with
  | nil => exact lastText_flatten
  | cons call calls ih =>
    unfold streamText
    split
    · next stop stopped updated =>
      rw [← (update_keeps nonempty held updated).1]
      exact lastText_flatten
    · next next updated =>
      obtain ⟨same, heldNext⟩ := update_keeps nonempty held updated
      rw [← same]
      split
      · obtain ⟨text, continues, offset⟩ := getNextOutputText_continues params next false
        have heldRest : Held params (getNextOutputText params next false true).2 := by
          rw [Held, text, offset]
          exact Nat.max_le.mpr ⟨heldNext rfl, le_refl _⟩
        have rest := ih heldRest
        rw [text, ← continues, append_assoc] at rest
        exact rest
      · exact ih (heldNext rfl)

/-- The deltas of a request make up its final text: what is streamed is never taken back by a stop
string, and everything else is returned at the end. -/
theorem streamText_flatten (params : StopParams) (nonempty : ∀ stop ∈ params.stop, stop ≠ [])
    (calls : List StreamedCall) :
    (streamText params {} calls).1.flatten = (streamText params {} calls).2 := by
  have held : Held params {} := Nat.zero_le _
  simpa using streamText_from nonempty calls held

theorem streamText_flatten_heldBack :
    streamText { stop := [['b', 'c']] } {} [⟨[['a', 'b']], false, true⟩, ⟨[['c']], false, true⟩] =
        ([['a'], []], ['a']) ∧
      (streamText { stop := [['b', 'c']] } {}
        [⟨[['a', 'b']], false, true⟩, ⟨[['c']], false, true⟩]).1.flatten = ['a'] := by
  refine ⟨by decide, ?_⟩
  rw [streamText_flatten _ (by decide)]
  decide

end Detokenizer

end TokenCake
