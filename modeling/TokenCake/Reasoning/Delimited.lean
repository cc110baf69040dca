import Mathlib.Data.List.Infix

/-!
# Delimited reasoning

A parser splits decoded text into reasoning and content at two delimiters.  Text that may be
the beginning of a delimiter is held back.  If no beginning of a delimiter is the end of one,
the split does not depend on how the text is cut into chunks.
-/

namespace TokenCake

open List

/-- A parsed delta, split into reasoning and visible content. -/
structure ReasoningDelta where
  reasoning : Option (List Char) := none
  content : Option (List Char) := none
deriving DecidableEq

variable (delta : ReasoningDelta)

variable (inReasoning : Bool)

namespace ReasoningDelta

/-- Append text to a portion, and create it on first use. -/
def appendText (portion : Option (List Char)) (text : List Char) : Option (List Char) :=
  if text = [] then portion else some (portion.getD [] ++ text)

/-- Add reasoning text. -/
def pushReasoning (delta : ReasoningDelta) (text : List Char) : ReasoningDelta :=
  { delta with reasoning := appendText delta.reasoning text }

/-- Add content text. -/
def pushContent (delta : ReasoningDelta) (text : List Char) : ReasoningDelta :=
  { delta with content := appendText delta.content text }

/-- The portion of a mode grows by a text. -/
def push (inReasoning : Bool) (delta : ReasoningDelta) (text : List Char) : ReasoningDelta :=
  if inReasoning then delta.pushReasoning text else delta.pushContent text

/-- The texts of a delta. -/
def texts (delta : ReasoningDelta) : List Char × List Char :=
  (delta.reasoning.getD [], delta.content.getD [])

theorem push_nil : delta.push inReasoning [] = delta := by
  cases inReasoning <;> rfl

theorem push_append (front back : List Char) :
    delta.push inReasoning (front ++ back) =
      (delta.push inReasoning front).push inReasoning back := by
  have portion (old : Option (List Char)) :
      appendText old (front ++ back) = appendText (appendText old front) back := by
    unfold appendText
    by_cases frontEmpty : front = [] <;> by_cases backEmpty : back = [] <;>
      simp [frontEmpty, backEmpty]
  cases inReasoning with
  | false => simp [push, pushContent, portion]
  | true => simp [push, pushReasoning, portion]

theorem texts_push (inReasoning : Bool) (delta : ReasoningDelta) (text : List Char) :
    (delta.push inReasoning text).texts = (delta.texts.1 ++ bif inReasoning then text else [],
        delta.texts.2 ++ bif inReasoning then [] else text) := by
  have portion (old : Option (List Char)) :
      (appendText old text).getD [] = old.getD [] ++ text := by
    unfold appendText
    split <;> simp [*]
  cases inReasoning <;> simp [push, pushReasoning, pushContent, texts, portion]

end ReasoningDelta

/-- The texts before and behind the first occurrence of a pattern. -/
def findFirst (pattern : List Char) : List Char → Option (List Char × List Char)
  | [] => if pattern = [] then some ([], []) else none
  | char :: rest =>
    if pattern <+: char :: rest then some ([], (char :: rest).drop pattern.length)
    else (findFirst pattern rest).map fun parts => (char :: parts.1, parts.2)

theorem length_findFirst_add {pattern text before behind : List Char}
    (found : findFirst pattern text = some (before, behind)) :
    behind.length + pattern.length ≤ text.length := by
  induction text generalizing before with
  | nil =>
    unfold findFirst at found
    split at found
    · next empty =>
      cases found
      rw [empty, length_nil]
    · cases found
  | cons char rest ih =>
    unfold findFirst at found
    split at found
    · next here =>
      cases found
      rw [length_drop, Nat.sub_add_cancel here.length_le]
    · obtain ⟨⟨front, back⟩, isRest, same⟩ := Option.map_eq_some_iff.mp found
      cases same
      exact (ih isRest).trans (Nat.le_succ _)

/-- The delimiters of a family of models. -/
structure Delimiters where
  startToken : List Char
  endToken : List Char
  startToken_ne : startToken ≠ []
  endToken_ne : endToken ≠ []

/-- The state of a parser between two chunks. -/
structure DelimitedReasoningParser where
  currentInReasoning : Bool
  buffer : List Char := []
deriving DecidableEq

namespace Delimiters

variable (delimiters : Delimiters)

/-- The delimiter that ends a mode. -/
def closing (inReasoning : Bool) : List Char :=
  if inReasoning then delimiters.endToken else delimiters.startToken

theorem closing_ne (inReasoning : Bool) : delimiters.closing inReasoning ≠ [] := by
  cases inReasoning with
  | false => exact delimiters.startToken_ne
  | true => exact delimiters.endToken_ne

/-- Parse text that does not end in a part of a delimiter. -/
def parseStableText (inReasoning : Bool) (delta : ReasoningDelta) (stable : List Char) :
    ReasoningDelta × Bool :=
  if stable = [] then (delta, inReasoning)
  else
    match _ : findFirst (delimiters.closing inReasoning) stable with
    | some (before, behind) => parseStableText (!inReasoning) (delta.push inReasoning before) behind
    | none => (delta.push inReasoning stable, inReasoning)
termination_by stable.length
decreasing_by
  have shorter := length_findFirst_add ‹findFirst _ _ = some _›
  have positive := length_pos_iff.mpr (delimiters.closing_ne inReasoning)
  omega

/-- The beginning of a delimiter, which is not all of it. -/
def IsPartial (text : List Char) : Prop :=
  ∃ inReasoning, text <+: delimiters.closing inReasoning ∧ text ≠ delimiters.closing inReasoning

instance : DecidablePred delimiters.IsPartial :=
  fun _ => inferInstanceAs (Decidable (∃ _ : Bool, _ ∧ _))

/-- The length of the longest suffix that may still complete a delimiter.  The loop over the
suffixes keeps the longest one, which comes first here. -/
def partialSuffixLen : List Char → Nat
  | [] => 0
  | char :: rest =>
    if delimiters.IsPartial (char :: rest) then (char :: rest).length else partialSuffixLen rest

/-- Parse a delta, except for an end that may still complete a delimiter. -/
def push (parser : DelimitedReasoningParser) (delta : List Char) :
    ReasoningDelta × DelimitedReasoningParser :=
  let buffer := parser.buffer ++ delta
  let stableLen := buffer.length - delimiters.partialSuffixLen buffer
  let (parsed, inReasoning) :=
    delimiters.parseStableText parser.currentInReasoning {} (buffer.take stableLen)
  (parsed, { currentInReasoning := inReasoning, buffer := buffer.drop stableLen })

/-- Parse the text that is held back at the end of the stream. -/
def finish (parser : DelimitedReasoningParser) : ReasoningDelta × DelimitedReasoningParser :=
  let (parsed, inReasoning) :=
    delimiters.parseStableText parser.currentInReasoning {} parser.buffer
  (parsed, { currentInReasoning := inReasoning })

/-- The reasoning and the content of a stream of chunks. -/
def parseChunks (parser : DelimitedReasoningParser) : List (List Char) → List Char × List Char
  | [] => (delimiters.finish parser).1.texts
  | chunk :: chunks =>
    let (delta, next) := delimiters.push parser chunk
    let (reasoning, content) := parseChunks next chunks
    (delta.texts.1 ++ reasoning, delta.texts.2 ++ content)

/-- No beginning of a delimiter is the end of one. -/
def NoOverlap : Prop :=
  ∀ opening closing part, part ≠ [] → part <+: delimiters.closing opening →
    part ≠ delimiters.closing opening → ¬ part <:+ delimiters.closing closing

variable {delimiters} {inReasoning : Bool} {front back stable pending : List Char}

theorem parseStableText_eq (inReasoning : Bool) (delta : ReasoningDelta) (stable : List Char) :
    delimiters.parseStableText inReasoning delta stable =
      (findFirst (delimiters.closing inReasoning) stable).elim
        (delta.push inReasoning stable, inReasoning) fun parts =>
          delimiters.parseStableText (!inReasoning) (delta.push inReasoning parts.1) parts.2 := by
  rw [parseStableText]
  split
  · next empty =>
    rw [empty, findFirst, if_neg (delimiters.closing_ne inReasoning), ReasoningDelta.push_nil]
    rfl
  · split <;> next found => rw [found]; rfl

/-- A delimiter in front ends the mode. -/
theorem parseStableText_closing (behind : List Char) :
    delimiters.parseStableText inReasoning delta (delimiters.closing inReasoning ++ behind) =
      delimiters.parseStableText (!inReasoning) delta behind := by
  obtain ⟨char, rest, isToken⟩ := exists_cons_of_ne_nil (delimiters.closing_ne inReasoning)
  have here : findFirst (delimiters.closing inReasoning)
      (delimiters.closing inReasoning ++ behind) = some ([], behind) := by
    rw [isToken, cons_append, findFirst, ← cons_append, if_pos (prefix_append ..), drop_left]
  rw [parseStableText_eq, here, Option.elim_some, ReasoningDelta.push_nil]

/-- Without a delimiter in front, the first character belongs to the mode. -/
theorem parseStableText_cons (away : ¬ delimiters.closing inReasoning <+: char :: rest) :
    delimiters.parseStableText inReasoning delta (char :: rest) =
      delimiters.parseStableText inReasoning (delta.push inReasoning [char]) rest := by
  rw [parseStableText_eq, parseStableText_eq _ _ rest, findFirst, if_neg away]
  cases findFirst (delimiters.closing inReasoning) rest with
  | none =>
    rw [Option.map_none, Option.elim_none, Option.elim_none, ← ReasoningDelta.push_append]
    rfl
  | some parts =>
    rw [Option.map_some, Option.elim_some, Option.elim_some, ← ReasoningDelta.push_append]
    rfl

/-- Text may be parsed in two parts, if every delimiter that begins in the first one ends
there. -/
theorem parseStableText_append (inReasoning : Bool)
    (apart : ∀ inReasoning part, part ≠ [] → part <:+ front →
      delimiters.closing inReasoning <+: part ++ back → delimiters.closing inReasoning <+: part) :
    delimiters.parseStableText inReasoning delta (front ++ back) =
      delimiters.parseStableText (delimiters.parseStableText inReasoning delta front).2
        (delimiters.parseStableText inReasoning delta front).1 back := by
  induction length : front.length using Nat.strong_induction_on
    generalizing front inReasoning delta with
  | h _ ih =>
    cases front with
    | nil =>
      rw [nil_append, parseStableText.eq_def _ _ _ [], if_pos rfl]
    | cons char rest =>
      have shorter := fun part (suffix : part <:+ char :: rest) inReasoning delta less =>
        ih part.length (length ▸ less) inReasoning delta (fun inReasoning held nonempty inside =>
          apart inReasoning held nonempty (inside.trans suffix)) rfl
      by_cases here : delimiters.closing inReasoning <+: char :: rest
      · obtain ⟨behind, whole⟩ := here
        have positive := length_pos_iff.mpr (delimiters.closing_ne inReasoning)
        rw [← whole, append_assoc, parseStableText_closing, parseStableText_closing]
        refine shorter behind (whole ▸ suffix_append ..) _ _ ?_
        rw [← whole, length_append]
        omega
      · have away : ¬ delimiters.closing inReasoning <+: char :: (rest ++ back) := fun begins =>
          here (apart inReasoning _ (cons_ne_nil _ _) suffix_rfl begins)
        rw [cons_append, parseStableText_cons _ away, parseStableText_cons _ here]
        exact shorter rest (suffix_cons ..) _ _ (Nat.lt_succ_self _)

/-- What a text adds to a delta, and the mode behind it, do not depend on the delta. -/
theorem texts_parseStableText (inReasoning : Bool) (delta : ReasoningDelta) (stable : List Char) :
    let alone := delimiters.parseStableText inReasoning {} stable
    let parsed := delimiters.parseStableText inReasoning delta stable
    parsed.1.texts = (delta.texts.1 ++ alone.1.texts.1, delta.texts.2 ++ alone.1.texts.2) := by
  induction length : stable.length using Nat.strong_induction_on
    generalizing inReasoning delta stable with
  | h count ih =>
    dsimp only
    rw [parseStableText_eq, parseStableText_eq _ {}]
    cases found : findFirst (delimiters.closing inReasoning) stable with
    | none =>
      rw [Option.elim_none, Option.elim_none, ReasoningDelta.texts_push, ReasoningDelta.texts_push]
      rfl
    | some parts =>
      have less := length_findFirst_add found
      have positive := length_pos_iff.mpr (delimiters.closing_ne inReasoning)
      have shorter := fun delta =>
        ih parts.2.length (by omega) (!inReasoning) delta parts.2 rfl
      rw [Option.elim_some, Option.elim_some, shorter, shorter (ReasoningDelta.push _ {} _),
        ReasoningDelta.texts_push, ReasoningDelta.texts_push, append_assoc, append_assoc]
      rfl

/-- The held-back text is the beginning of a delimiter, and no longer suffix is one. -/
theorem partialSuffixLen_spec (text : List Char) :
    ∃ stable pending, text = stable ++ pending ∧ pending.length = delimiters.partialSuffixLen text ∧
      (pending ≠ [] → delimiters.IsPartial pending) ∧
      ∀ held, held ≠ [] → held <:+ stable → ¬ delimiters.IsPartial (held ++ pending) := by
  induction text with
  | nil =>
    refine ⟨[], [], rfl, rfl, fun nonempty => absurd rfl nonempty, fun held nonempty suffix => ?_⟩
    exact absurd (suffix_nil.mp suffix) nonempty
  | cons char rest ih =>
    unfold partialSuffixLen
    split
    · next isPartial =>
      refine ⟨[], char :: rest, rfl, rfl, fun _ => isPartial, fun held nonempty suffix => ?_⟩
      exact absurd (suffix_nil.mp suffix) nonempty
    · next complete =>
      obtain ⟨stable, pending, rfl, length, isPartial, longest⟩ := ih
      refine ⟨char :: stable, pending, rfl, length, isPartial, fun held nonempty suffix => ?_⟩
      rcases suffix_cons_iff.mp suffix with rfl | suffix
      · exact complete
      · exact longest held nonempty suffix

/-- A delimiter that begins before the held-back text ends there. -/
theorem NoOverlap.apart (noOverlap : delimiters.NoOverlap)
    (isPartial : pending ≠ [] → delimiters.IsPartial pending)
    (longest : ¬ delimiters.IsPartial (part ++ pending))
    (begins : delimiters.closing inReasoning <+: part ++ (pending ++ rest)) :
    delimiters.closing inReasoning <+: part := by
  by_contra away
  have meets := prefix_or_prefix_of_prefix begins (prefix_append ..)
  obtain ⟨right, isToken⟩ := meets.resolve_left away
  have rightNe : right ≠ [] := by
    rintro rfl
    exact away (by rw [← isToken, append_nil])
  rw [← isToken, prefix_append_right_inj] at begins
  by_cases inside : right <+: pending
  · -- The delimiter ends inside the beginning of another one.
    obtain ⟨opening, isPrefix, proper⟩ := isPartial fun empty => rightNe
      (prefix_nil.mp (empty ▸ inside))
    refine noOverlap opening inReasoning right rightNe (inside.trans isPrefix) ?_ ⟨part, isToken⟩
    rintro rfl
    exact proper (isPrefix.eq_of_length_le inside.length_le)
  · -- The delimiter goes on behind the text that is held back.
    have meets := prefix_or_prefix_of_prefix begins (prefix_append ..)
    obtain ⟨more, rfl⟩ := meets.resolve_left inside
    refine longest ⟨inReasoning, ⟨more, by rw [append_assoc, isToken]⟩, fun whole => ?_⟩
    rw [← isToken, append_cancel_left_eq] at whole
    exact inside (whole ▸ prefix_rfl)

theorem parseChunks_eq (noOverlap : delimiters.NoOverlap) (parser : DelimitedReasoningParser)
    (chunks : List (List Char)) : delimiters.parseChunks parser chunks =
      (delimiters.parseStableText parser.currentInReasoning {}
        (parser.buffer ++ chunks.flatten)).1.texts := by
  induction chunks generalizing parser with
  | nil => rw [flatten_nil, append_nil]; rfl
  | cons chunk chunks ih =>
    obtain ⟨stable, pending, isBuffer, length, isPartial, longest⟩ :=
      delimiters.partialSuffixLen_spec (parser.buffer ++ chunk)
    have cut : (parser.buffer ++ chunk).length -
        delimiters.partialSuffixLen (parser.buffer ++ chunk) = stable.length := by
      rw [← length, isBuffer, length_append, Nat.add_sub_cancel]
    rw [parseChunks, push, cut, isBuffer, take_left, drop_left, flatten_cons, ← append_assoc,
      isBuffer, append_assoc, parseStableText_append _ _ fun mode part nonempty inside =>
        noOverlap.apart isPartial (longest part nonempty inside)]
    dsimp only
    rw [ih]
    exact (texts_parseStableText ..).symm

/-- The reasoning and the content of a text do not depend on the chunks it comes in. -/
theorem parseChunks_flatten (noOverlap : delimiters.NoOverlap) (inReasoning : Bool)
    (chunks : List (List Char)) : delimiters.parseChunks ⟨inReasoning, []⟩ chunks =
      delimiters.parseChunks ⟨inReasoning, []⟩ [chunks.flatten] := by
  rw [parseChunks_eq noOverlap, parseChunks_eq noOverlap, flatten_singleton]

/-- The delimiters that most families of models use. -/
def think : Delimiters :=
  ⟨"<think>".toList, "</think>".toList, by decide, by decide⟩

/-- A delimiter that comes in two chunks. -/
theorem think_in_two_chunks : think.NoOverlap ∧
    think.parseChunks ⟨true, []⟩ ["a</th".toList, "ink>b".toList] =
      think.parseChunks ⟨true, []⟩ ["a</think>b".toList] := by
  have checked : ∀ opening closing, ∀ part ∈ (think.closing opening).inits, part ≠ [] →
      part ≠ think.closing opening → ¬ part <:+ think.closing closing := by
    decide +kernel
  have noOverlap : think.NoOverlap := fun opening closing part nonempty begins =>
    checked opening closing part ((mem_inits ..).mpr begins) nonempty
  exact ⟨noOverlap, parseChunks_flatten noOverlap true ["a</th".toList, "ink>b".toList]⟩

end Delimiters

end TokenCake
