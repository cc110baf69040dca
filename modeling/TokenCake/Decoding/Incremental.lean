import TokenCake.Decoding.Stream

/-!
# Incremental decoding with byte-level tokenizers

Bytes are decoded one after the other.  Bytes that cannot begin or continue a character are
replaced: each byte that begins none, and each beginning of a character that does not go on.

Every token stands for some bytes, and a sequence of tokens is decoded as the sequence of
their bytes.  The text of a stream is compared with the text of all its bytes at once: the
generated ones, behind those at the end of the prompt that form an incomplete character.
-/

namespace TokenCake

open List hiding tail

namespace Lossy

/-- Number of bytes of a character with a first byte; zero if no character begins so. -/
def sequenceLength (byte : UInt8) : Nat :=
  if byte.toNat < 0x80 then 1
  else if byte.toNat < 0xC2 then 0
  else if byte.toNat < 0xE0 then 2
  else if byte.toNat < 0xF0 then 3
  else if byte.toNat < 0xF5 then 4
  else 0

/-- Whether a byte may follow the first byte of a character: encodings are the shortest ones,
of code points that are no surrogates and not too large. -/
def isSecondByte (first byte : UInt8) : Bool :=
  let least := if first.toNat = 0xE0 then 0xA0 else if first.toNat = 0xF0 then 0x90 else 0x80
  let greatest := if first.toNat = 0xED then 0x9F else if first.toNat = 0xF4 then 0x8F else 0xBF
  decide (least ≤ byte.toNat) && decide (byte.toNat ≤ greatest)

/-- Whether a byte may follow the beginning of a character. -/
def continues : List UInt8 → UInt8 → Bool
  | [], _ => false
  | [first], byte => isSecondByte first byte
  | _ :: _ :: _, byte => decide (0x80 ≤ byte.toNat) && decide (byte.toNat ≤ 0xBF)

/-- The character of a complete sequence of bytes. -/
def assemble : List UInt8 → Char
  | [] => replacementChar
  | first :: rest =>
    let payload :=
      match rest.length with
      | 0 => first.toNat
      | 1 => first.toNat % 0x20
      | 2 => first.toNat % 0x10
      | _ => first.toNat % 0x08
    Char.ofNat (rest.foldl (fun code byte => code * 0x40 + byte.toNat % 0x40) payload)

/-- Read a byte that does not continue a character. -/
def begin (byte : UInt8) : List Char × List UInt8 :=
  match sequenceLength byte with
  | 0 => ([replacementChar], [])
  | 1 => ([assemble [byte]], [])
  | _ => ([], [byte])

/-- Read a byte behind the beginning of a character. -/
def step (pending : List UInt8) (byte : UInt8) : List Char × List UInt8 :=
  match pending with
  | [] => begin byte
  | first :: rest =>
    if continues (first :: rest) byte then
      if (first :: rest).length + 1 = sequenceLength first then
        ([assemble ((first :: rest) ++ [byte])], [])
      else ([], (first :: rest) ++ [byte])
    else (replacementChar :: (begin byte).1, (begin byte).2)

/-- The decoder; its state is the beginning of a character. -/
def decoder : Transducer (List UInt8) UInt8 Char where
  start := []
  step := step
  finish pending := if pending.isEmpty then [] else [replacementChar]

/-- The text of a sequence of bytes. -/
def decode (bytes : List UInt8) : Utf8Text := decoder.transduce bytes

/-- The bytes at the end that form an incomplete character. -/
def incomplete (bytes : List UInt8) : List UInt8 := (decoder.feed [] bytes).2

/-- The text of the bytes in front of them. -/
def complete (bytes : List UInt8) : Utf8Text := (decoder.feed [] bytes).1

variable {pending bytes more : List UInt8} {byte : UInt8}

theorem begin_cases (byte : UInt8) :
    (begin byte).1 ≠ [] ∧ (begin byte).2 = [] ∨ begin byte = ([], [byte]) := by
  unfold begin
  split
  · exact .inl ⟨by simp, rfl⟩
  · exact .inl ⟨by simp, rfl⟩
  · exact .inr rfl

/-- A byte is kept, or it ends what was pending and is at most kept alone. -/
theorem step_cases (pending : List UInt8) (byte : UInt8) :
    step pending byte = ([], pending ++ [byte]) ∨ (step pending byte).1 ≠ [] ∧
        ((step pending byte).2 = [] ∨
          (step pending byte).2 = [byte] ∧ step [] byte = ([], [byte])) := by
  have fresh := begin_cases byte
  cases pending with
  | nil =>
    rcases fresh with ⟨written, nothing⟩ | kept
    · exact .inr ⟨written, .inl nothing⟩
    · exact .inl kept
  | cons first rest =>
    unfold step
    dsimp only
    split
    · split
      · exact .inr ⟨by simp, .inl rfl⟩
      · exact .inl rfl
    · rcases fresh with ⟨-, nothing⟩ | kept
      · exact .inr ⟨by simp, .inl nothing⟩
      · exact .inr ⟨by simp, .inr ⟨by rw [kept], kept⟩⟩

/-- Pending bytes are the end of what was read, and reading them alone leaves them pending. -/
theorem feed_spec (bytes : List UInt8) :
    incomplete bytes <:+ bytes ∧ decoder.feed [] (incomplete bytes) = ([], incomplete bytes) ∧
      (complete bytes = [] → incomplete bytes = bytes) := by
  induction bytes using reverseRecOn with
  | nil => exact ⟨suffix_rfl, rfl, fun _ => rfl⟩
  | append_singleton bytes byte ih =>
    obtain ⟨isSuffix, alone, nothing⟩ := ih
    have last : incomplete (bytes ++ [byte]) = (step (incomplete bytes) byte).2 := by
      unfold incomplete
      rw [decoder.feed_append, decoder.feed_singleton]
      rfl
    have written : complete (bytes ++ [byte]) =
        complete bytes ++ (step (incomplete bytes) byte).1 := by
      unfold complete incomplete
      rw [decoder.feed_append, decoder.feed_singleton]
      rfl
    rw [last, written]
    rcases step_cases (incomplete bytes) byte with kept | ⟨some, none | ⟨kept, fresh⟩⟩
    · rw [kept]
      refine ⟨?_, ?_, fun silent => ?_⟩
      · obtain ⟨front, same⟩ := isSuffix
        exact ⟨front, by rw [← append_assoc, same]⟩
      · rw [decoder.feed_append, decoder.feed_singleton, alone]
        change ([] ++ (step (incomplete bytes) byte).1, (step (incomplete bytes) byte).2) = _
        rw [kept]
        rfl
      · rw [nothing (append_eq_nil_iff.mp silent).1]
    · rw [none]
      exact ⟨nil_suffix, rfl, fun silent => absurd (append_eq_nil_iff.mp silent).2 some⟩
    · rw [kept]
      refine ⟨suffix_append _ _, ?_, fun silent => absurd (append_eq_nil_iff.mp silent).2 some⟩
      rw [decoder.feed_singleton]
      exact fresh

theorem decode_eq (bytes : List UInt8) :
    decode bytes =
      complete bytes ++ if (incomplete bytes).isEmpty then [] else [replacementChar] := rfl

/-- Behind the complete characters, decoding goes on from the incomplete one. -/
theorem decode_append (bytes more : List UInt8) :
    decode (bytes ++ more) = complete bytes ++ decode (incomplete bytes ++ more) := by
  unfold decode
  rw [decoder.transduce_append bytes, decoder.transduce_append (incomplete bytes)]
  have alone : decoder.feed decoder.start (incomplete bytes) = ([], incomplete bytes) :=
    (feed_spec bytes).2.1
  rw [alone]
  rfl

/-- Complete characters are independent of what follows. -/
theorem decode_append_of_incomplete_eq_nil (ended : incomplete bytes = [])
    (more : List UInt8) : decode (bytes ++ more) = decode bytes ++ decode more := by
  rw [decode_append, decode_eq bytes, ended]
  simp

theorem decode_ne_nil (nonempty : bytes ≠ []) : decode bytes ≠ [] := by
  intro nothing
  rw [decode_eq, append_eq_nil_iff] at nothing
  have kept := (feed_spec bytes).2.2 nothing.1
  rw [kept] at nothing
  obtain ⟨first, rest, rfl⟩ := exists_cons_of_ne_nil nonempty
  simp at nothing

/-- A text that ends otherwise than in a replacement is complete. -/
theorem incomplete_eq_nil_of_not_endsWithReplacement
    (ended : (decode bytes).endsWithReplacement = false) : incomplete bytes = [] := by
  by_contra pending
  rw [decode_eq, if_neg (by simpa using pending)] at ended
  simp [Utf8Text.endsWithReplacement] at ended

/-- A byte that is read without a replacement continues no character. -/
theorem continues_eq_false_of_begin (clean : replacementChar ∉ (begin byte).1)
    (pending : List UInt8) : continues pending byte = false := by
  have length : sequenceLength byte ≠ 0 := by
    intro none
    unfold begin at clean
    simp [none] at clean
  have outside : byte.toNat < 0x80 ∨ 0xC2 ≤ byte.toNat := by
    unfold sequenceLength at length
    split at length
    · exact .inl ‹_›
    · split at length
      · exact absurd rfl length
      · exact .inr (by omega)
  rcases pending with _ | ⟨first, _ | ⟨second, rest⟩⟩
  · rfl
  · unfold continues isSecondByte
    have least : 0x80 ≤ if first.toNat = 0xE0 then 0xA0
        else if first.toNat = 0xF0 then 0x90 else 0x80 := by
      split
      · omega
      · split <;> omega
    have greatest : (if first.toNat = 0xED then 0x9F
        else if first.toNat = 0xF4 then 0x8F else 0xBF) ≤ 0xBF := by
      split
      · omega
      · split <;> omega
    simp only [Bool.and_eq_false_iff, decide_eq_false_iff_not]
    omega
  · unfold continues
    simp only [Bool.and_eq_false_iff, decide_eq_false_iff_not]
    omega

/-- A byte that is read without a replacement resets the decoder. -/
theorem resets_of_begin (clean : replacementChar ∉ (begin byte).1)
    (pending : List UInt8) : decoder.Resets pending byte := by
  cases pending with
  | nil => rfl
  | cons first rest =>
    change step (first :: rest) byte = _
    unfold step
    dsimp only
    rw [continues_eq_false_of_begin clean]
    rfl

/-- Bytes that are decoded without a replacement are decoded alike behind any others, and
completely. -/
theorem decode_append_of_clean (nonempty : more ≠ [])
    (clean : replacementChar ∉ decode more) (bytes : List UInt8) :
    decode (bytes ++ more) = decode bytes ++ decode more ∧ incomplete more = [] := by
  have ended : incomplete more = [] := by
    apply incomplete_eq_nil_of_not_endsWithReplacement
    unfold Utf8Text.endsWithReplacement
    rw [decide_eq_false_iff_not]
    exact fun last => clean (mem_of_getLast? last)
  refine ⟨?_, ended⟩
  obtain ⟨byte, rest, rfl⟩ := exists_cons_of_ne_nil nonempty
  have cleanByte : replacementChar ∉ (begin byte).1 := by
    intro mem
    apply clean
    rw [decode_eq]
    refine mem_append_left _ ?_
    unfold complete
    rw [decoder.feed_cons]
    exact mem_append_left _ mem
  have resets := resets_of_begin cleanByte (incomplete bytes)
  unfold decode
  rw [decoder.transduce_append]
  change _ ++ ((decoder.feed (incomplete bytes) (byte :: rest)).1 ++
    decoder.finish (decoder.feed (incomplete bytes) (byte :: rest)).2) = _
  rw [decoder.feed_of_resets resets]
  unfold Transducer.transduce
  simp only [append_assoc]
  rfl

end Lossy

open Utf8 Lossy Utf8Text

/-- A tokenizer whose tokens stand for bytes. -/
structure ByteTokenizer where
  bytes : TokenId → List UInt8
  nonempty : ∀ tokenId, bytes tokenId ≠ []

namespace ByteTokenizer

section

variable (tokenizer : ByteTokenizer)

/-- The bytes of a sequence of tokens. -/
def bytesOf (ids : List TokenId) : List UInt8 :=
  ids.flatMap tokenizer.bytes

/-- The text of some tokens, decoded as a whole. -/
def textOf (ids : List TokenId) : Utf8Text :=
  Lossy.decode (tokenizer.bytesOf ids)

/-- The decoder of a tokenizer, which accepts all tokens. -/
def decoder : TokenDecoder := fun ids => some (tokenizer.textOf ids)

/-- Push tokens one after the other. -/
def pushTokens (stream : DecodeStream) (ids : List TokenId) : Except DecodeError DecodeStream :=
  ids.foldlM (fun stream tokenId => do
    return (← stream.pushToken tokenizer.decoder tokenId).2) stream

/-- The whole text of a stream of generated tokens behind a prompt. -/
def streamText (minBytesToBuffer : Nat)
    (prompt generated : List TokenId) : Except DecodeError Utf8Text := do
  let stream ← tokenizer.pushTokens (.new prompt minBytesToBuffer) generated
  let ((_, text), _) ← stream.flush tokenizer.decoder none
  return text

end

variable {tokenizer : ByteTokenizer} {front tail ids : List TokenId}

@[simp] theorem bytesOf_nil : tokenizer.bytesOf [] = [] := rfl

@[simp] theorem bytesOf_append (first second : List TokenId) :
    tokenizer.bytesOf (first ++ second) = tokenizer.bytesOf first ++ tokenizer.bytesOf second :=
  flatMap_append

@[simp] theorem bytesOf_singleton (tokenId : TokenId) :
    tokenizer.bytesOf [tokenId] = tokenizer.bytes tokenId :=
  flatMap_singleton ..

theorem bytesOf_eq_nil_iff : tokenizer.bytesOf ids = [] ↔ ids = [] := by
  cases ids with
  | nil => simp
  | cons first rest => simp [bytesOf, tokenizer.nonempty first]

theorem textOf_ne_nil (nonempty : ids ≠ []) : tokenizer.textOf ids ≠ [] :=
  decode_ne_nil (mt bytesOf_eq_nil_iff.mp nonempty)

theorem textOf_nil : tokenizer.textOf [] = [] := rfl

theorem run_decoder (ids : List TokenId) :
    tokenizer.decoder.run ids = .ok (tokenizer.textOf ids) := rfl

/-- Behind complete characters, the text of more tokens is appended. -/
theorem textOf_append (complete : Lossy.incomplete (tokenizer.bytesOf front) = [])
    (tail : List TokenId) :
    tokenizer.textOf (front ++ tail) = tokenizer.textOf front ++ tokenizer.textOf tail := by
  unfold textOf
  rw [bytesOf_append, decode_append_of_incomplete_eq_nil complete]

/-- Tokens whose text is clean are complete, and the text behind others ends cleanly. -/
theorem complete_of_clean (front : List TokenId)
    (nonempty : tail ≠ []) (clean : replacementChar ∉ tokenizer.textOf tail) :
    Lossy.incomplete (tokenizer.bytesOf tail) = [] ∧
      (tokenizer.textOf (front ++ tail)).endsWithReplacement = false := by
  have bytes : tokenizer.bytesOf tail ≠ [] := mt bytesOf_eq_nil_iff.mp nonempty
  obtain ⟨appended, complete⟩ :=
    decode_append_of_clean bytes clean (tokenizer.bytesOf front)
  refine ⟨complete, ?_⟩
  have text : tokenizer.textOf (front ++ tail) =
      tokenizer.textOf front ++ tokenizer.textOf tail := by
    unfold textOf
    rw [bytesOf_append, appended]
  rw [text, endsWithReplacement_append (textOf_ne_nil nonempty)]
  unfold endsWithReplacement
  rw [decide_eq_false_iff_not]
  exact fun last => clean (mem_of_getLast? last)

end ByteTokenizer

namespace DecodeStream

variable {tokenizer : ByteTokenizer} {stream : DecodeStream}

/-- The front part of a window is seeded from tokens. -/
def seededFrom (tokenizer : ByteTokenizer) (stream : DecodeStream) (ids : List TokenId) :
    DecodeStream :=
  { stream with prefixText := tokenizer.textOf ids, ids := ids, prefixIndex := ids.length }

/-- A search among suffixes finds none, or a clean one. -/
theorem seedSuffix_cases (tokenizer : ByteTokenizer) (stream : DecodeStream) (lengths : List Nat) :
    seedSuffix tokenizer.decoder stream lengths = .ok none ∨ ∃ suffixLen ∈ lengths,
        replacementChar ∉ tokenizer.textOf (stream.ids.drop (stream.ids.length - suffixLen)) ∧
          seedSuffix tokenizer.decoder stream lengths = .ok (some (seededFrom tokenizer stream
              (stream.ids.drop (stream.ids.length - suffixLen)))) := by
  induction lengths with
  | nil => exact .inl rfl
  | cons suffixLen longer ih =>
    have unfolded : seedSuffix tokenizer.decoder stream (suffixLen :: longer) =
        if replacementChar ∉ tokenizer.textOf (stream.ids.drop (stream.ids.length - suffixLen)) then
          .ok (some (seededFrom tokenizer stream (stream.ids.drop (stream.ids.length - suffixLen))))
        else seedSuffix tokenizer.decoder stream longer := rfl
    rw [unfolded]
    split
    · next clean => exact .inr ⟨suffixLen, mem_cons_self, clean, rfl⟩
    · rcases ih with none | ⟨other, mem, clean, found⟩
      · exact .inl none
      · exact .inr ⟨other, mem_cons_of_mem _ mem, clean, found⟩

theorem pos_of_mem_suffixLengths {promptLen suffixLen : Nat}
    (mem : suffixLen ∈ suffixLengths promptLen) : 0 < suffixLen := by
  unfold suffixLengths at mem
  split at mem
  · have := (mem_range'_1.mp mem).1
    unfold safeSuffixMin at this
    omega
  · simp at mem

/-- Tokens whose text is held back seed nothing; others seed a window that ends with them. -/
theorem seedPrefix_spec (tokenizer : ByteTokenizer) (nonempty : stream.ids ≠ []) :
    (tokenizer.textOf stream.ids).endsWithReplacement = true ∧
        seedPrefix tokenizer.decoder stream = .ok stream ∨
      (tokenizer.textOf stream.ids).endsWithReplacement = false ∧
        ∃ ids, ids ≠ [] ∧ Lossy.incomplete (tokenizer.bytesOf ids) = [] ∧
          seedPrefix tokenizer.decoder stream = .ok (seededFrom tokenizer stream ids) := by
  have decoded : tokenizer.decoder.run stream.ids = .ok (tokenizer.textOf stream.ids) := rfl
  unfold seedPrefix
  rw [decoded]
  rcases seedSuffix_cases tokenizer stream (suffixLengths stream.ids.length) with
    none | ⟨suffixLen, mem, clean, found⟩
  · rw [none]
    dsimp only [bind, Except.bind]
    cases ends : (tokenizer.textOf stream.ids).endsWithReplacement with
    | true => exact .inl ⟨rfl, rfl⟩
    | false =>
      exact .inr ⟨rfl, stream.ids, nonempty, incomplete_eq_nil_of_not_endsWithReplacement ends, rfl⟩
  · have positive := pos_of_mem_suffixLengths mem
    have length := length_pos_iff.mpr nonempty
    have suffix : stream.ids.drop (stream.ids.length - suffixLen) ≠ [] := by
      rw [Ne, drop_eq_nil_iff]
      omega
    obtain ⟨complete, ends⟩ := ByteTokenizer.complete_of_clean
      (stream.ids.take (stream.ids.length - suffixLen)) suffix clean
    rw [take_append_drop] at ends
    rw [found]
    exact .inr ⟨ends, _, suffix, complete, rfl⟩

/-- Tokens whose text is not shown yet, since its last character may be incomplete. -/
def Held (tokenizer : ByteTokenizer) (tail : List TokenId) : Prop :=
  tail = [] ∨ (tokenizer.textOf tail).endsWithReplacement = true

instance (tokenizer : ByteTokenizer) (tail : List TokenId) : Decidable (Held tokenizer tail) :=
  inferInstanceAs (Decidable (_ ∨ _))

/-- The window of a stream that has shown some bytes: its front part is complete, and what was
shown is the output and the rest of the window. -/
structure Windowed (tokenizer : ByteTokenizer) (shown : List UInt8) (front tail : List TokenId)
    (stream : DecodeStream) : Prop where
  ids : stream.ids = front ++ tail
  prefixIndex : stream.prefixIndex = front.length
  prefixText : stream.prefixText = tokenizer.textOf front
  complete : Lossy.incomplete (tokenizer.bytesOf front) = []
  output : ∀ more, Lossy.decode (shown ++ more) =
    stream.cumulativeOutput ++ Lossy.decode (tokenizer.bytesOf tail ++ more)
  outputIndex : stream.outputIndex = 0

variable {shown : List UInt8} {front tail : List TokenId}

theorem windowed_seededFrom {ids : List TokenId}
    (complete : Lossy.incomplete (tokenizer.bytesOf ids) = [])
    (silent : stream.cumulativeOutput = []) (unread : stream.outputIndex = 0) :
    Windowed tokenizer [] ids [] (seededFrom tokenizer stream ids) where
  ids := (append_nil ids).symm
  prefixIndex := rfl
  prefixText := rfl
  complete := complete
  output more := by
    change _ = stream.cumulativeOutput ++ _
    rw [silent]
    rfl
  outputIndex := unread

section

variable (windowed : Windowed tokenizer shown front tail stream)

include windowed

/-- A token extends the text that is held back, or completes it. -/
theorem Windowed.appendToken (tokenId : TokenId) :
    ∃ added next front' tail', stream.appendToken tokenizer.decoder tokenId = .ok (added, next) ∧
      Held tokenizer tail' ∧
      Windowed tokenizer (shown ++ tokenizer.bytes tokenId) front' tail' next := by
  have string : tokenizer.textOf (stream.ids ++ [tokenId]) =
      stream.prefixText ++ tokenizer.textOf (tail ++ [tokenId]) := by
    rw [windowed.ids, windowed.prefixText, append_assoc,
      ByteTokenizer.textOf_append windowed.complete]
  have new : tokenizer.textOf (tail ++ [tokenId]) ≠ [] := ByteTokenizer.textOf_ne_nil (by simp)
  have ends : (tokenizer.textOf (stream.ids ++ [tokenId])).endsWithReplacement =
      (tokenizer.textOf (tail ++ [tokenId])).endsWithReplacement := by
    rw [string, endsWithReplacement_append new]
  have longer : ¬ byteLength (tokenizer.textOf (stream.ids ++ [tokenId])) ≤
      byteLength stream.prefixText := by
    have := byteLength_pos new
    rw [string, byteLength_append]
    omega
  have output : ∀ more, decode (shown ++ tokenizer.bytes tokenId ++ more) =
      stream.cumulativeOutput ++ decode (tokenizer.bytesOf (tail ++ [tokenId]) ++ more) := by
    intro more
    rw [append_assoc, windowed.output, ByteTokenizer.bytesOf_append,
      ByteTokenizer.bytesOf_singleton, append_assoc]
  cases held : (tokenizer.textOf (tail ++ [tokenId])).endsWithReplacement with
  | true =>
    refine ⟨0, { stream with ids := stream.ids ++ [tokenId] }, front, tail ++ [tokenId], ?_,
      .inr held, ?_⟩
    · unfold DecodeStream.appendToken
      dsimp only
      rw [ByteTokenizer.run_decoder]
      change (if _ then _ else _) = _
      rw [if_pos (by rw [ends, held, Bool.or_true])]
      rfl
    · exact { windowed with ids := by rw [windowed.ids, append_assoc], output }
  | false =>
    have complete := incomplete_eq_nil_of_not_endsWithReplacement held
    have behind : (stream.ids ++ [tokenId]).drop stream.prefixIndex = tail ++ [tokenId] := by
      rw [windowed.ids, windowed.prefixIndex, append_assoc, drop_left]
    refine ⟨byteLength (tokenizer.textOf (tail ++ [tokenId])), { stream with
        cumulativeOutput := stream.cumulativeOutput ++ tokenizer.textOf (tail ++ [tokenId])
        ids := tail ++ [tokenId]
        prefixText := tokenizer.textOf (tail ++ [tokenId])
        prefixIndex := (tail ++ [tokenId]).length }, tail ++ [tokenId], [], ?_, .inl rfl, ?_⟩
    · unfold DecodeStream.appendToken
      dsimp only
      rw [ByteTokenizer.run_decoder]
      change (if _ then _ else _) = _
      rw [if_neg (by rw [ends, held]; simpa using longer), string, floorCharBoundary_append,
        sliceFrom_append, behind]
      rfl
    · refine ⟨(append_nil _).symm, rfl, rfl, complete, fun more => ?_, windowed.outputIndex⟩
      rw [output, decode_append_of_incomplete_eq_nil complete, ← append_assoc]
      rfl

theorem Windowed.pushToken (held : Held tokenizer tail) (tokenId : TokenId) :
    ∃ added next front' tail', stream.pushToken tokenizer.decoder tokenId = .ok (added, next) ∧
      Held tokenizer tail' ∧
      Windowed tokenizer (shown ++ tokenizer.bytes tokenId) front' tail' next := by
  have seeded : stream.seedWindow tokenizer.decoder = .ok stream := by
    unfold seedWindow
    split
    · next unseeded =>
      -- Without a text, the front part is empty, so all tokens are held back.
      simp only [Bool.and_eq_true, List.isEmpty_iff, Bool.not_eq_true',
        List.isEmpty_eq_false_iff] at unseeded
      obtain ⟨empty, nonempty⟩ := unseeded
      have noFront : front = [] := by
        by_contra some
        exact ByteTokenizer.textOf_ne_nil some (windowed.prefixText.symm.trans empty)
      have ids : stream.ids = tail := by rw [windowed.ids, noFront, List.nil_append]
      have held : (tokenizer.textOf stream.ids).endsWithReplacement = true := by
        rcases held with none | held
        · exact absurd (ids.trans none) nonempty
        · rw [ids]
          exact held
      rcases seedPrefix_spec tokenizer nonempty with ⟨-, kept⟩ | ⟨free, -⟩
      · exact kept
      · cases held.symm.trans free
    · rfl
  unfold DecodeStream.pushToken
  rw [seeded]
  exact windowed.appendToken tokenId

theorem Windowed.pushTokens (held : Held tokenizer tail) (ids : List TokenId) :
    ∃ next front' tail', tokenizer.pushTokens stream ids = .ok next ∧
      Windowed tokenizer (shown ++ tokenizer.bytesOf ids) front' tail' next := by
  induction ids generalizing shown front tail stream with
  | nil => exact ⟨stream, front, tail, rfl, by simpa using windowed⟩
  | cons tokenId ids ih =>
    obtain ⟨added, middle, _, _, pushed, held, windowed⟩ := windowed.pushToken held tokenId
    obtain ⟨next, front', tail', rest, windowed⟩ := ih windowed held
    refine ⟨next, front', tail', ?_, ?_⟩
    · unfold ByteTokenizer.pushTokens at rest ⊢
      rw [foldlM_cons, pushed]
      exact rest
    · rw [append_assoc] at windowed
      exact windowed

/-- The end of a stream shows what is held back. -/
theorem Windowed.flush :
    ∃ lastChunk next,
      stream.flush tokenizer.decoder none = .ok ((lastChunk, Lossy.decode shown), next) := by
  have whole : decode shown = stream.cumulativeOutput ++ tokenizer.textOf tail := by
    have := windowed.output []
    rwa [append_nil, append_nil] at this
  have drained : ∃ next, stream.drain tokenizer.decoder = .ok next ∧
      next.cumulativeOutput = decode shown ∧ next.outputIndex = 0 := by
    unfold DecodeStream.drain
    split
    · next empty =>
      have none : tail = [] := by
        rw [List.isEmpty_iff, windowed.ids, List.append_eq_nil_iff] at empty
        exact empty.2
      refine ⟨stream, rfl, ?_, windowed.outputIndex⟩
      rw [whole, none, ByteTokenizer.textOf_nil, append_nil]
    · have string : tokenizer.textOf stream.ids = stream.prefixText ++ tokenizer.textOf tail := by
        rw [windowed.ids, windowed.prefixText, ByteTokenizer.textOf_append windowed.complete]
      rw [ByteTokenizer.run_decoder]
      change ∃ next, Except.bind ((tokenizer.textOf stream.ids).sliceFrom _) _ = _ ∧ _
      rw [string, floorCharBoundary_append, sliceFrom_append]
      exact ⟨_, rfl, whole.symm, windowed.outputIndex⟩
  obtain ⟨drainedStream, isDrained, output, unread⟩ := drained
  have last : ∃ chunk, lastChunk 0 (decode shown) = .ok chunk := by
    unfold lastChunk
    split
    · exact ⟨some (decode shown), by rw [sliceFrom_zero]; rfl⟩
    · exact ⟨none, rfl⟩
  obtain ⟨chunk, isLast⟩ := last
  refine ⟨chunk, { drainedStream with outputIndex := 0, cumulativeOutput := [] }, ?_⟩
  unfold DecodeStream.flush
  rw [isDrained]
  refine bind_eq_ok.mpr ⟨drainedStream, rfl, bind_eq_ok.mpr ⟨decode shown, ?_,
    bind_eq_ok.mpr ⟨chunk, ?_, rfl⟩⟩⟩
  · rw [output]
    rfl
  · rw [unread]
    exact isLast

end

end DecodeStream

namespace ByteTokenizer

open DecodeStream

variable {tokenizer : ByteTokenizer} {minBytesToBuffer : Nat} {prompt generated : List TokenId}

/-- The text of a window behind all generated tokens. -/
theorem streamText_of_windowed
    (pushed : tokenizer.pushTokens (.new prompt minBytesToBuffer) generated = .ok stream)
    (windowed : Windowed tokenizer shown front tail stream) :
    tokenizer.streamText minBytesToBuffer prompt generated = .ok (Lossy.decode shown) := by
  obtain ⟨lastChunk, next, flushed⟩ := windowed.flush
  unfold streamText
  rw [pushed]
  refine bind_eq_ok.mpr ⟨_, rfl, ?_⟩
  rw [flushed]
  rfl

/-- Before the first token, the prompt is a window that shows all of it. -/
theorem windowed_new (tokenizer : ByteTokenizer) (minBytesToBuffer : Nat) (prompt : List TokenId) :
    Windowed tokenizer (tokenizer.bytesOf prompt) [] prompt (.new prompt minBytesToBuffer) where
  ids := rfl
  prefixIndex := rfl
  prefixText := rfl
  complete := rfl
  output _ := rfl
  outputIndex := rfl

/-- A prompt whose text is not held back seeds the window of the first token. -/
theorem pushTokens_cons_of_not_held (free : ¬ Held tokenizer prompt)
    (minBytesToBuffer : Nat) (tokenId : TokenId) (ids : List TokenId) :
    ∃ stream front tail,
      tokenizer.pushTokens (.new prompt minBytesToBuffer) (tokenId :: ids) = .ok stream ∧
        Windowed tokenizer (tokenizer.bytesOf (tokenId :: ids)) front tail stream := by
  obtain ⟨nonempty, ends⟩ := not_or.mp free
  have fresh : (DecodeStream.new prompt minBytesToBuffer).ids ≠ [] := nonempty
  rcases seedPrefix_spec tokenizer fresh with ⟨held, -⟩ | ⟨-, seeds, -, complete, seeded⟩
  · exact absurd held ends
  · have window : Windowed tokenizer [] seeds []
        (seededFrom tokenizer (.new prompt minBytesToBuffer) seeds) :=
      windowed_seededFrom complete rfl rfl
    obtain ⟨added, middle, _, _, appended, held, windowed⟩ := window.appendToken tokenId
    obtain ⟨stream, front, tail, pushed, windowed⟩ := windowed.pushTokens held ids
    refine ⟨stream, front, tail, ?_, windowed⟩
    have first : DecodeStream.pushToken tokenizer.decoder (.new prompt minBytesToBuffer) tokenId =
        .ok (added, middle) := by
      refine bind_eq_ok.mpr ⟨_, ?_, appended⟩
      unfold seedWindow
      rw [if_pos (by simpa [DecodeStream.new] using nonempty)]
      exact seeded
    unfold pushTokens at pushed ⊢
    rw [foldlM_cons, first]
    exact pushed

/-- The text of a stream: the one of the generated tokens if the text of the prompt is complete
and there are some, and that of the prompt and the generated tokens otherwise. -/
theorem streamText_eq
    (tokenizer : ByteTokenizer) (minBytesToBuffer : Nat) (prompt generated : List TokenId) :
    tokenizer.streamText minBytesToBuffer prompt generated =
      .ok (if generated ≠ [] ∧ ¬ Held tokenizer prompt then tokenizer.textOf generated
        else tokenizer.textOf (prompt ++ generated)) := by
  have window := windowed_new tokenizer minBytesToBuffer prompt
  split
  · next condition =>
    obtain ⟨nonempty, free⟩ := condition
    obtain ⟨tokenId, ids, rfl⟩ := exists_cons_of_ne_nil nonempty
    obtain ⟨stream, front, tail, pushed, windowed⟩ :=
      pushTokens_cons_of_not_held free minBytesToBuffer tokenId ids
    exact streamText_of_windowed pushed windowed
  · next condition =>
    unfold textOf
    rw [bytesOf_append]
    by_cases empty : generated = []
    · subst empty
      rw [bytesOf_nil, append_nil]
      exact streamText_of_windowed rfl window
    · have held : Held tokenizer prompt := by
        by_contra free
        exact condition ⟨empty, free⟩
      obtain ⟨stream, front, tail, pushed, windowed⟩ := window.pushTokens held generated
      exact streamText_of_windowed pushed windowed

/-- A stream shows the generated tokens, behind the incomplete character at the end of the
prompt, exactly if the prompt is nothing but such a character, or there are generated tokens and
the text of the prompt does not end in a replacement character. -/
theorem streamText_eq_iff
    (tokenizer : ByteTokenizer) (minBytesToBuffer : Nat) (prompt generated : List TokenId) :
    tokenizer.streamText minBytesToBuffer prompt generated = .ok (Lossy.decode
          (Lossy.incomplete (tokenizer.bytesOf prompt) ++ tokenizer.bytesOf generated)) ↔
      tokenizer.bytesOf prompt = Lossy.incomplete (tokenizer.bytesOf prompt) ∨
        generated ≠ [] ∧ (tokenizer.textOf prompt).endsWithReplacement = false := by
  rw [streamText_eq, Except.ok.injEq]
  split
  · next condition =>
    obtain ⟨nonempty, free⟩ := condition
    have ends : (tokenizer.textOf prompt).endsWithReplacement = false := by
      simpa using (not_or.mp free).2
    have complete := incomplete_eq_nil_of_not_endsWithReplacement ends
    refine ⟨fun _ => .inr ⟨nonempty, ends⟩, fun _ => ?_⟩
    rw [show incomplete (tokenizer.bytesOf prompt) = [] from complete]
    rfl
  · next condition =>
    have text : tokenizer.textOf (prompt ++ generated) =
        complete (tokenizer.bytesOf prompt) ++ decode
          (incomplete (tokenizer.bytesOf prompt) ++ tokenizer.bytesOf generated) := by
      unfold textOf
      rw [bytesOf_append, decode_append]
    rw [text, append_left_eq_self]
    constructor
    · exact fun nothing => .inl ((feed_spec _).2.2 nothing).symm
    · rintro (same | ⟨nonempty, ends⟩)
      · have alone := (feed_spec (tokenizer.bytesOf prompt)).2.1
        unfold complete
        rw [same, alone]
      · have held : Held tokenizer prompt := by
          by_contra free
          exact condition ⟨nonempty, free⟩
        rcases held with rfl | held
        · rfl
        · cases held.symm.trans ends

/-- Every token is the byte of its number. -/
def rawBytes : ByteTokenizer where
  bytes tokenId := [UInt8.ofNat tokenId.toNat]
  nonempty _ := by simp

/-- Behind a prompt that ends inside a character, the prompt is shown again: the bytes of
"Hi" and of the first part of U+4F60, and then the rest of that character. -/
theorem prompt_shown_again :
    rawBytes.streamText 0 [0x48, 0x69, 0xE4] [0xBD, 0xA0] = .ok ['H', 'i', '你'] ∧
      Lossy.decode (Lossy.incomplete (rawBytes.bytesOf [0x48, 0x69, 0xE4]) ++
        rawBytes.bytesOf [0xBD, 0xA0]) = ['你'] ∧
      rawBytes.streamText 0 [0x48, 0x69] [] = .ok ['H', 'i'] ∧
      Lossy.decode (Lossy.incomplete (rawBytes.bytesOf [0x48, 0x69]) ++ rawBytes.bytesOf []) = [] := by
  decide +kernel

end ByteTokenizer

end TokenCake
