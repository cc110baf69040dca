import TokenCake.Library.Machine
import TokenCake.Library.Utf8
import TokenCake.Request.Defs

/-!
# Incremental decoding of tokens

A stream of generated tokens is decoded through a sliding window: the tokens of the window are
decoded as a whole, and what follows the text of its front part is new.  Text that ends in a
replacement character is held back, since a later token may complete the character.  The outputs of
the engine go through such a stream token by token; after each token the end of the text is
searched for stop strings, and text that may be the beginning of a stop string is held back as well.

Strings are addressed by bytes, and a string that is cut inside a character ends the program.
Metadata, log probabilities and transfer parameters are left out.
-/

namespace TokenCake

open Utf8

/-- A string of the tokenizer. -/
abbrev Utf8Text := List Char

/-- U+FFFD, which stands for bytes that are no text. -/
def replacementChar : Char := '\uFFFD'

/-- The ways in which decoding ends without a result. -/
inductive DecodeError where
  /-- The tokenizer refuses to decode. -/
  | tokenizer
  /-- A string is cut inside a character or behind its end. -/
  | notCharBoundary
  /-- A difference of sizes below zero. -/
  | subtractOverflow
  /-- The stream of outputs ended without a terminal output. -/
  | streamClosedBeforeTerminalOutput
deriving DecidableEq, Repr

/-- The decoding function of a tokenizer; it may fail. -/
abbrev TokenDecoder := List TokenId → Option Utf8Text

namespace TokenDecoder

/-- Decode tokens, or report that the tokenizer refuses. -/
def run (decode : TokenDecoder) (ids : List TokenId) : Except DecodeError Utf8Text :=
  match decode ids with
  | none => .error .tokenizer
  | some text => .ok text

end TokenDecoder

namespace Utf8Text

section

variable (text : Utf8Text)

/-- The two parts of a string at a byte position. -/
def cut (position : Nat) : Except DecodeError (Utf8Text × Utf8Text) :=
  match splitAt? text position with
  | none => .error .notCharBoundary
  | some parts => .ok parts

/-- The slice from a byte position to the end. -/
def sliceFrom (start : Nat) : Except DecodeError Utf8Text := do
  return (← cut text start).2

/-- The bytes of a text between two positions. -/
def sliceBetween (start stop : Nat) : Except DecodeError Utf8Text := do
  let (front, _) ← cut text stop
  sliceFrom front start

/-- Shorten a string to a number of bytes; a shorter one stays as it is. -/
def truncate (newLength : Nat) : Except DecodeError Utf8Text :=
  if newLength ≤ byteLength text then do
    return (← cut text newLength).1
  else .ok text

/-- Shorten a string, if a number of bytes is given. -/
def truncate? : Option Nat → Except DecodeError Utf8Text
  | none => .ok text
  | some newLength => text.truncate newLength

/-- Whether the last character may be incomplete. -/
def endsWithReplacement : Bool :=
  decide (text.getLast? = some replacementChar)

end

theorem sliceFrom_append (front back : Utf8Text) :
    sliceFrom (front ++ back) (byteLength front) = .ok back := by
  unfold sliceFrom cut
  rw [splitAt?_append]
  rfl

theorem sliceFrom_zero (text : Utf8Text) : sliceFrom text 0 = .ok text :=
  sliceFrom_append [] text

theorem endsWithReplacement_append {front back : Utf8Text} (nonempty : back ≠ []) :
    (front ++ back).endsWithReplacement = back.endsWithReplacement := by
  unfold endsWithReplacement
  rw [List.getLast?_append_of_ne_nil front nonempty]

end Utf8Text

/-- The incremental decoder of a request. -/
structure DecodeStream where
  /-- Number of bytes at the end of the output that are not handed out yet. -/
  minBytesToBuffer : Nat
  /-- The tokens of the window. -/
  ids : List TokenId
  /-- The text of the front part of the window. -/
  prefixText : Utf8Text := []
  /-- Number of tokens of the front part. -/
  prefixIndex : Nat := 0
  cumulativeOutput : Utf8Text := []
  /-- Number of bytes that were handed out. -/
  outputIndex : Nat := 0
deriving DecidableEq

namespace DecodeStream

/-- The decoder of a request, before its first token. -/
def new (promptTokenIds : List TokenId) (minBytesToBuffer : Nat) : DecodeStream where
  minBytesToBuffer := minBytesToBuffer
  ids := promptTokenIds

/-- The fewest prompt tokens with which the window is started. -/
def safeSuffixMin : Nat := 4

/-- The most prompt tokens with which the window is started. -/
def safeSuffixMax : Nat := 6

variable (decode : TokenDecoder)

/-- Seed the front part from the first clean suffix among some lengths. -/
def seedSuffix (stream : DecodeStream) : List Nat → Except DecodeError (Option DecodeStream)
  | [] => .ok none
  | suffixLen :: longer => do
      let suffix := stream.ids.drop (stream.ids.length - suffixLen)
      let decoded ← decode.run suffix
      if replacementChar ∉ decoded then
        return some { stream with
          prefixText := decoded
          ids := suffix
          prefixIndex := suffix.length }
      else seedSuffix stream longer

/-- The numbers of prompt tokens that are tried to start the window, in order. -/
def suffixLengths (promptLen : Nat) : List Nat :=
  if promptLen > safeSuffixMin then
    List.range' safeSuffixMin (min safeSuffixMax (promptLen - 1) + 1 - safeSuffixMin)
  else []

/-- Seed the front part from a clean suffix, or else from all tokens if their text is
complete. -/
def seedPrefix (stream : DecodeStream) : Except DecodeError DecodeStream := do
  match ← seedSuffix decode stream (suffixLengths stream.ids.length) with
  | some seeded => return seeded
  | none =>
    let decoded ← decode.run stream.ids
    if decoded.endsWithReplacement then return stream
    else return { stream with prefixText := decoded, prefixIndex := stream.ids.length }

variable (stream : DecodeStream)

/-- Decode the window with a further token, and move the window if new text is complete. -/
def appendToken (tokenId : TokenId) : Except DecodeError (Nat × DecodeStream) := do
  let stream := { stream with ids := stream.ids ++ [tokenId] }
  let string ← decode.run stream.ids
  let prefixLen := byteLength stream.prefixText
  if byteLength string ≤ prefixLen || string.endsWithReplacement then return (0, stream)
  else
    -- The text of the front part may have changed, so its length may fall into a character.
    let newChunk ← string.sliceFrom (floorCharBoundary string prefixLen)
    let ids := stream.ids.drop stream.prefixIndex
    let prefixText ← decode.run ids
    return (byteLength newChunk,
      { stream with
        cumulativeOutput := stream.cumulativeOutput ++ newChunk
        ids := ids
        prefixText := prefixText
        prefixIndex := ids.length })

/-- Start the window of a stream that has no text in front of its tokens. -/
def seedWindow (stream : DecodeStream) : Except DecodeError DecodeStream :=
  if stream.prefixText.isEmpty && !stream.ids.isEmpty then seedPrefix decode stream
  else .ok stream

/-- Add a generated token; the answer is the number of bytes that became ready. -/
def pushToken (tokenId : TokenId) : Except DecodeError (Nat × DecodeStream) := do
  let stream ← seedWindow decode stream
  appendToken decode stream tokenId

/-- Hand out what is ready, except for the bytes that are held back. -/
def nextChunk (stream : DecodeStream) : Except DecodeError (Option Utf8Text × DecodeStream) :=
  let cutoff := byteLength stream.cumulativeOutput - stream.minBytesToBuffer
  if cutoff > stream.outputIndex then do
    let chunk ← stream.cumulativeOutput.sliceBetween stream.outputIndex cutoff
    return (some chunk, { stream with outputIndex := cutoff })
  else .ok (none, stream)

/-- Add the text of all tokens of the window. -/
def drain (stream : DecodeStream) : Except DecodeError DecodeStream :=
  if stream.ids.isEmpty then .ok stream
  else do
    let string ← decode.run stream.ids
    let rest ← string.sliceFrom (floorCharBoundary string (byteLength stream.prefixText))
    return { stream with
      ids := []
      prefixText := []
      prefixIndex := 0
      cumulativeOutput := stream.cumulativeOutput ++ rest }

/-- The part of a text that was not handed out yet. -/
def lastChunk (outputIndex : Nat) (output : Utf8Text) : Except DecodeError (Option Utf8Text) :=
  if outputIndex < byteLength output then do
    return some (← output.sliceFrom outputIndex)
  else .ok none

/-- The end of the stream: what was not handed out yet, and the whole text. -/
def flush (truncateOutputTo : Option Nat) :
    Except DecodeError ((Option Utf8Text × Utf8Text) × DecodeStream) := do
  let stream ← drain decode stream
  let output ← stream.cumulativeOutput.truncate? truncateOutputTo
  let chunk ← lastChunk stream.outputIndex output
  return ((chunk, output), { stream with outputIndex := 0, cumulativeOutput := [] })

end DecodeStream

/-- The options of a request that decoding reads. -/
structure TextDecodeOptions where
  includeStopStrInOutput : Bool := false
  stopStrings : Option (List Utf8Text) := none
  minTokens : Nat := 0
deriving DecidableEq

/-- Why the engine ended a request. -/
inductive FinishReason where
  | stop (reason : Option Utf8Text)
  | length
  | abort
  | error
  | repetition
deriving DecidableEq

/-- Whether a request ended at a stop token or a stop string. -/
def FinishReason.isStop : FinishReason → Bool
  | stop _ => true
  | length | abort | error | repetition => false

/-- An output of the engine. -/
structure GenerateOutput where
  tokenIds : List TokenId
  finishReason : Option FinishReason := none
deriving DecidableEq

/-- The number of tokens and the reason of the end. -/
structure Finished where
  promptTokenCount : Nat
  outputTokenCount : Nat
  finishReason : FinishReason
deriving DecidableEq

/-- A piece of text for the client, with the tokens that came with it. -/
structure TextDelta where
  delta : Utf8Text
  tokenIds : List TokenId
  finished : Option Finished := none
deriving DecidableEq

/-- The last position among the first `count` ones at which a pattern stands. -/
def rposition (pattern bytes : List UInt8) : Nat → Option Nat
  | 0 => none
  | count + 1 =>
    if (bytes.drop count).take pattern.length = pattern then some count
    else rposition pattern bytes count

/-- The index of the first stop string that ends in the new bytes of an output, and the byte
position of its last occurrence. -/
def matchesStopString (output : List UInt8)
    (nextOff : Nat) : List Utf8Text → Nat → Option (Nat × Nat)
  | [], _ => none
  | stop :: stops, index =>
    let startOff := nextOff - byteLength stop
    let searched := output.drop startOff
    match rposition (encode stop) searched (searched.length + 1 - byteLength stop) with
    | some position => some (index, startOff + position)
    | none => matchesStopString output nextOff stops (index + 1)

/-- What a stream keeps between outputs. -/
structure TextEventStream where
  options : TextDecodeOptions
  /-- Whether every output is answered, or the last one only. -/
  intermediate : Bool
  promptTokenCount : Nat
  decoder : DecodeStream
  tokenIds : List TokenId := []
  outputTokenCount : Nat := 0
  /-- The chunks that were handed out so far. -/
  chunks : List Utf8Text := []

namespace TextEventStream

/-- Without stop strings in the output, all but the last byte of the longest one is held
back. -/
def minBytesToBuffer (options : TextDecodeOptions) : Nat :=
  if options.includeStopStrInOutput then 0
  else ((options.stopStrings.bind fun stops => (stops.map byteLength).max?).getD 1) - 1

/-- The stream of a request, at its first output. -/
def new (options : TextDecodeOptions) (intermediate : Bool)
    (promptTokenIds : List TokenId) : TextEventStream where
  options := options
  intermediate := intermediate
  promptTokenCount := promptTokenIds.length
  decoder := .new promptTokenIds (minBytesToBuffer options)

/-- A stop string was found: its text, where the output ends, and behind how many tokens. -/
structure StopMatch where
  stop : Utf8Text
  truncateOutputTo : Nat
  truncateTokensTo : Nat
deriving DecidableEq

/-- Search the end of the output for stop strings. -/
def findStop (options : TextDecodeOptions) (output : Utf8Text)
    (newBytes tokenCount tokIdx : Nat) : Except DecodeError (Option StopMatch) :=
  match options.stopStrings with
  | none => .ok none
  | some stops =>
    if tokenCount > options.minTokens then do
      let bytes := encode output
      ensure (decide (newBytes ≤ bytes.length + 1)) .subtractOverflow
      match matchesStopString bytes (bytes.length + 1 - newBytes) stops 0 with
      | none => return none
      | some (index, off) =>
        let stop := stops[index]?.getD []
        return some {
          stop := stop
          truncateOutputTo :=
            if options.includeStopStrInOutput then off + byteLength stop else off
          truncateTokensTo := tokIdx + 1 }
    else .ok none

/-- What a loop over the tokens of an output has collected. -/
structure TokenLoop where
  stream : TextEventStream
  delta : Option Utf8Text := none
  found : Option StopMatch := none

/-- Append a chunk to a delta. -/
def appendChunk : Option Utf8Text → Utf8Text → Option Utf8Text
  | none, chunk => some chunk
  | some delta, chunk => some (delta ++ chunk)

variable (decode : TokenDecoder)

/-- Hand out the next chunk to the delta of an output. -/
def takeChunk (state : TokenLoop) : Except DecodeError TokenLoop :=
  if state.stream.intermediate then do
    let (chunk, decoder) ← state.stream.decoder.nextChunk
    match chunk with
    | none => return { state with stream := { state.stream with decoder := decoder } }
    | some chunk =>
      return { state with
        stream := { state.stream with decoder := decoder, chunks := state.stream.chunks ++ [chunk] }
        delta := appendChunk state.delta chunk }
  else .ok state

/-- Decode one token and search the text for a stop string. -/
def decodeToken (state : TokenLoop) (tokIdx : Nat) (tokenId : TokenId) :
    Except DecodeError TokenLoop := do
  let (newBytes, decoder) ← state.stream.decoder.pushToken decode tokenId
  let state := { state with stream := { state.stream with decoder := decoder } }
  match ← findStop state.stream.options decoder.cumulativeOutput newBytes
      (state.stream.outputTokenCount + tokIdx + 1) tokIdx with
  | some found => return { state with found := some found }
  | none => takeChunk state

/-- Decode the tokens of an output up to the first stop string. -/
def decodeTokens : TokenLoop → Nat → List TokenId → Except DecodeError TokenLoop
  | state, _, [] => .ok state
  | state, tokIdx, tokenId :: rest => do
      let next ← decodeToken decode state tokIdx tokenId
      if next.found.isSome then return next
      else decodeTokens next (tokIdx + 1) rest

/-- The tokens of an output whose text is shown; a terminal stop token is not. -/
def decodableTokenIds (options : TextDecodeOptions) (output : GenerateOutput) : List TokenId :=
  if (output.finishReason.map FinishReason.isStop).getD false && !options.includeStopStrInOutput
  then output.tokenIds.dropLast
  else output.tokenIds

/-- The result of a stream that has ended. -/
structure TextEventResult where
  event : TextDelta
  /-- The chunks that were handed out before the end. -/
  chunks : List Utf8Text
  lastChunk : Option Utf8Text
  fullText : Utf8Text

/-- Decode an output: a delta while the stream goes on, or the result. -/
def decodeOutput (stream : TextEventStream) (output : GenerateOutput) :
    Except DecodeError ((Option TextDelta × TextEventStream) ⊕ TextEventResult) := do
  let state ← decodeTokens decode { stream := stream } 0 (decodableTokenIds stream.options output)
  let newTokenIds :=
    match state.found with
    | none => output.tokenIds
    | some found => output.tokenIds.take found.truncateTokensTo
  let finishReason :=
    match state.found with
    | none => output.finishReason
    | some found => some (.stop (some found.stop))
  let stream :=
    { state.stream with
      outputTokenCount := state.stream.outputTokenCount + newTokenIds.length
      tokenIds :=
        if state.stream.intermediate then state.stream.tokenIds
        else state.stream.tokenIds ++ newTokenIds }
  match finishReason with
  | none =>
    if stream.intermediate then
      return .inl (some { delta := state.delta.getD [], tokenIds := newTokenIds }, stream)
    else return .inl (none, stream)
  | some reason =>
    let ((lastChunk, text), _) ←
      stream.decoder.flush decode (state.found.map StopMatch.truncateOutputTo)
    let shown :=
      match lastChunk with
      | none => state.delta
      | some chunk => appendChunk state.delta chunk
    return .inr {
      event :=
        { delta := if stream.intermediate then shown.getD [] else text
          tokenIds := if stream.intermediate then newTokenIds else stream.tokenIds
          finished := some
            { promptTokenCount := stream.promptTokenCount
              outputTokenCount := stream.outputTokenCount
              finishReason := reason } }
      chunks := stream.chunks
      lastChunk := lastChunk
      fullText := text }

/-- Decode the outputs of a request: the deltas, and the result. -/
def decodedTextEvents :
    TextEventStream → List GenerateOutput → Except DecodeError (List TextDelta × TextEventResult)
  | _, [] => .error .streamClosedBeforeTerminalOutput
  | stream, output :: outputs => do
      match ← decodeOutput decode stream output with
      | .inr result => return ([], result)
      | .inl (event, stream) =>
        let (events, result) ← decodedTextEvents stream outputs
        return (event.toList ++ events, result)

end TextEventStream

end TokenCake
