import TokenCake.Library.Machine
import TokenCake.Request.BlockHash
import Mathlib.Data.List.Basic
import Mathlib.Tactic.Ring

/-!
# Incremental and batch block hashing

The cursor over the multimodal features is an optimisation: for features that
are sorted and do not overlap, a block's multimodal keys are those of the
features that reach into it.  The hashes of consecutive blocks then form a
chain that can be cut at any block border.

Block hashes are extended whenever tokens arrive.  They agree with the hashes
of one pass over the final request as long as two things do not happen: the
hasher resumes behind the first block while a feature other than the last one
reaches into the new blocks, and a session update discards tokens that a stored
hash already covers.
-/

namespace TokenCake

open List

variable {features : List MultiModalFeature} {startTokenIdx endTokenIdx start : Nat} {cursor : Int}
  {innerStart innerStop : Nat}

namespace MultiModalFeature

/-- The first position behind the feature. -/
def stop (feature : MultiModalFeature) : Nat :=
  feature.mmPosition.offset + feature.mmPosition.length

/-- Whether the feature reaches into the tokens of `[start, stop)`. -/
def reaches (start stop : Nat) (feature : MultiModalFeature) : Bool :=
  decide (feature.mmPosition.offset < stop ∧ start < feature.stop)

variable {feature : MultiModalFeature}

theorem reaches_eq_false {stop : Nat} :
    feature.reaches start stop = false ↔
      stop ≤ feature.mmPosition.offset ∨ feature.stop ≤ start := by
  simp only [reaches, decide_eq_false_iff_not]
  omega

/-- A feature that does not reach into a range does not reach into a part of it. -/
theorem reaches_eq_false_of_subrange {stop : Nat} (lower : start ≤ innerStart)
    (upper : innerStop ≤ stop) (outside : feature.reaches start stop = false) :
    feature.reaches innerStart innerStop = false := by
  rw [reaches_eq_false] at outside ⊢
  omega

/-- The items are in order and do not overlap. -/
def Sorted (features : List MultiModalFeature) : Prop :=
  features.Pairwise fun left right => left.stop ≤ right.mmPosition.offset

instance (features : List MultiModalFeature) : Decidable (Sorted features) :=
  inferInstanceAs (Decidable (features.Pairwise _))

theorem Sorted.stop_le_last (sorted : Sorted features) (isLast : features.getLast? = some last)
    (mem : feature ∈ features) : feature.stop ≤ last.stop := by
  obtain ⟨front, rfl⟩ := getLast?_eq_some_iff.mp isLast
  rcases mem_append.mp mem with inFront | isTheLast
  · have ordered := (pairwise_append.mp sorted).2.2 feature inFront last (by simp)
    unfold stop at ordered ⊢
    omega
  · rw [mem_singleton.mp isTheLast]

end MultiModalFeature

open MultiModalFeature

/-- The keys of the features that reach into a block. -/
def mmKeys (features : List MultiModalFeature) (startTokenIdx endTokenIdx : Nat) : List ExtraKey :=
  (features.filter (reaches startTokenIdx endTokenIdx)).map fun feature =>
    feature.key startTokenIdx

theorem mmKeys_eq_nil (outside : ∀ feature ∈ features, feature.reaches start endTokenIdx = false) :
    mmKeys features start endTokenIdx = [] := by
  unfold mmKeys
  rw [filter_eq_nil_iff.mpr, map_nil]
  intro feature mem
  simp [outside feature mem]

theorem mmKeys_append (left right : List MultiModalFeature) (start endTokenIdx : Nat) :
    mmKeys (left ++ right) start endTokenIdx =
      mmKeys left start endTokenIdx ++ mmKeys right start endTokenIdx := by
  simp [mmKeys]

/-- The cursor loop collects the keys of the features that reach into the block. -/
theorem mmExtraHashKeysFrom_keys
    (sorted : Sorted features) (start endTokenIdx : Nat) (currMmIdx : Int) :
    (mmExtraHashKeysFrom start endTokenIdx features currMmIdx).1 =
      mmKeys features start endTokenIdx := by
  induction features generalizing currMmIdx with
  | nil => rfl
  | cons feature rest ih =>
    have behind := (pairwise_cons.mp sorted).1
    have tail := ih (pairwise_cons.mp sorted).2
    simp only [mmExtraHashKeysFrom, gt_iff_lt, ge_iff_le]
    split
    · next reached =>
      split
      · next passed =>
        have outside : feature.reaches start endTokenIdx = false :=
          reaches_eq_false.mpr (Or.inr passed)
        rw [tail]
        simp [mmKeys, outside]
      · next inside =>
        have hit : feature.reaches start endTokenIdx = true :=
          decide_eq_true ⟨reached, not_le.mp inside⟩
        split
        · simp [mmKeys, hit, tail]
        · next beyond =>
          have rest_outside : mmKeys rest start endTokenIdx = [] := by
            apply mmKeys_eq_nil
            intro other mem
            have later := behind other mem
            unfold stop at later
            exact reaches_eq_false.mpr (Or.inl (by omega))
          unfold mmKeys at rest_outside ⊢
          rw [filter_cons_of_pos hit, map_cons, rest_outside]
    · next ahead =>
      symm
      apply mmKeys_eq_nil
      intro other mem
      rcases mem_cons.mp mem with rfl | inRest
      · exact reaches_eq_false.mpr (Or.inl (by omega))
      · have later := behind other inRest
        unfold stop at later
        exact reaches_eq_false.mpr (Or.inl (by omega))

section

variable (features : List MultiModalFeature)

/-- The features the cursor loop passes all end within the block. -/
theorem mmExtraHashKeysFrom_cursor (start endTokenIdx : Nat)
    (ordered : start ≤ endTokenIdx) (currMmIdx : Int) :
    ∃ passed, (mmExtraHashKeysFrom start endTokenIdx features currMmIdx).2 =
        currMmIdx + (passed : Nat) ∧
      ∀ feature ∈ features.take passed, feature.stop ≤ endTokenIdx := by
  induction features generalizing currMmIdx with
  | nil => exact ⟨0, by simp [mmExtraHashKeysFrom], by simp⟩
  | cons feature rest ih =>
    have stays : ∃ passed : Nat, currMmIdx = currMmIdx + (passed : Int) ∧
        ∀ other ∈ (feature :: rest).take passed, other.stop ≤ endTokenIdx :=
      ⟨0, by simp, by simp⟩
    have advances (ends : feature.stop ≤ endTokenIdx) : ∃ passed : Nat,
        (mmExtraHashKeysFrom start endTokenIdx rest (currMmIdx + 1)).2 =
            currMmIdx + (passed : Int) ∧
          ∀ other ∈ (feature :: rest).take passed, other.stop ≤ endTokenIdx := by
      obtain ⟨passed, cursor, within⟩ := ih (currMmIdx + 1)
      refine ⟨passed + 1, by omega, ?_⟩
      intro other mem
      rw [take_succ_cons, mem_cons] at mem
      rcases mem with rfl | inRest
      · exact ends
      · exact within other inRest
    simp only [mmExtraHashKeysFrom]
    split
    · split
      · next passed => exact advances (le_trans passed ordered)
      · split
        · next ends => exact advances ends
        · exact stays
    · exact stays

/-- The cursor as a position in the list of features. -/
def cursorPosition (cursor : Int) : Nat :=
  (if cursor < 0 then (features.length : Int) + cursor else cursor).toNat

/-- No feature before the cursor reaches into the tokens of `[start, stop)`. -/
def CursorCovers (cursor : Int) (start stop : Nat) : Prop :=
  ∀ feature ∈ features.take (cursorPosition features cursor), feature.reaches start stop = false

end

theorem CursorCovers.subrange {stop : Nat}
    (covers : CursorCovers features cursor start stop) (lower : start ≤ innerStart)
    (upper : innerStop ≤ stop) : CursorCovers features cursor innerStart innerStop :=
  fun feature mem =>
    reaches_eq_false_of_subrange lower upper (covers feature mem)

theorem mmKeys_drop_cursor (covers : CursorCovers features cursor start endTokenIdx) :
    mmKeys (features.drop (cursorPosition features cursor)) start endTokenIdx =
      mmKeys features start endTokenIdx := by
  have split := mmKeys_append (features.take (cursorPosition features cursor))
    (features.drop (cursorPosition features cursor)) start endTokenIdx
  rw [take_append_drop, mmKeys_eq_nil covers, nil_append] at split
  exact split.symm

/-- A cursor that covers a range yields the keys of the range's first block and
a cursor that covers the rest of the range. -/
theorem genMmExtraHashKeys_spec {request : Request} (sorted : Sorted request.mmFeatures)
    {stop : Nat} (cursorBound : -1 ≤ cursor) (ordered : startTokenIdx ≤ endTokenIdx)
    (within : endTokenIdx ≤ stop)
    (covers : CursorCovers request.mmFeatures cursor startTokenIdx stop) :
    (genMmExtraHashKeys request startTokenIdx endTokenIdx cursor).1 =
        mmKeys request.mmFeatures startTokenIdx endTokenIdx ∧
      -1 ≤ (genMmExtraHashKeys request startTokenIdx endTokenIdx cursor).2 ∧
      CursorCovers request.mmFeatures
        (genMmExtraHashKeys request startTokenIdx endTokenIdx cursor).2 endTokenIdx stop := by
  unfold genMmExtraHashKeys
  split
  · next empty =>
    rw [getLast?_eq_none_iff.mp empty]
    refine ⟨rfl, cursorBound, ?_⟩
    intro feature mem
    simp at mem
  · next last isLast =>
    split
    · next passed =>
      refine ⟨?_, cursorBound, covers.subrange ordered le_rfl⟩
      symm
      apply mmKeys_eq_nil
      intro feature mem
      exact reaches_eq_false.mpr (Or.inr (le_trans (sorted.stop_le_last isLast mem) passed))
    · have nonempty : request.mmFeatures ≠ [] := by
        intro empty
        simp [empty] at isLast
      have lengthPositive : 0 < request.mmFeatures.length :=
        length_pos_iff.mpr nonempty
      set start : Int :=
        if cursor < 0 then (request.mmFeatures.length : Int) + cursor else cursor
        with startDefinition
      have startNonnegative : 0 ≤ start := by
        rw [startDefinition]
        split <;> omega
      have position : start.toNat = cursorPosition request.mmFeatures cursor := rfl
      refine ⟨?_, ?_⟩
      · rw [mmExtraHashKeysFrom_keys (sorted.sublist (drop_sublist ..)), position,
          mmKeys_drop_cursor (covers.subrange le_rfl within)]
      · obtain ⟨passed, advanced, ended⟩ :=
          mmExtraHashKeysFrom_cursor (request.mmFeatures.drop start.toNat)
            startTokenIdx endTokenIdx ordered start
        rw [advanced]
        refine ⟨by omega, ?_⟩
        have reached : cursorPosition request.mmFeatures (start + (passed : Int)) =
            start.toNat + passed := by
          unfold cursorPosition
          rw [if_neg (by omega)]
          omega
        intro feature mem
        rw [reached, take_add, mem_append] at mem
        rcases mem with before | crossed
        · exact covers.subrange ordered le_rfl feature (position ▸ before)
        · exact reaches_eq_false.mpr (Or.inr (ended feature crossed))

section Chain

variable (hasher : BlockHasher) (request : Request)

/-- Hash of the block that starts at a position, given its parent's hash. -/
def blockHashAt (startTokenIdx : Nat) (parentBlockHash : Option Bytes) : Bytes :=
  let endTokenIdx := startTokenIdx + hasher.blockSize
  hashBlockTokens hasher parentBlockHash (slice request.allTokenIds startTokenIdx endTokenIdx)
    (joinExtraKeys hasher request startTokenIdx endTokenIdx
      (mmKeys request.mmFeatures startTokenIdx endTokenIdx))

/-- Hashes of a number of consecutive blocks. -/
def chainHashes : Nat → Nat → Option Bytes → List Bytes
  | 0, _, _ => []
  | count + 1, startTokenIdx, parentBlockHash =>
    let blockHash := blockHashAt hasher request startTokenIdx parentBlockHash
    blockHash :: chainHashes count (startTokenIdx + hasher.blockSize) (some blockHash)

@[simp] theorem chainHashes_length (count start : Nat) (parent : Option Bytes) :
    (chainHashes hasher request count start parent).length = count := by
  induction count generalizing start parent with
  | zero => rfl
  | succ count ih => simp [chainHashes, ih]

/-- A chain of blocks can be cut at every block border. -/
theorem chainHashes_add (first second start : Nat) (parent : Option Bytes) :
    chainHashes hasher request (first + second) start parent =
      chainHashes hasher request first start parent ++
        chainHashes hasher request second (start + first * hasher.blockSize)
          ((chainHashes hasher request first start parent).getLast?.or parent) := by
  induction first generalizing start parent with
  | zero => simp [chainHashes]
  | succ first ih =>
    rw [Nat.add_right_comm first 1 second]
    simp only [chainHashes, ih, cons_append]
    congr 3
    · ring
    · rw [getLast?_cons]
      cases (chainHashes hasher request first (start + hasher.blockSize)
        (some (blockHashAt hasher request start parent))).getLast? <;>
        rfl

variable {hasher request} {count : Nat}

/-- The hashing loop computes the chain of all full blocks from its start. -/
theorem hashBlocksFrom_eq_chainHashes (sorted : Sorted request.mmFeatures) {fuel : Nat}
    (parent : Option Bytes) (enough : count < fuel) (cursorBound : -1 ≤ cursor)
    (full : start + count * hasher.blockSize ≤ request.numTokens)
    (exhausted : request.numTokens < start + count * hasher.blockSize + hasher.blockSize)
    (covers : CursorCovers request.mmFeatures cursor start (start + count * hasher.blockSize)) :
    hashBlocksFrom hasher request fuel start cursor parent =
      chainHashes hasher request count start parent := by
  induction count generalizing fuel start cursor parent with
  | zero =>
    obtain ⟨fuel, rfl⟩ := Nat.exists_eq_succ_of_ne_zero (by omega : fuel ≠ 0)
    simp only [hashBlocksFrom]
    rw [if_pos (by omega)]
    rfl
  | succ count ih =>
    obtain ⟨fuel, rfl⟩ := Nat.exists_eq_succ_of_ne_zero (by omega : fuel ≠ 0)
    have size : (count + 1) * hasher.blockSize =
        hasher.blockSize + count * hasher.blockSize := by ring
    obtain ⟨keys, nextBound, nextCovers⟩ :=
      genMmExtraHashKeys_spec sorted cursorBound (Nat.le_add_right start hasher.blockSize)
        (by rw [size]; omega) covers
    rw [size, ← Nat.add_assoc] at full exhausted nextCovers
    simp only [hashBlocksFrom, generateBlockHashExtraKeys, keys]
    rw [if_neg (by omega), ih _ (by omega) nextBound full exhausted nextCovers]
    rfl

/-- Two requests that agree on the first tokens, on the features that reach into
them and on the remaining keys have the same hashes there. -/
theorem chainHashes_congr (request other : Request) (bound : Nat)
    (tokens : request.allTokenIds.take bound = other.allTokenIds.take bound)
    (features : ∀ start endTokenIdx, endTokenIdx ≤ bound →
      mmKeys request.mmFeatures start endTokenIdx = mmKeys other.mmFeatures start endTokenIdx)
    (loraRequest : request.loraRequest = other.loraRequest)
    (cacheSalt : request.cacheSalt = other.cacheSalt)
    (promptEmbeds : request.promptEmbeds = other.promptEmbeds)
    (within : start + count * hasher.blockSize ≤ bound) (parent : Option Bytes) :
    chainHashes hasher request count start parent =
      chainHashes hasher other count start parent := by
  induction count generalizing start parent with
  | zero => rfl
  | succ count ih =>
    have size : (count + 1) * hasher.blockSize =
        hasher.blockSize + count * hasher.blockSize := by ring
    rw [size, ← Nat.add_assoc] at within
    have sameSlice : slice request.allTokenIds start (start + hasher.blockSize) =
          slice other.allTokenIds start (start + hasher.blockSize) := by
      unfold slice
      have shorter : start + hasher.blockSize ≤ bound := by omega
      rw [← min_eq_left shorter, ← take_take, ← take_take, tokens]
    have sameKeys := features start (start + hasher.blockSize) (by omega)
    have sameHash : blockHashAt hasher request start parent =
        blockHashAt hasher other start parent := by
      unfold blockHashAt joinExtraKeys genLoraExtraHashKeys genCacheSaltKeys
        genPromptEmbedsExtraHashKeys
      dsimp only
      rw [sameSlice, sameKeys, loraRequest, cacheSalt, promptEmbeds]
    simp only [chainHashes, sameHash, ih within]

end Chain

/-- The hashes one call computes for the request from scratch. -/
def batchBlockHashes (hasher : BlockHasher) (request : Request) : List Bytes :=
  requestBlockHasher hasher { request with blockHashes := [] }

/-- Hashing may resume at `start`: nothing is hashed beyond it, or hashing starts
at the first token, or only the last feature reaches into the new blocks. -/
def ResumesCleanly (features : List MultiModalFeature) (start stop : Nat) : Prop :=
  0 < start → start < stop →
    ∀ feature ∈ features.dropLast, feature.reaches start stop = false

instance (features : List MultiModalFeature)
    (start stop : Nat) : Decidable (ResumesCleanly features start stop) :=
  inferInstanceAs (Decidable (0 < start → start < stop →
    ∀ feature ∈ features.dropLast, feature.reaches start stop = false))

/-- The end of the last full block among a number of tokens. -/
def BlockHasher.fullEnd (hasher : BlockHasher) (numTokens : Nat) : Nat :=
  numTokens / hasher.blockSize * hasher.blockSize

theorem BlockHasher.fullEnd_le (hasher : BlockHasher) (numTokens : Nat) :
    hasher.fullEnd numTokens ≤ numTokens :=
  Nat.div_mul_le_self _ _

/-- A clean resumption extends the stored hashes by the chain of new blocks. -/
theorem requestBlockHasher_eq_chainHashes (hasher : BlockHasher) (request : Request)
    (sorted : Sorted request.mmFeatures) (missing : Nat)
    (count : request.numTokens / hasher.blockSize = request.blockHashes.length + missing)
    (resumes : ResumesCleanly request.mmFeatures (request.blockHashes.length * hasher.blockSize)
      (hasher.fullEnd request.numTokens)) :
    requestBlockHasher hasher request = chainHashes hasher request missing
        (request.blockHashes.length * hasher.blockSize) request.blockHashes.getLast? := by
  have positive := hasher.blockSizePositive
  have full := hasher.fullEnd_le request.numTokens
  have exhausted : request.numTokens < hasher.fullEnd request.numTokens + hasher.blockSize :=
    Nat.lt_div_mul_add positive
  have stop : hasher.fullEnd request.numTokens =
      request.blockHashes.length * hasher.blockSize + missing * hasher.blockSize := by
    rw [BlockHasher.fullEnd, count, Nat.add_mul]
  unfold requestBlockHasher
  dsimp only
  split
  · next early =>
    have none_missing : missing = 0 := by
      by_contra some_missing
      have atLeastOne : hasher.blockSize ≤ missing * hasher.blockSize :=
        Nat.le_mul_of_pos_left _ (Nat.pos_of_ne_zero some_missing)
      omega
    rw [none_missing]
    rfl
  · next further =>
    have someMissing : 0 < missing := by
      by_contra noneMissing
      have zero : missing = 0 := by omega
      rw [zero] at stop
      omega
    have fuel : missing < request.numTokens + 1 := by
      have bound : missing ≤ missing * hasher.blockSize := Nat.le_mul_of_pos_right _ positive
      omega
    apply hashBlocksFrom_eq_chainHashes sorted _ fuel
    · split <;> omega
    · omega
    · omega
    · split
      · next behind =>
        intro feature mem
        have position : cursorPosition request.mmFeatures (-1) = request.mmFeatures.length - 1 := by
          unfold cursorPosition
          rw [if_pos (by omega)]
          omega
        rw [position, ← List.dropLast_eq_take] at mem
        rw [← stop]
        exact resumes behind (by omega) feature mem
      · intro feature mem
        simp [cursorPosition] at mem

variable {hasher : BlockHasher} {request : Request}

/-- One pass hashes the chain of all full blocks. -/
theorem batchBlockHashes_eq_chainHashes (sorted : Sorted request.mmFeatures) :
    batchBlockHashes hasher request =
      chainHashes hasher request (request.numTokens / hasher.blockSize) 0 none := by
  have whole : requestBlockHasher hasher { request with blockHashes := [] } =
      chainHashes hasher { request with blockHashes := [] }
        (request.numTokens / hasher.blockSize) (0 * hasher.blockSize) none :=
    requestBlockHasher_eq_chainHashes hasher { request with blockHashes := [] } sorted _
      (Nat.zero_add _).symm (by simp [ResumesCleanly])
  unfold batchBlockHashes
  rw [whole, Nat.zero_mul]
  refine chainHashes_congr { request with blockHashes := [] } request request.numTokens
    rfl (fun _ _ _ => rfl) rfl rfl rfl ?_ none
  have full := hasher.fullEnd_le request.numTokens
  unfold BlockHasher.fullEnd at full
  omega

/-- Stored hashes that are those of one pass. -/
structure HashesMatch (hasher : BlockHasher) (request : Request) : Prop where
  sorted : Sorted request.mmFeatures
  hashes : request.blockHashes = batchBlockHashes hasher request

/-- Only the hashed contents of a request matter. -/
theorem HashesMatch.congr {other : Request}
    (matching : HashesMatch hasher request) (hashes : other.blockHashes = request.blockHashes)
    (tokens : other.allTokenIds = request.allTokenIds)
    (features : other.mmFeatures = request.mmFeatures)
    (loraRequest : other.loraRequest = request.loraRequest)
    (cacheSalt : other.cacheSalt = request.cacheSalt)
    (promptEmbeds : other.promptEmbeds = request.promptEmbeds) : HashesMatch hasher other := by
  have sorted : Sorted other.mmFeatures := features ▸ matching.sorted
  have sameTokens : other.numTokens = request.numTokens := by
    unfold Request.numTokens
    rw [tokens]
  refine ⟨sorted, ?_⟩
  rw [hashes, matching.hashes, batchBlockHashes_eq_chainHashes matching.sorted,
    batchBlockHashes_eq_chainHashes sorted, sameTokens]
  refine chainHashes_congr request other request.numTokens (by rw [tokens])
    (fun _ _ _ => by rw [features]) loraRequest.symm cacheSalt.symm promptEmbeds.symm ?_ none
  have full := hasher.fullEnd_le request.numTokens
  unfold BlockHasher.fullEnd at full
  omega

/-- Replacing the tokens behind the stored hashes and appending features there
keeps the stored hashes right, and a clean resumption completes them. -/
theorem HashesMatch.extend {extended : Request}
    (matching : HashesMatch hasher request) (sorted : Sorted extended.mmFeatures)
    (hashes : extended.blockHashes = request.blockHashes) {kept : Nat}
    (covered : request.blockHashes.length * hasher.blockSize ≤ kept)
    (tokens : extended.allTokenIds.take kept = request.allTokenIds.take kept)
    (remaining : kept ≤ extended.numTokens) {added : List MultiModalFeature}
    (features : extended.mmFeatures = request.mmFeatures ++ added)
    (behind : ∀ feature ∈ added, kept ≤ feature.mmPosition.offset)
    (loraRequest : extended.loraRequest = request.loraRequest)
    (cacheSalt : extended.cacheSalt = request.cacheSalt)
    (promptEmbeds : extended.promptEmbeds = request.promptEmbeds)
    (resumes : ResumesCleanly extended.mmFeatures (request.blockHashes.length * hasher.blockSize)
      (hasher.fullEnd extended.numTokens)) :
    HashesMatch hasher (extended.updateBlockHashes (some hasher)) := by
  set stored := request.blockHashes.length with storedDefinition
  have oldBlocks : stored = request.numTokens / hasher.blockSize := by
    rw [storedDefinition, matching.hashes, batchBlockHashes_eq_chainHashes matching.sorted,
      chainHashes_length]
  have oldHashes : extended.blockHashes = chainHashes hasher extended stored 0 none := by
    rw [hashes, matching.hashes, batchBlockHashes_eq_chainHashes matching.sorted, ← oldBlocks]
    refine chainHashes_congr request extended kept tokens.symm ?_ loraRequest.symm cacheSalt.symm
      promptEmbeds.symm (by omega) none
    intro startTokenIdx endTokenIdx within
    have outside : mmKeys added startTokenIdx endTokenIdx = [] := by
      apply mmKeys_eq_nil
      intro feature mem
      exact reaches_eq_false.mpr (Or.inl (le_trans within (behind feature mem)))
    rw [features, mmKeys_append, outside, List.append_nil]
  obtain ⟨missing, blocks⟩ : ∃ missing,
      extended.numTokens / hasher.blockSize = stored + missing := by
    have fits : stored ≤ extended.numTokens / hasher.blockSize :=
      (Nat.le_div_iff_mul_le hasher.blockSizePositive).mpr (by omega)
    exact ⟨extended.numTokens / hasher.blockSize - stored, by omega⟩
  have newHashes := requestBlockHasher_eq_chainHashes hasher extended sorted missing
    (by rw [hashes, blocks]) (by rw [hashes]; exact resumes)
  refine ⟨sorted, ?_⟩
  have batch : batchBlockHashes hasher (extended.updateBlockHashes (some hasher)) =
      batchBlockHashes hasher extended := rfl
  have parent : (chainHashes hasher extended stored 0 none).getLast?.or none =
      extended.blockHashes.getLast? := by
    rw [oldHashes, Option.or_none]
  rw [batch, batchBlockHashes_eq_chainHashes sorted, blocks, chainHashes_add, parent]
  simp only [Request.updateBlockHashes, newHashes, hashes]
  rw [← hashes, oldHashes, Nat.zero_add]
  simp

/-- The operations that change the hashed contents of a request. -/
inductive HashingOperation where
  /-- Append generated tokens. -/
  | appendOutputTokenIds (tokenIds : List TokenId)
  /-- Continue the session after the scheduler computed some tokens. -/
  | updateAsSession (numComputedTokens : Int) (update : StreamingUpdate)

namespace HashingOperation

/-- The request after an operation. -/
def apply (hasher : BlockHasher) (request : Request) : HashingOperation → Except EngineError Request
  | .appendOutputTokenIds tokenIds =>
    .ok (request.appendOutputTokenIds (some hasher) tokenIds)
  | .updateAsSession numComputedTokens update =>
    { request with numComputedTokens := numComputedTokens }.updateAsSession (some hasher) update

/-- The features after a session update that keeps a number of tokens. -/
def featuresAfter (request : Request) (kept : Nat)
    (update : StreamingUpdate) : List MultiModalFeature :=
  request.mmFeatures ++ update.mmFeatures.map (Request.shiftFeature kept)

/-- The features stay sorted and do not overlap. -/
def WellPlaced (request : Request) : HashingOperation → Prop
  | .appendOutputTokenIds _ => True
  | .updateAsSession numComputedTokens update =>
    let kept := { request with numComputedTokens := numComputedTokens }.keptTokens
    Sorted (featuresAfter request kept update)

/-- No stored hash covers a discarded token, and hashing resumes cleanly. -/
def KeepsHashes (hasher : BlockHasher) (request : Request) : HashingOperation → Prop
  | .appendOutputTokenIds tokenIds =>
    ResumesCleanly request.mmFeatures (request.blockHashes.length * hasher.blockSize)
      (hasher.fullEnd (request.numTokens + tokenIds.length))
  | .updateAsSession numComputedTokens update =>
    let kept := { request with numComputedTokens := numComputedTokens }.keptTokens
    request.blockHashes.length * hasher.blockSize ≤ kept ∧
      ResumesCleanly (featuresAfter request kept update)
        (request.blockHashes.length * hasher.blockSize)
        (hasher.fullEnd (kept + (update.promptTokenIds.getD []).length))

instance (request : Request) :
    (operation : HashingOperation) → Decidable (WellPlaced request operation)
  | .appendOutputTokenIds _ => inferInstanceAs (Decidable True)
  | .updateAsSession _ _ => inferInstanceAs (Decidable (Sorted _))

instance (hasher : BlockHasher) (request : Request) :
    (operation : HashingOperation) → Decidable (KeepsHashes hasher request operation)
  | .appendOutputTokenIds _ => inferInstanceAs (Decidable (ResumesCleanly _ _ _))
  | .updateAsSession _ _ => inferInstanceAs (Decidable (_ ≤ _ ∧ ResumesCleanly _ _ _))

end HashingOperation

open HashingOperation

/-- A new request is hashed in one pass. -/
theorem hashesMatch_of_init {arguments : Request.Arguments} (sorted : Sorted arguments.mmFeatures)
    (constructed : Request.init (some hasher) arguments = .ok request) :
    HashesMatch hasher request := by
  obtain ⟨⟨maxTokens, status⟩, _, rest⟩ := bind_eq_ok.mp constructed
  obtain ⟨numPromptTokens, _, built⟩ := bind_eq_ok.mp rest
  cases built
  exact ⟨sorted, rfl⟩

section

variable (matching : HashesMatch hasher request)

include matching

theorem hashesMatch_of_appendOutputTokenIds
    (keeps : KeepsHashes hasher request (.appendOutputTokenIds tokenIds)) :
    HashesMatch hasher (request.appendOutputTokenIds (some hasher) tokenIds) := by
  have stored : request.blockHashes.length * hasher.blockSize ≤ request.numTokens := by
    rw [matching.hashes, batchBlockHashes_eq_chainHashes matching.sorted, chainHashes_length]
    exact hasher.fullEnd_le request.numTokens
  refine matching.extend matching.sorted rfl stored ?_ ?_ (List.append_nil _).symm
    (by simp) rfl rfl rfl ?_
  · simp [Request.numTokens]
  · simp [Request.numTokens]
  · simpa [Request.numTokens, KeepsHashes] using keeps

theorem hashesMatch_of_updateAsSession
    (placed : Sorted (featuresAfter request request.keptTokens update))
    (covered : request.blockHashes.length * hasher.blockSize ≤ request.keptTokens)
    (resumes : ResumesCleanly (featuresAfter request request.keptTokens update)
      (request.blockHashes.length * hasher.blockSize)
      (hasher.fullEnd (request.keptTokens + (update.promptTokenIds.getD []).length)))
    (updated : request.updateAsSession (some hasher) update = .ok session) :
    HashesMatch hasher session := by
  have keptBound : request.keptTokens ≤ request.allTokenIds.length :=
    Request.sliceIndex_le _ _
  unfold Request.updateAsSession at updated
  split at updated
  · cases updated
  · next promptTokenIds _ =>
    cases updated
    have length : (Request.extendSession update promptTokenIds request).numTokens =
        request.keptTokens + (update.promptTokenIds.getD []).length := by
      simp only [Request.numTokens, Request.extendSession, List.length_append]
      rw [List.length_take_of_le keptBound]
    have extended : HashesMatch hasher
        ((Request.extendSession update promptTokenIds request).updateBlockHashes
          (some hasher)) := by
      refine matching.extend placed rfl covered ?_ ?_ rfl ?_ rfl rfl rfl ?_
      · simp [Request.extendSession, keptBound]
      · omega
      · intro feature mem
        obtain ⟨original, _, rfl⟩ := List.mem_map.mp mem
        exact Nat.le_add_left ..
      · rw [length]
        exact resumes
    exact extended.congr rfl rfl rfl rfl rfl rfl

theorem hashesMatch_of_apply {next : Request} (placed : WellPlaced request operation)
    (keeps : KeepsHashes hasher request operation)
    (applied : operation.apply hasher request = .ok next) : HashesMatch hasher next := by
  cases operation with
  | appendOutputTokenIds tokenIds =>
    cases applied
    exact hashesMatch_of_appendOutputTokenIds matching keeps
  | updateAsSession numComputedTokens update =>
    have computed : HashesMatch hasher
        { request with numComputedTokens := numComputedTokens } :=
      matching.congr rfl rfl rfl rfl rfl rfl
    exact hashesMatch_of_updateAsSession computed placed keeps.1 keeps.2 applied

end

/-- Whenever no operation discards a hashed token or resumes hashing where an
earlier feature reaches into the new blocks, the stored hashes are those of one
pass over the request. -/
theorem blockHashes_eq_batchBlockHashes_of_run (hasher : BlockHasher)
    (arguments : Request.Arguments) (operations : List HashingOperation)
    {request final : Request}
    (sorted : Sorted arguments.mmFeatures)
    (constructed : Request.init (some hasher) arguments = .ok request)
    (along : Machine.Along (HashingOperation.apply hasher) (fun request operation =>
        WellPlaced request operation ∧ KeepsHashes hasher request operation)
      request operations)
    (reached : Machine.run (HashingOperation.apply hasher) request operations = .ok final) :
    final.blockHashes = batchBlockHashes hasher final := by
  have matching : HashesMatch hasher final :=
    Machine.invariant_of_run (fun _ _ _ holds condition applied =>
        hashesMatch_of_apply holds condition.1 condition.2 applied)
      (hashesMatch_of_init sorted constructed) along reached
  exact matching.hashes

/-- A hasher of blocks of four tokens that adds up the tokens and counts the
extra keys. -/
def countingHasher : BlockHasher where
  blockSize := 4
  blockSizePositive := by decide
  hashFunction _ tokenIds extraKeys := tokenIds.sum.toNat + (extraKeys.getD []).length
  noneHash := 1
  embedsHash rows := rows.sum

/-- A prompt of five tokens with an image in its first block. -/
def oneImage : Request.Arguments where
  requestId := 1
  promptTokenIds := some [1, 2, 3, 4, 5]
  samplingParams := some { maxTokens := 8 }
  mmFeatures := [{ identifier := 1, mmPosition := { offset := 1, length := 2 } }]
  resumable := true

/-- A session input that brings an image of its own. -/
def inputWithImage : StreamingUpdate where
  mmFeatures := [{ identifier := 2, mmPosition := { offset := 1, length := 3 } }]
  promptTokenIds := some [9, 10, 11, 12]
  maxTokens := 8
  arrivalTime := 1
  samplingParams := some { maxTokens := 8 }

/-- Generated tokens fill the second block, all of them are computed, and the
session continues with another image. -/
theorem oneImage_blockHashes_eq_batchBlockHashes :
    ∃ request final, Request.init (some countingHasher) oneImage = .ok request ∧
        Machine.run (HashingOperation.apply countingHasher) request
          [.appendOutputTokenIds [6, 7, 8], .updateAsSession 8 inputWithImage] = .ok final ∧
        final.blockHashes = batchBlockHashes countingHasher final := by
  refine ⟨_, _, rfl, rfl, blockHashes_eq_batchBlockHashes_of_run countingHasher oneImage
    [.appendOutputTokenIds [6, 7, 8], .updateAsSession 8 inputWithImage] ?_ rfl ?_ rfl⟩
  · decide
  · refine ⟨by decide, fun next applied => ?_⟩
    cases applied
    exact ⟨by decide, fun _ _ => trivial⟩

/-- A prompt of seven tokens with two images in its partly filled second block. -/
def twoImages : Request.Arguments where
  requestId := 1
  promptTokenIds := some [1, 2, 3, 4, 5, 6, 7]
  samplingParams := some { maxTokens := 8 }
  mmFeatures :=
    [{ identifier := 1, mmPosition := { offset := 4, length := 1 } },
      { identifier := 2, mmPosition := { offset := 5, length := 1 } }]

/-- A session whose first prompt leaves one token of the first block open. -/
def shortSession : Request.Arguments where
  requestId := 1
  promptTokenIds := some [1, 2, 3]
  samplingParams := some { maxTokens := 8 }
  resumable := true

/-- The next input of the session. -/
def nextInput : StreamingUpdate where
  mmFeatures := []
  promptTokenIds := some [5, 6]
  maxTokens := 8
  arrivalTime := 1
  samplingParams := some { maxTokens := 8 }

/-- The run from a constructed request ends with hashes that differ from those of
one pass. -/
def EndsWithOtherHashes (hasher : BlockHasher) (arguments : Request.Arguments)
    (operations : List HashingOperation) : Prop :=
  ∃ request final, Request.init (some hasher) arguments = .ok request ∧
      Machine.Along (HashingOperation.apply hasher)
        (fun request operation => WellPlaced request operation) request operations ∧
      Machine.run (HashingOperation.apply hasher) request operations = .ok final ∧
      final.blockHashes ≠ batchBlockHashes hasher final

/-- The second block of the two images is completed by a generated token, and the
resumed hasher only sees the second image; the session keeps the hash of a block
whose last token it discards. -/
theorem incremental_hashes_differ :
    (Sorted twoImages.mmFeatures ∧
      EndsWithOtherHashes countingHasher twoImages [.appendOutputTokenIds [8]]) ∧
    (Sorted shortSession.mmFeatures ∧ EndsWithOtherHashes countingHasher shortSession
        [.appendOutputTokenIds [9], .updateAsSession 3 nextInput]) := by
  refine ⟨⟨by decide, ?_⟩, ⟨by decide, ?_⟩⟩
  · exact ⟨_, _, rfl, ⟨trivial, fun _ _ => trivial⟩, rfl, by decide⟩
  · refine ⟨_, _, rfl, ⟨trivial, fun next applied => ⟨?_, fun _ _ => trivial⟩⟩, rfl, by decide⟩
    cases applied
    decide

end TokenCake
