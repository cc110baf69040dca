import Mathlib.Logic.Encodable.Basic
import Mathlib.Logic.Equiv.List
import TokenCake.Request.IncrementalHashing

/-!
# Isolation of the prefix cache

With a hash function without collisions a block hash determines everything that
entered the chain up to its block.  Two things escape it.  The extra keys of a block
are one untagged list: in a first block without multimodal input an adapter name
cannot be told from a cache salt.  And the walk over the multimodal items stops at the
first one that goes on behind the block: an item that overlaps it may be hidden.
-/

namespace TokenCake

open List Nat Request MultiModalFeature

/-- An item is known by its identifier and its offset. -/
def MultiModalFeature.item (feature : MultiModalFeature) : Text × Nat :=
  (feature.identifier, feature.mmPosition.offset)

/-- The hash function has no collisions and never produces the parent of first
blocks. -/
structure BlockHasher.CollisionFree (hasher : BlockHasher) : Prop where
  injective : ∀ {parent parent' : Bytes} {tokens tokens' : List TokenId}
    {keys keys' : Option (List ExtraKey)},
    hasher.hashFunction parent tokens keys = hasher.hashFunction parent' tokens' keys' →
      parent = parent' ∧ tokens = tokens' ∧ keys = keys'
  ne_noneHash : ∀ parent tokens keys, hasher.hashFunction parent tokens keys ≠ hasher.noneHash

/-- A request without embeddings, whose multimodal inputs are in the order of their
offsets and cover at least one token each. -/
structure Request.PlainlyHashed (request : Request) : Prop where
  promptEmbeds : request.promptEmbeds = none
  ordered : request.mmFeatures.Pairwise fun earlier later =>
    earlier.mmPosition.offset ≤ later.mmPosition.offset
  covering : ∀ feature ∈ request.mmFeatures, 0 < feature.mmPosition.length

namespace Request

variable (request : Request)

/-- The adapter name, if the request uses an adapter. -/
def loraName : Option Text := request.loraRequest.map LoRARequest.loraName

/-- The cache salt, where an empty salt counts as none. -/
def effectiveSalt : Option Text := request.cacheSalt.filter fun salt => !decide (salt = 0)

/-- The multimodal items that overlap the first tokens: identifier and offset. -/
def itemsBefore (stop : Nat) : List (Text × Nat) :=
  (request.mmFeatures.filter (reaches 0 stop)).map item

/-- The items up to the first one that goes on behind a position. -/
def itemsWithin (features : List MultiModalFeature) (stop : Nat) : List MultiModalFeature :=
  features.take ((features.takeWhile fun feature => decide (feature.stop ≤ stop)).length + 1)

/-- The items that a block's hash covers: those that overlap the block, up to the first one
that goes on behind it, and none if the last item ended before the block. -/
def itemsSeen (start stop : Nat) : List (Text × Nat) :=
  if request.mmFeatures.getLast?.all fun last => decide (last.stop ≤ start) then []
  else ((itemsWithin request.mmFeatures stop).filter (reaches start stop)).map item

/-- An item overlaps the first blocks, but the hash of none of them covers it. -/
def Hides (size count : Nat) (item : Text × Nat) : Prop :=
  item ∈ request.itemsBefore (count * size) ∧
    ∀ index < count, item ∉ request.itemsSeen (index * size) ((index + 1) * size)

/-- What the cached values of the first tokens of two requests depend on is the
same. -/
structure SharesPrefix (first second : Request) (stop : Nat) : Prop where
  tokens : first.allTokenIds.take stop = second.allTokenIds.take stop
  loraName : first.loraName = second.loraName
  cacheSalt : first.effectiveSalt = second.effectiveSalt
  items : ∀ item, item ∈ first.itemsBefore stop ↔ item ∈ second.itemsBefore stop

/-- The adapter name of one request is the cache salt of another one; the former
has no salt and the latter no adapter. -/
def AdapterIsSaltOf (first second : Request) : Prop :=
  first.loraName.isSome ∧ first.effectiveSalt = none ∧ second.loraName = none ∧
    second.effectiveSalt = first.loraName

instance (first second : Request) : Decidable (first.AdapterIsSaltOf second) :=
  inferInstanceAs (Decidable (_ ∧ _ ∧ _ ∧ _))

/-- The first blocks of two requests differ only in that one request's adapter is
the other one's salt. -/
def ConfusesAdapterAndSalt (hasher : BlockHasher) (first second : Request) : Prop :=
  first.allTokenIds.take hasher.blockSize = second.allTokenIds.take hasher.blockSize ∧
    first.itemsBefore hasher.blockSize = [] ∧ second.itemsBefore hasher.blockSize = [] ∧
    (first.AdapterIsSaltOf second ∨ second.AdapterIsSaltOf first)

instance (hasher : BlockHasher) (first second : Request) :
    Decidable (ConfusesAdapterAndSalt hasher first second) :=
  inferInstanceAs (Decidable (_ ∧ _ ∧ _ ∧ _))

/-- Two requests agree in all that the hashes of the first blocks cover, but an item of one of
them is hidden and is not an item of the other one. -/
structure DiffersUnseen (first second : Request) (size count : Nat) : Prop where
  tokens : first.allTokenIds.take (count * size) = second.allTokenIds.take (count * size)
  loraName : first.loraName = second.loraName
  cacheSalt : first.effectiveSalt = second.effectiveSalt
  seen : ∀ index < count, first.itemsSeen (index * size) ((index + 1) * size) =
    second.itemsSeen (index * size) ((index + 1) * size)
  hidden : ∃ item,
    first.Hides size count item ∧ item ∉ second.itemsBefore (count * size) ∨
      second.Hides size count item ∧ item ∉ first.itemsBefore (count * size)

end Request

variable {stop start count : Nat} {keys' keys : List ExtraKey}

variable (request : Request)

section Keys

/-- The key of a text, if there is one. -/
def textKeys (value : Option Text) : List ExtraKey := value.toList.map .text

/-- Whether a key belongs to a multimodal input. -/
def ExtraKey.isMultiModal : ExtraKey → Bool
  | .multiModal _ _ => true
  | .text _ | .bytes _ => false

theorem genLoraExtraHashKeys_eq : genLoraExtraHashKeys request = textKeys request.loraName := by
  unfold genLoraExtraHashKeys textKeys loraName
  cases request.loraRequest <;> rfl

theorem genCacheSaltKeys_first : genCacheSaltKeys request 0 = textKeys request.effectiveSalt := by
  unfold genCacheSaltKeys textKeys effectiveSalt
  cases request.cacheSalt with
  | none => rfl
  | some salt =>
    by_cases empty : salt = 0
    · simp [empty, Option.filter]
    · simp [empty, Option.filter]

theorem genCacheSaltKeys_later {start : Nat} (later : start ≠ 0) :
    genCacheSaltKeys request start = textKeys none := by
  unfold genCacheSaltKeys
  cases request.cacheSalt with
  | none => rfl
  | some salt => simp [later, textKeys]

/-- The keys of some items in a block. -/
def itemKeys (start : Nat) (items : List (Text × Nat)) : List ExtraKey :=
  items.map fun item => .multiModal item.1 ((item.2 : Int) - (start : Int))

theorem itemKeys_injective (start : Nat) : Function.Injective (itemKeys start) := by
  refine map_injective_iff.mpr fun left right same => ?_
  injection same with identifiers offsets
  exact Prod.ext identifiers (by omega)

theorem isMultiModal_of_mem_itemKeys {key : ExtraKey} (mem : key ∈ itemKeys start items) :
    key.isMultiModal = true := by
  obtain ⟨item, -, rfl⟩ := mem_map.mp mem
  rfl

theorem filter_textKeys (value : Option Text) :
    (textKeys value).filter ExtraKey.isMultiModal = [] := by
  cases value <;> rfl

/-- An untagged list of an adapter, multimodal keys and a salt can be read in one
way only, unless it consists of a single text. -/
theorem untagged_keys (multiModal : ∀ key ∈ keys, key.isMultiModal = true)
    (multiModal' : ∀ key ∈ keys', key.isMultiModal = true)
    (same : textKeys adapter ++ keys ++ textKeys salt =
      textKeys adapter' ++ keys' ++ textKeys salt') :
    keys = keys' ∧ ((adapter = adapter' ∧ salt = salt') ∨ (keys = [] ∧
          ((adapter.isSome ∧ salt = none ∧ adapter' = none ∧ salt' = adapter) ∨
            (adapter'.isSome ∧ salt' = none ∧ adapter = none ∧ salt = adapter')))) := by
  have sameKeys : keys = keys' := by
    have filtered := congrArg (filter ExtraKey.isMultiModal) same
    simpa [filter_textKeys, filter_eq_self.mpr multiModal,
      filter_eq_self.mpr multiModal'] using filtered
  subst sameKeys
  refine ⟨rfl, ?_⟩
  cases keys with
  | nil =>
    cases adapter <;> cases adapter' <;> cases salt <;> cases salt' <;> simp_all [textKeys]
  | cons key rest =>
    refine Or.inl ?_
    have notText : ∀ value, key ≠ .text value := by
      intro value equal
      have reads := multiModal key mem_cons_self
      rw [equal] at reads
      cases reads
    have sameAdapter : adapter = adapter' := by
      cases adapter <;> cases adapter' <;> simp_all [textKeys]
      all_goals exact absurd same.1.symm (notText _)
    subst sameAdapter
    refine ⟨rfl, ?_⟩
    rw [append_assoc, append_assoc] at same
    cases salt <;> cases salt' <;> simp_all [textKeys]

end Keys

section Walk

variable {features : List MultiModalFeature}

theorem itemsWithin_cons (feature : MultiModalFeature) (rest : List MultiModalFeature) :
    itemsWithin (feature :: rest) stop =
      feature :: if feature.stop ≤ stop then itemsWithin rest stop else [] := by
  unfold itemsWithin
  rw [takeWhile_cons]
  split <;> simp_all

/-- The walk collects the keys of the overlapping items, up to the first one that goes on
behind the block. -/
theorem mmExtraHashKeysFrom_eq (covering : ∀ feature ∈ features, 0 < feature.mmPosition.length)
    (inner : start < stop) (cursor : Int) :
    (mmExtraHashKeysFrom start stop features cursor).1 =
      itemKeys start (((itemsWithin features stop).filter (reaches start stop)).map item) := by
  induction features generalizing cursor with
  | nil => rfl
  | cons feature rest ih =>
    obtain ⟨covered, covering⟩ := forall_mem_cons.mp covering
    have ends : feature.stop = feature.mmPosition.offset + feature.mmPosition.length := rfl
    rw [itemsWithin_cons]
    simp only [mmExtraHashKeysFrom, gt_iff_lt, ge_iff_le, ← ends]
    split
    · next reached =>
      split
      · next passed =>
        have outside : feature.reaches start stop = false := reaches_eq_false.mpr (.inr passed)
        rw [ih covering, if_pos (by omega), filter_cons_of_neg (by simp [outside])]
      · next inside =>
        have hit : feature.reaches start stop = true :=
          decide_eq_true ⟨reached, not_le.mp inside⟩
        rw [filter_cons_of_pos hit]
        split
        · simp only [ih covering]
          rfl
        · rfl
    · next ahead =>
      have outside : feature.reaches start stop = false :=
        reaches_eq_false.mpr (.inl (not_lt.mp ahead))
      rw [if_neg (by omega), filter_cons_of_neg (by simp [outside])]
      rfl

/-- Items that ended before a block hide nothing in it. -/
theorem itemsWithin_drop {cursor : Nat} (inner : start ≤ stop)
    (passed : ∀ feature ∈ features.take cursor, feature.stop ≤ start) :
    (itemsWithin (features.drop cursor) stop).filter (reaches start stop) =
      (itemsWithin features stop).filter (reaches start stop) := by
  induction cursor generalizing features with
  | zero => rfl
  | succ cursor ih =>
    cases features with
    | nil => rfl
    | cons feature rest =>
      obtain ⟨ended, passed⟩ := forall_mem_cons.mp passed
      have outside : feature.reaches start stop = false := reaches_eq_false.mpr (.inr ended)
      rw [drop_succ_cons, ih passed, itemsWithin_cons, if_pos (ended.trans inner),
        filter_cons_of_neg (by simp [outside])]

variable {request} (covering : ∀ feature ∈ request.mmFeatures, 0 < feature.mmPosition.length)
include covering

/-- Behind a cursor that passed ended items only, the keys of a block are those of the items
that are seen in it, and the next cursor is of the same kind. -/
theorem genMmExtraHashKeys_eq {cursor : Nat} (inner : start < stop)
    (passed : ∀ feature ∈ request.mmFeatures.take cursor, feature.stop ≤ start) :
    ∃ next : Nat, genMmExtraHashKeys request start stop cursor =
        (itemKeys start (request.itemsSeen start stop), (next : Int)) ∧
      ∀ feature ∈ request.mmFeatures.take next, feature.stop ≤ stop := by
  have later : ∀ feature ∈ request.mmFeatures.take cursor, feature.stop ≤ stop :=
    fun feature mem => (passed feature mem).trans inner.le
  unfold genMmExtraHashKeys itemsSeen
  cases request.mmFeatures.getLast? with
  | none => exact ⟨cursor, rfl, later⟩
  | some last =>
    change ∃ next : Nat, (if last.stop ≤ start then _ else _) =
      (itemKeys start (if decide (last.stop ≤ start) = true then _ else _), _) ∧ _
    by_cases ended : last.stop ≤ start
    · rw [if_pos ended, if_pos (decide_eq_true ended)]
      exact ⟨cursor, rfl, later⟩
    · obtain ⟨further, moved, within⟩ := mmExtraHashKeysFrom_cursor
        (request.mmFeatures.drop cursor) start stop inner.le (cursor : Int)
      have ahead : ¬ decide (last.stop ≤ start) = true := by simpa using ended
      rw [if_neg ended, if_neg ahead]
      dsimp only
      rw [if_neg (Int.natCast_nonneg cursor).not_gt, Int.toNat_natCast]
      refine ⟨cursor + further, Prod.ext ?_ moved, ?_⟩
      · rw [mmExtraHashKeysFrom_eq (fun _ mem => covering _ (mem_of_mem_drop mem)) inner,
          itemsWithin_drop inner.le passed]
      · intro feature mem
        rw [take_add, mem_append] at mem
        exact mem.elim (later feature) (within feature)

end Walk

variable {hasher : BlockHasher} {first second : Request}

section Chain

/-- Without embeddings the keys of a block are adapter, multimodal keys and salt. -/
theorem joinExtraKeys_inj (plain : first.promptEmbeds = none) (plain' : second.promptEmbeds = none)
    (same : joinExtraKeys hasher first start stop keys =
      joinExtraKeys hasher second start stop keys') :
    textKeys first.loraName ++ keys ++ genCacheSaltKeys first start =
      textKeys second.loraName ++ keys' ++ genCacheSaltKeys second start := by
  simp only [joinExtraKeys, genLoraExtraHashKeys_eq, genPromptEmbedsExtraHashKeys, plain, plain',
    append_nil] at same
  split at same <;> split at same
  · next empty empty' =>
    rw [isEmpty_iff.mp empty, isEmpty_iff.mp empty']
  · cases same
  · cases same
  · exact Option.some.inj same

/-- The hash of the block that starts at a position, given its parent's hash. -/
def seenHashAt (hasher : BlockHasher) (request : Request) (start : Nat) (parent : Option Bytes) :
    Bytes :=
  let stop := start + hasher.blockSize
  hashBlockTokens hasher parent (slice request.allTokenIds start stop)
    (joinExtraKeys hasher request start stop (itemKeys start (request.itemsSeen start stop)))

/-- The hash of the last of a number of blocks. -/
def lastHash (hasher : BlockHasher) (request : Request) : Nat → Option Bytes
  | 0 => none
  | count + 1 =>
    some (seenHashAt hasher request (count * hasher.blockSize) (lastHash hasher request count))

variable {index : Nat}

/-- The hashing loop hashes a full block and goes on behind it. -/
theorem hashBlocksFrom_succ {skipped cursor : Nat}
    (covering : ∀ feature ∈ first.mmFeatures, 0 < feature.mmPosition.length)
    (full : (skipped + 1) * hasher.blockSize ≤ first.numTokens)
    (passed : ∀ feature ∈ first.mmFeatures.take cursor,
      feature.stop ≤ skipped * hasher.blockSize) (fuel : Nat) :
    ∃ next : Nat, (∀ feature ∈ first.mmFeatures.take next,
        feature.stop ≤ (skipped + 1) * hasher.blockSize) ∧
      hashBlocksFrom hasher first (fuel + 1) (skipped * hasher.blockSize) cursor
          (lastHash hasher first skipped) =
        seenHashAt hasher first (skipped * hasher.blockSize) (lastHash hasher first skipped) ::
          hashBlocksFrom hasher first fuel ((skipped + 1) * hasher.blockSize) next
            (lastHash hasher first (skipped + 1)) := by
  obtain ⟨next, keys, passed⟩ := genMmExtraHashKeys_eq covering
    (lt_add_of_pos_right _ hasher.blockSizePositive) passed
  rw [succ_mul] at full ⊢
  refine ⟨next, passed, ?_⟩
  simp only [hashBlocksFrom, generateBlockHashExtraKeys, keys]
  rw [if_neg full.not_gt]
  rfl

/-- The hashing loop continues the chain behind a number of blocks. -/
theorem hashBlocksFrom_getElem? {skipped fuel cursor : Nat}
    (covering : ∀ feature ∈ first.mmFeatures, 0 < feature.mmPosition.length)
    (full : (skipped + index + 1) * hasher.blockSize ≤ first.numTokens) (enough : index < fuel)
    (passed : ∀ feature ∈ first.mmFeatures.take cursor,
      feature.stop ≤ skipped * hasher.blockSize) :
    (hashBlocksFrom hasher first fuel (skipped * hasher.blockSize) cursor
      (lastHash hasher first skipped))[index]? = lastHash hasher first (skipped + index + 1) := by
  induction index generalizing skipped fuel cursor with
  | zero =>
    obtain ⟨fuel, rfl⟩ := exists_eq_succ_of_ne_zero enough.ne_bot
    obtain ⟨next, -, hashed⟩ := hashBlocksFrom_succ covering full passed fuel
    rw [hashed]
    rfl
  | succ index ih =>
    obtain ⟨fuel, rfl⟩ := exists_eq_succ_of_ne_zero enough.ne_bot
    obtain ⟨next, passed, hashed⟩ := hashBlocksFrom_succ covering
      ((Nat.mul_le_mul_right _ (by omega)).trans full) passed fuel
    have position : skipped + (index + 1) + 1 = skipped + 1 + index + 1 := by omega
    rw [position] at full ⊢
    rw [hashed, getElem?_cons_succ]
    exact ih full (Nat.lt_of_succ_lt_succ enough) passed

theorem lastHash_withoutHashes (request : Request) (count : Nat) :
    lastHash hasher { request with blockHashes := [] } count = lastHash hasher request count := by
  induction count with
  | zero => rfl
  | succ count ih =>
    unfold lastHash
    rw [ih]
    rfl

/-- One pass produces the hash of a full block at its position. -/
theorem batchBlockHashes_getElem?
    (covering : ∀ feature ∈ first.mmFeatures, 0 < feature.mmPosition.length)
    (full : (index + 1) * hasher.blockSize ≤ first.numTokens) :
    (batchBlockHashes hasher first)[index]? = lastHash hasher first (index + 1) := by
  have positive := hasher.blockSizePositive
  have one : hasher.blockSize ≤ (index + 1) * hasher.blockSize :=
    Nat.le_mul_of_pos_left _ index.succ_pos
  have fuel : index + 1 ≤ (index + 1) * hasher.blockSize := Nat.le_mul_of_pos_right _ positive
  have hashed : (hashBlocksFrom hasher { first with blockHashes := [] } (first.numTokens + 1)
      (0 * hasher.blockSize) (0 : Nat) none)[index]? =
        lastHash hasher { first with blockHashes := [] } (0 + index + 1) :=
    hashBlocksFrom_getElem? covering (by rwa [zero_add]) (by omega) (by simp)
  rw [zero_mul, zero_add, lastHash_withoutHashes] at hashed
  unfold batchBlockHashes requestBlockHasher
  simp only [length_nil, zero_mul, zero_add]
  change (if hasher.blockSize > first.numTokens then _ else _)[index]? = _
  rw [if_neg (one.trans full).not_gt]
  exact hashed

variable (free : hasher.CollisionFree)
include free

theorem seenHashAt_inj (produced : ∀ value ∈ parent, value ≠ hasher.noneHash)
    (produced' : ∀ value ∈ parent', value ≠ hasher.noneHash) (both : parent.isSome = parent'.isSome)
    (same : seenHashAt hasher first start parent = seenHashAt hasher second start parent') :
    parent = parent' ∧ slice first.allTokenIds start (start + hasher.blockSize) =
        slice second.allTokenIds start (start + hasher.blockSize) ∧
      joinExtraKeys hasher first start (start + hasher.blockSize)
          (itemKeys start (first.itemsSeen start (start + hasher.blockSize))) =
        joinExtraKeys hasher second start (start + hasher.blockSize)
          (itemKeys start (second.itemsSeen start (start + hasher.blockSize))) := by
  obtain ⟨parents, tokens, keys⟩ := free.injective same
  refine ⟨?_, tokens, keys⟩
  cases parent with
  | none =>
    cases parent' with
    | none => rfl
    | some value => cases both
  | some value =>
    cases parent' with
    | none => cases both
    | some value' =>
      have distinct := produced value rfl
      have distinct' := produced' value' rfl
      dsimp only at parents
      split at parents <;> split at parents
      · next zero zero' => rw [zero, zero']
      · exact absurd parents.symm distinct'
      · exact absurd parents distinct
      · rw [parents]

theorem lastHash_ne_noneHash (request : Request)
    (count : Nat) : ∀ value ∈ lastHash hasher request count, value ≠ hasher.noneHash := by
  intro value mem
  cases count with
  | zero => cases mem
  | succ count =>
    cases mem
    exact free.ne_noneHash _ _ _

/-- Equal hashes after a number of blocks go back to equal tokens and keys in every
one of them. -/
theorem same_blocks_of_lastHash_eq
    (same : lastHash hasher first count = lastHash hasher second count) (within : index < count) :
    slice first.allTokenIds (index * hasher.blockSize) ((index + 1) * hasher.blockSize) =
        slice second.allTokenIds (index * hasher.blockSize) ((index + 1) * hasher.blockSize) ∧
      joinExtraKeys hasher first (index * hasher.blockSize) ((index + 1) * hasher.blockSize)
          (itemKeys (index * hasher.blockSize)
            (first.itemsSeen (index * hasher.blockSize) ((index + 1) * hasher.blockSize))) =
        joinExtraKeys hasher second (index * hasher.blockSize) ((index + 1) * hasher.blockSize)
          (itemKeys (index * hasher.blockSize)
            (second.itemsSeen (index * hasher.blockSize)
              ((index + 1) * hasher.blockSize))) := by
  induction count with
  | zero => omega
  | succ count ih =>
    have both : (lastHash hasher first count).isSome = (lastHash hasher second count).isSome := by
      cases count <;> rfl
    obtain ⟨parents, block⟩ :=
      seenHashAt_inj free (lastHash_ne_noneHash free first count)
        (lastHash_ne_noneHash free second count) both (Option.some.inj same)
    rcases Nat.lt_succ_iff_lt_or_eq.mp within with earlier | rfl
    · exact ih parents earlier
    · rw [Nat.succ_mul]
      exact block

end Chain

section Decoding

variable {size : Nat}

/-- Tokens that agree block by block agree. -/
theorem take_eq_of_slices
    (same : ∀ index < count, slice first.allTokenIds (index * size) ((index + 1) * size) =
        slice second.allTokenIds (index * size) ((index + 1) * size)) :
    first.allTokenIds.take (count * size) = second.allTokenIds.take (count * size) := by
  induction count with
  | zero => simp
  | succ count ih =>
    have front := ih fun index within => same index (by omega)
    have block := same count (by omega)
    have cut : ∀ tokens : List TokenId, tokens.take ((count + 1) * size) =
        tokens.take (count * size) ++ slice tokens (count * size) ((count + 1) * size) := by
      intro tokens
      have shorter : min (count * size) ((count + 1) * size) = count * size :=
        min_eq_left (mul_le_mul_right size (le_succ count))
      have halves := take_append_drop (count * size) (tokens.take ((count + 1) * size))
      rw [take_take, shorter] at halves
      exact halves.symm
    rw [cut, cut second.allTokenIds, front, block]

/-- A block's hash covers only items that overlap the blocks up to it. -/
theorem mem_itemsBefore_of_seen (request : Request) {item : Text × Nat} (within : index < count)
    (seen : item ∈ request.itemsSeen (index * size) ((index + 1) * size)) :
    item ∈ request.itemsBefore (count * size) := by
  unfold itemsSeen at seen
  split at seen
  · cases seen
  · obtain ⟨feature, mem, rfl⟩ := mem_map.mp seen
    obtain ⟨mem, overlaps⟩ := mem_filter.mp mem
    have upper : (index + 1) * size ≤ count * size := Nat.mul_le_mul_right _ within
    refine mem_map_of_mem (mem_filter.mpr ⟨mem_of_mem_take mem, ?_⟩)
    simp only [reaches, decide_eq_true_eq] at overlaps ⊢
    omega

/-- The first item that overlaps the first block is seen there. -/
theorem itemsSeen_eq_nil_iff (plain : first.PlainlyHashed) :
    first.itemsSeen 0 stop = [] ↔ first.itemsBefore stop = [] := by
  obtain ⟨-, ordered, covering⟩ := plain
  unfold itemsSeen itemsBefore
  cases isFeatures : first.mmFeatures with
  | nil => simp
  | cons feature rest =>
    rw [isFeatures] at ordered covering
    have ahead : ¬ ((feature :: rest).getLast?.all fun last => decide (last.stop ≤ 0)) = true := by
      have covered := covering _ (getLast_mem (cons_ne_nil feature rest))
      rw [getLast?_eq_getLast_of_ne_nil (cons_ne_nil feature rest)]
      simp only [Option.all_some, MultiModalFeature.stop]
      exact fun none => by have := of_decide_eq_true none; omega
    rw [if_neg ahead, map_eq_nil_iff, map_eq_nil_iff]
    constructor
    · intro unseen
      have covered := covering feature mem_cons_self
      have outside : stop ≤ feature.mmPosition.offset := by
        rw [itemsWithin_cons, filter_eq_nil_iff, forall_mem_cons] at unseen
        have missed := reaches_eq_false.mp (eq_false_of_ne_true unseen.1)
        unfold MultiModalFeature.stop at missed
        omega
      refine filter_eq_nil_iff.mpr fun other mem overlaps => ?_
      have behind : feature.mmPosition.offset ≤ other.mmPosition.offset := by
        rcases mem_cons.mp mem with rfl | later
        · exact le_rfl
        · exact rel_of_pairwise_cons ordered later
      rw [reaches_eq_false.mpr (.inl (outside.trans behind))] at overlaps
      cases overlaps
    · intro none
      rw [filter_eq_nil_iff] at none ⊢
      exact fun other mem => none other (mem_of_mem_take mem)

variable (plain : first.promptEmbeds = none) (plain' : second.promptEmbeds = none)
include plain plain'

/-- Behind the first block there is no salt, so the keys can be read in one way. -/
theorem read_later_block (later : start ≠ 0)
    (same : joinExtraKeys hasher first start stop (itemKeys start items) =
      joinExtraKeys hasher second start stop (itemKeys start items')) :
    items = items' ∧ first.loraName = second.loraName := by
  have keys := joinExtraKeys_inj plain plain' same
  rw [genCacheSaltKeys_later first later, genCacheSaltKeys_later second later] at keys
  obtain ⟨sameKeys, readings⟩ :=
    untagged_keys (fun _ => isMultiModal_of_mem_itemKeys) (fun _ => isMultiModal_of_mem_itemKeys)
      keys
  refine ⟨itemKeys_injective start sameKeys, ?_⟩
  rcases readings with ⟨adapters, -⟩ | ⟨-, ⟨adapter, -, -, missing⟩ | ⟨adapter, -, -, missing⟩⟩
  · exact adapters
  · rw [← missing] at adapter
    cases adapter
  · rw [← missing] at adapter
    cases adapter

/-- The keys of the first block have one reading, or two if they are one text. -/
theorem read_first_block
    (same : joinExtraKeys hasher first 0 stop (itemKeys 0 items) =
      joinExtraKeys hasher second 0 stop (itemKeys 0 items')) :
    items = items' ∧
      ((first.loraName = second.loraName ∧ first.effectiveSalt = second.effectiveSalt) ∨
        (items = [] ∧ (first.AdapterIsSaltOf second ∨ second.AdapterIsSaltOf first))) := by
  have keys := joinExtraKeys_inj plain plain' same
  rw [genCacheSaltKeys_first, genCacheSaltKeys_first] at keys
  obtain ⟨sameKeys, readings⟩ := untagged_keys (fun _ => isMultiModal_of_mem_itemKeys)
    (fun _ => isMultiModal_of_mem_itemKeys) keys
  exact ⟨itemKeys_injective 0 sameKeys, readings.imp_right (.imp_left map_eq_nil_iff.mp)⟩

/-- Equal hashes go back to equal tokens and seen items, and to the same adapter and salt,
unless the only block is one without items that confuses them. -/
theorem covered_of_lastHash_eq (free : hasher.CollisionFree)
    (same : lastHash hasher first (index + 1) = lastHash hasher second (index + 1)) :
    first.allTokenIds.take ((index + 1) * hasher.blockSize) =
        second.allTokenIds.take ((index + 1) * hasher.blockSize) ∧
      (∀ position < index + 1, first.itemsSeen (position * hasher.blockSize)
          ((position + 1) * hasher.blockSize) =
        second.itemsSeen (position * hasher.blockSize) ((position + 1) * hasher.blockSize)) ∧
      ((first.loraName = second.loraName ∧ first.effectiveSalt = second.effectiveSalt) ∨
        index = 0 ∧ first.itemsSeen 0 hasher.blockSize = [] ∧
          (first.AdapterIsSaltOf second ∨ second.AdapterIsSaltOf first)) := by
  have positive := hasher.blockSizePositive
  have blocks := fun position (within : position < index + 1) =>
    same_blocks_of_lastHash_eq free same within
  have firstBlock := (blocks 0 index.succ_pos).2
  rw [zero_mul, zero_add, one_mul] at firstBlock
  obtain ⟨firstItems, readings⟩ := read_first_block plain plain' firstBlock
  refine ⟨take_eq_of_slices fun position within => (blocks position within).1, ?_, ?_⟩
  · intro position within
    rcases position.eq_zero_or_pos with rfl | behind
    · rw [zero_mul, zero_add, one_mul]
      exact firstItems
    · exact (read_later_block plain plain' (mul_ne_zero behind.ne' positive.ne')
        (blocks position within).2).1
  · refine readings.imp_right fun ⟨empty, confused⟩ => ?_
    rcases index.eq_zero_or_pos with rfl | further
    · exact ⟨rfl, empty, confused⟩
    · -- The second block tells the adapters apart.
      have adapters := (read_later_block plain plain' (mul_ne_zero one_ne_zero positive.ne')
        (blocks 1 (by omega)).2).2
      rcases confused with ⟨present, -, missing, -⟩ | ⟨present, -, missing, -⟩
      · rw [adapters, missing] at present
        cases present
      · rw [← adapters, missing] at present
        cases present

end Decoding

section Confusion

/-- Texts of the same value leave the same keys behind, as adapter or as salt. -/
theorem joinExtraKeys_of_adapterIsSaltOf (plain : first.PlainlyHashed)
    (plain' : second.PlainlyHashed) (confused : first.AdapterIsSaltOf second) :
    joinExtraKeys hasher first 0 stop [] = joinExtraKeys hasher second 0 stop [] := by
  obtain ⟨-, noSalt, noAdapter, salt⟩ := confused
  simp only [joinExtraKeys, genLoraExtraHashKeys_eq, genCacheSaltKeys_first,
    genPromptEmbedsExtraHashKeys, plain.promptEmbeds, plain'.promptEmbeds, noSalt, noAdapter, salt]
  simp [textKeys]

/-- Requests that confuse an adapter with a salt have the same first hash. -/
theorem lastHash_eq_of_confuses (plain : first.PlainlyHashed)
    (plain' : second.PlainlyHashed) (confused : Request.ConfusesAdapterAndSalt hasher first second) :
    lastHash hasher first 1 = lastHash hasher second 1 := by
  obtain ⟨tokens, noItems, noItems', texts⟩ := confused
  rw [← itemsSeen_eq_nil_iff plain] at noItems
  rw [← itemsSeen_eq_nil_iff plain'] at noItems'
  have keys : joinExtraKeys hasher first 0 hasher.blockSize [] =
      joinExtraKeys hasher second 0 hasher.blockSize [] := by
    rcases texts with text | text
    · exact joinExtraKeys_of_adapterIsSaltOf plain plain' text
    · exact (joinExtraKeys_of_adapterIsSaltOf plain' plain text).symm
  unfold lastHash lastHash seenHashAt slice
  simp only [zero_mul, zero_add, noItems, noItems', tokens, itemKeys, map_nil, keys]

/-- The same adapter and salt leave the same keys behind in every block. -/
theorem joinExtraKeys_congr (plain : first.PlainlyHashed)
    (plain' : second.PlainlyHashed) (adapters : first.loraName = second.loraName)
    (salts : first.effectiveSalt = second.effectiveSalt) :
    joinExtraKeys hasher first start stop keys = joinExtraKeys hasher second start stop keys := by
  have same : genCacheSaltKeys first start = genCacheSaltKeys second start := by
    by_cases later : start = 0
    · rw [later, genCacheSaltKeys_first, genCacheSaltKeys_first, salts]
    · rw [genCacheSaltKeys_later first later, genCacheSaltKeys_later second later]
  simp only [joinExtraKeys, genLoraExtraHashKeys_eq, genPromptEmbedsExtraHashKeys,
    plain.promptEmbeds, plain'.promptEmbeds, adapters, same]

/-- Requests that differ in hidden items only have the same hashes. -/
theorem lastHash_eq_of_differsUnseen (plain : first.PlainlyHashed)
    (plain' : second.PlainlyHashed) (differ : first.DiffersUnseen second hasher.blockSize count)
    {number : Nat} (within : number ≤ count) :
    lastHash hasher first number = lastHash hasher second number := by
  induction number with
  | zero => rfl
  | succ number ih =>
    have shorter : (number + 1) * hasher.blockSize ≤ count * hasher.blockSize :=
      Nat.mul_le_mul_right _ within
    have tokens : first.allTokenIds.take ((number + 1) * hasher.blockSize) =
        second.allTokenIds.take ((number + 1) * hasher.blockSize) := by
      rw [← min_eq_left shorter, ← take_take, ← take_take, differ.tokens]
    have seen := differ.seen number within
    rw [succ_mul] at tokens seen
    unfold lastHash seenHashAt slice
    dsimp only
    rw [ih (by omega), tokens, seen,
      joinExtraKeys_congr plain plain' differ.loraName differ.cacheSalt]

/-- With a hash function without collisions, requests with equal block hashes share
their tokens, adapter, salt and multimodal items up to that block, except where the
only block confuses the adapter of one with the salt of the other, or where they differ
in items that no block's hash covers. -/
theorem equal_hashes_share_prefix_iff (free : hasher.CollisionFree)
    (plain : first.PlainlyHashed) (plain' : second.PlainlyHashed)
    {index : Nat}
    (full : (index + 1) * hasher.blockSize ≤ first.numTokens)
    (full' : (index + 1) * hasher.blockSize ≤ second.numTokens) :
    ((batchBlockHashes hasher first)[index]? = (batchBlockHashes hasher second)[index]? →
        first.SharesPrefix second ((index + 1) * hasher.blockSize)) ↔
      ¬ (index = 0 ∧ Request.ConfusesAdapterAndSalt hasher first second) ∧
        ¬ first.DiffersUnseen second hasher.blockSize (index + 1) := by
  rw [batchBlockHashes_getElem? plain.covering full, batchBlockHashes_getElem? plain'.covering full']
  constructor
  · intro isolated
    constructor
    · rintro ⟨rfl, confused⟩
      have shares := isolated (lastHash_eq_of_confuses plain plain' confused)
      rcases confused.2.2.2 with ⟨present, -, missing, -⟩ | ⟨present, -, missing, -⟩
      · rw [shares.loraName, missing] at present
        cases present
      · rw [← shares.loraName, missing] at present
        cases present
    · intro differ
      have shares := isolated (lastHash_eq_of_differsUnseen plain plain' differ le_rfl)
      obtain ⟨item, ⟨⟨mem, -⟩, missing⟩ | ⟨⟨mem, -⟩, missing⟩⟩ := differ.hidden
      · exact missing ((shares.items item).mp mem)
      · exact missing ((shares.items item).mpr mem)
  · rintro ⟨distinguishable, uncovered⟩ same
    obtain ⟨tokens, seen, ⟨adapters, salts⟩ | ⟨rfl, empty, confused⟩⟩ :=
      covered_of_lastHash_eq plain.promptEmbeds plain'.promptEmbeds free same
    · refine ⟨tokens, adapters, salts, fun item => ⟨fun mem => ?_, fun mem => ?_⟩⟩
      · by_contra missing
        refine uncovered ⟨tokens, adapters, salts, seen, item, .inl ⟨⟨mem, ?_⟩, missing⟩⟩
        exact fun position within isSeen =>
          missing (mem_itemsBefore_of_seen second within (seen position within ▸ isSeen))
      · by_contra missing
        refine uncovered ⟨tokens, adapters, salts, seen, item, .inr ⟨⟨mem, ?_⟩, missing⟩⟩
        exact fun position within isSeen =>
          missing (mem_itemsBefore_of_seen first within (seen position within ▸ isSeen))
    · have empty' := seen 0 one_pos
      rw [zero_add, one_mul] at empty' tokens
      rw [zero_mul] at empty'
      refine absurd ⟨rfl, tokens, (itemsSeen_eq_nil_iff plain).mp empty,
        (itemsSeen_eq_nil_iff plain').mp (empty'.symm.trans empty), confused⟩ distinguishable

/-- A key as data with a standard numbering. -/
def ExtraKey.code : ExtraKey → Text ⊕ (Text × Int) ⊕ Bytes
  | .text value => .inl value
  | .multiModal identifier offset => .inr (.inl (identifier, offset))
  | .bytes value => .inr (.inr value)

theorem ExtraKey.code_injective : Function.Injective ExtraKey.code := by
  intro left right same
  cases left <;> cases right <;> simp_all [ExtraKey.code]

/-- A hasher of blocks of two tokens that numbers its arguments. -/
def numberingHasher : BlockHasher where
  blockSize := 2
  blockSizePositive := by decide
  hashFunction parent tokenIds extraKeys :=
    Encodable.encode (parent, tokenIds, extraKeys.map (List.map ExtraKey.code)) + 1
  noneHash := 0
  embedsHash rows := rows.sum

theorem numberingHasher_collisionFree : numberingHasher.CollisionFree where
  injective same := by
    have codes := Encodable.encode_injective (succ.inj same)
    simp only [Prod.mk.injEq] at codes
    exact ⟨codes.1, codes.2.1,
      Option.map_injective (map_injective_iff.mpr ExtraKey.code_injective) codes.2.2⟩
  ne_noneHash _ _ _ := succ_ne_zero _

/-- A prompt of two tokens, with an adapter or a salt. -/
def textRequest (loraRequest : Option LoRARequest) (cacheSalt : Option Text) : Request where
  requestId := 1
  samplingParams := some { maxTokens := 4 }
  maxTokens := 4
  promptTokenIds := some [7, 8]
  numPromptTokens := 2
  allTokenIds := [7, 8]
  loraRequest := loraRequest
  cacheSalt := cacheSalt

theorem textRequest_plainlyHashed (loraRequest : Option LoRARequest)
    (cacheSalt : Option Text) : (textRequest loraRequest cacheSalt).PlainlyHashed :=
  ⟨rfl, Pairwise.nil, nofun⟩

/-- A request with an adapter and a request whose salt is the adapter's name have
the same first block hash. -/
theorem adapter_hashes_like_salt :
    numberingHasher.CollisionFree ∧
      (textRequest (some { loraName := 5, loraIntId := 1 }) none).PlainlyHashed ∧
      (textRequest none (some 5)).PlainlyHashed ∧
      (batchBlockHashes numberingHasher
          (textRequest (some { loraName := 5, loraIntId := 1 }) none))[0]? =
        (batchBlockHashes numberingHasher (textRequest none (some 5)))[0]? ∧
      (batchBlockHashes numberingHasher (textRequest none (some 5))).length = 1 ∧
      (textRequest (some { loraName := 5, loraIntId := 1 }) none).loraName ≠
        (textRequest none (some 5)).loraName := by
  refine ⟨numberingHasher_collisionFree, textRequest_plainlyHashed _ _,
    textRequest_plainlyHashed _ _, rfl, rfl, ?_⟩
  decide

/-- Requests with an adapter of the same name and the same salt have equal hashes and
share their prefix. -/
theorem same_adapter_and_salt_share_prefix :
    (textRequest (some { loraName := 5, loraIntId := 1 }) (some 3)).SharesPrefix
      (textRequest (some { loraName := 5, loraIntId := 2 }) (some 3)) 2 := by
  refine (equal_hashes_share_prefix_iff numberingHasher_collisionFree
    (textRequest_plainlyHashed _ _) (textRequest_plainlyHashed _ _)
    (by decide : (0 + 1) * numberingHasher.blockSize ≤ _) (by decide)).mpr ⟨by decide, ?_⟩ rfl
  rintro ⟨-, -, -, -, item, ⟨⟨mem, -⟩, -⟩ | ⟨⟨mem, -⟩, -⟩⟩ <;> cases mem

/-- Two items over the same three tokens. -/
def overlaidRequest (identifier : Text) : Request :=
  { textRequest none none with
    promptTokenIds := some [7, 7, 7, 8]
    numPromptTokens := 4
    allTokenIds := [7, 7, 7, 8]
    mmFeatures := [{ identifier := 1, mmPosition := ⟨0, 3, none⟩ },
      { identifier := identifier, mmPosition := ⟨0, 3, none⟩ }] }

-- The second item is hidden in the first block, but not in the second one.
example : (overlaidRequest 2).DiffersUnseen (overlaidRequest 3) 2 1 :=
  ⟨rfl, rfl, rfl, by decide, (2, 0), .inl (by unfold Hides; decide)⟩

example : ¬ (overlaidRequest 2).DiffersUnseen (overlaidRequest 3) 2 2 :=
  fun differ => absurd (differ.seen 1 (by decide)) (by decide)

end Confusion

end TokenCake
