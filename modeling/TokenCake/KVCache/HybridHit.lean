import Mathlib.Order.Lattice.Nat
import TokenCake.KVCache.LongestHit
import TokenCake.KVCache.Representation

/-!
# What a hybrid prefix lookup is for

The longest prefix that every group can reuse: full attention needs all blocks in
front of it, a sliding window the blocks of its last tokens.  The lookup returns this
prefix with the cached blocks, unless the hits of a second full-attention type stay
longer than the prefix, or a window of one token needs no block at all.
-/

namespace TokenCake

open List Nat BlockPool

/-- The first block with a token that a request attends to behind a prefix. -/
def KVCacheSpec.firstNeeded (spec : KVCacheSpec) (length : Nat) : Nat :=
  match spec.kind with
  | .fullAttention => 0
  | .slidingWindow window => (length - min length (window - 1)) / spec.blockSize
  | .chunkedLocalAttention chunk => length / chunk * chunk / spec.blockSize

/-- The block of a group that is cached for a position of a request. -/
def BlockPool.cachedAt (pool : BlockPool) (blockHashes : List Bytes)
    (blockSize groupId index : Nat) : Option BlockId :=
  (pool.scaledHashes blockHashes blockSize)[index]?.bind fun key =>
    pool.cachedBlockHashToBlock.getOneBlock { hashes := key, groupId := groupId }

/-- A group has cached all blocks that are needed behind a prefix. -/
def BlockPool.GroupHit (pool : BlockPool) (blockHashes : List Bytes) (spec : KVCacheSpec)
    (groupId length : Nat) : Prop :=
  ∀ index, spec.firstNeeded length ≤ index → index < length / spec.blockSize →
    (pool.cachedAt blockHashes spec.blockSize groupId index).isSome

/-- All groups have cached the blocks that are needed behind a prefix. -/
def BlockPool.Hit (pool : BlockPool) (blockHashes : List Bytes) (specs : List KVCacheSpec)
    (length : Nat) : Prop :=
  ∀ (groupId : Nat) (spec : KVCacheSpec), specs[groupId]? = some spec →
    pool.GroupHit blockHashes spec groupId length

/-- The alignment of hits: the least common multiple of all block sizes. -/
def hitAlignment (specs : List KVCacheSpec) : Nat :=
  (specs.map KVCacheSpec.blockSize).foldl Nat.lcm 1

theorem hitAlignment_dvd_iff (specs : List KVCacheSpec) (length : Nat) :
    hitAlignment specs ∣ length ↔ ∀ spec ∈ specs, spec.blockSize ∣ length := by
  unfold hitAlignment
  rw [foldl_lcm_dvd_iff]
  simp

namespace HybridSearch

/-- Types that collect the groups of equal specification. -/
structure Grouped (entries : List (KVCacheSpec × Nat)) (groups : List AttentionGroup) : Prop where
  ids : ∀ group ∈ groups, ∀ id, id ∈ group.groupIds ↔ (group.spec, id) ∈ entries
  distinct : (groups.map AttentionGroup.spec).Nodup
  inhabited : ∀ group ∈ groups, group.groupIds ≠ []
  complete : ∀ entry ∈ entries, ∃ group ∈ groups, group.spec = entry.1

variable {entries : List (KVCacheSpec × Nat)} {groups : List AttentionGroup}

theorem Grouped.addGroup (grouped : Grouped entries groups) (spec : KVCacheSpec) (groupId : Nat) :
    Grouped (entries ++ [(spec, groupId)]) (addGroup groups groupId spec) := by
  unfold HybridSearch.addGroup
  split
  · next exists_ =>
    obtain ⟨existing, existingMember, same⟩ := any_eq_true.mp exists_
    have sameSpec : existing.spec = spec := of_decide_eq_true same
    refine ⟨?_, ?_, ?_, ?_⟩
    · intro group mem id
      obtain ⟨old, oldMember, rfl⟩ := mem_map.mp mem
      rw [mem_append, mem_singleton]
      split
      · next equal =>
        subst equal
        rw [mem_append, mem_singleton, grouped.ids old oldMember, Prod.mk.injEq]
        simp
      · next different =>
        rw [grouped.ids old oldMember, Prod.mk.injEq]
        exact ⟨.inl, fun either => either.resolve_right fun equal => different equal.1⟩
    · have specs : (groups.map fun group =>
          if group.spec = spec then { group with groupIds := group.groupIds ++ [groupId] }
          else group).map AttentionGroup.spec = groups.map AttentionGroup.spec := by
        rw [map_map]
        refine map_congr_left fun group _ => ?_
        simp only [Function.comp_apply]
        split <;> rfl
      rw [specs]
      exact grouped.distinct
    · intro group mem
      obtain ⟨old, oldMember, rfl⟩ := mem_map.mp mem
      split
      · simp
      · exact grouped.inhabited old oldMember
    · intro entry mem
      have known : ∃ group ∈ groups, group.spec = entry.1 := by
        rcases mem_append.mp mem with old | new
        · exact grouped.complete entry old
        · rw [mem_singleton.mp new]
          exact ⟨existing, existingMember, sameSpec⟩
      obtain ⟨group, groupMember, spec_eq⟩ := known
      refine ⟨_, mem_map_of_mem groupMember, ?_⟩
      split <;> exact spec_eq
  · next missing =>
    have fresh : ∀ group ∈ groups, group.spec ≠ spec := by
      intro group mem equal
      exact missing (any_eq_true.mpr ⟨group, mem, decide_eq_true equal⟩)
    refine ⟨?_, ?_, ?_, ?_⟩
    · intro group mem id
      rw [mem_append, mem_singleton, Prod.mk.injEq]
      rcases mem_append.mp mem with old | new
      · rw [grouped.ids group old]
        exact ⟨.inl, fun either => either.resolve_right fun equal => fresh group old equal.1⟩
      · rw [mem_singleton.mp new]
        simp only [mem_singleton, true_and]
        refine ⟨.inr, fun either => either.resolve_left fun old => ?_⟩
        obtain ⟨group, groupMember, equal⟩ := grouped.complete _ old
        exact fresh group groupMember equal
    · rw [map_append, map_singleton, nodup_append]
      refine ⟨grouped.distinct, nodup_singleton _, ?_⟩
      intro old oldMember new newMember
      obtain ⟨group, mem, rfl⟩ := mem_map.mp oldMember
      rw [mem_singleton.mp newMember]
      exact fresh group mem
    · intro group mem
      rcases mem_append.mp mem with old | new
      · exact grouped.inhabited group old
      · rw [mem_singleton.mp new]
        simp
    · intro entry mem
      rcases mem_append.mp mem with old | new
      · obtain ⟨group, groupMember, equal⟩ := grouped.complete entry old
        exact ⟨group, mem_append_left _ groupMember, equal⟩
      · rw [mem_singleton.mp new]
        exact ⟨_, mem_append_right _ (mem_singleton_self _), rfl⟩

theorem Grouped.foldl (grouped : Grouped entries groups) (rest : List (KVCacheSpec × Nat)) :
    Grouped (entries ++ rest)
      (rest.foldl (fun groups entry => HybridSearch.addGroup groups entry.2 entry.1) groups) := by
  induction rest generalizing entries groups with
  | nil => rwa [append_nil]
  | cons entry rest ih =>
    have next := ih (grouped.addGroup entry.1 entry.2)
    rwa [append_assoc] at next

theorem grouped_nil : Grouped [] [] :=
  ⟨nofun, nodup_nil, nofun, nofun⟩

/-- The types of a search collect the groups of equal specification. -/
theorem grouped_init (specs : List KVCacheSpec) (eagleGroupIds : List Nat) :
    Grouped specs.zipIdx (init specs eagleGroupIds).attentionGroups ∧
      (init specs eagleGroupIds).lcmBlockSize = hitAlignment specs := by
  have grouped := grouped_nil.foldl specs.zipIdx
  rw [nil_append] at grouped
  set groups := specs.zipIdx.foldl (fun groups entry => addGroup groups entry.2 entry.1) []
  have permuted : Perm (init specs eagleGroupIds).attentionGroups groups :=
    filter_append_perm AttentionGroup.isFullAttention groups
  refine ⟨⟨fun group mem => grouped.ids group (permuted.mem_iff.mp mem), ?_,
    fun group mem => grouped.inhabited group (permuted.mem_iff.mp mem), ?_⟩, ?_⟩
  · exact (permuted.map _).nodup_iff.mpr grouped.distinct
  · intro entry mem
    obtain ⟨group, groupMember, equal⟩ := grouped.complete entry mem
    exact ⟨group, permuted.mem_iff.mpr groupMember, equal⟩
  · have alignment : (init specs eagleGroupIds).lcmBlockSize =
        (groups.map fun group => group.spec.blockSize).foldl lcm 1 := rfl
    rw [alignment]
    refine dvd_right_iff_eq.mp fun length => ?_
    rw [foldl_lcm_dvd_iff, hitAlignment_dvd_iff]
    refine ⟨fun divides spec mem => ?_, fun divides => ⟨one_dvd _, ?_⟩⟩
    · obtain ⟨id, found⟩ := getElem?_of_mem mem
      obtain ⟨group, groupMember, rfl⟩ :=
        grouped.complete (spec, id) (mem_zipIdx_iff_getElem?.mpr found)
      exact divides.2 _ (mem_map_of_mem groupMember)
    · intro size mem
      obtain ⟨group, groupMember, rfl⟩ := mem_map.mp mem
      obtain ⟨id, listed⟩ := exists_mem_of_ne_nil _ (grouped.inhabited group groupMember)
      exact divides _ (fst_mem_of_mem_zipIdx ((grouped.ids group groupMember id).mp listed))

end HybridSearch

variable {length : Nat}

section GroupHits

variable {pool : BlockPool} {blockHashes : List Bytes}

theorem BlockPool.isSome_getCachedBlock (key : List Bytes) (groupIds : List Nat) :
    (pool.getCachedBlock key groupIds).isSome ↔ ∀ groupId ∈ groupIds,
      (pool.cachedBlockHashToBlock.getOneBlock { hashes := key, groupId := groupId }).isSome := by
  unfold getCachedBlock
  induction groupIds with
  | nil => simp
  | cons groupId rest ih =>
    rw [mapM_cons]
    simp only [mem_cons, forall_eq_or_imp, ← ih]
    cases pool.cachedBlockHashToBlock.getOneBlock { hashes := key, groupId := groupId } with
    | none => simp
    | some block =>
      cases rest.mapM fun groupId =>
        pool.cachedBlockHashToBlock.getOneBlock { hashes := key, groupId := groupId } <;> simp

/-- A row is cached if all groups of the type have cached their block. -/
theorem AttentionGroup.isSome_rowAt (group : AttentionGroup) (pool : BlockPool)
    (blockHashes : List Bytes) (inhabited : group.groupIds ≠ []) (index : Nat) :
    (group.rowAt pool (pool.scaledHashes blockHashes group.spec.blockSize) index).isSome ↔
      ∀ groupId ∈ group.groupIds,
        (pool.cachedAt blockHashes group.spec.blockSize groupId index).isSome := by
  unfold AttentionGroup.rowAt cachedAt
  cases (pool.scaledHashes blockHashes group.spec.blockSize)[index]? with
  | none =>
    obtain ⟨groupId, mem⟩ := exists_mem_of_ne_nil _ inhabited
    simp only [Option.bind_none, Option.isSome_none, Bool.false_eq_true, false_iff]
    exact fun all => all groupId mem
  | some key => exact isSome_getCachedBlock key group.groupIds

/-- The last block in front of a prefix is cached, if the window has no other token. -/
def BlockPool.LastCached (pool : BlockPool) (blockHashes : List Bytes) (spec : KVCacheSpec)
    (groupId length : Nat) : Prop :=
  ∀ window, spec.kind = .slidingWindow window → window ≤ 1 → length ≠ 0 →
    (pool.cachedAt blockHashes spec.blockSize groupId (length / spec.blockSize - 1)).isSome

theorem cdiv_succ (total : Nat) {size : Nat} (positive : 0 < size) :
    cdiv ((total : Int) + 1) size = ((total / size + 1 : Nat) : Int) := by
  unfold cdiv
  rw [← Int.negSucc_eq, Int.negSucc_ediv total (by omega), neg_neg]
  rfl

/-- The blocks of the last tokens of a window. -/
theorem window_blocks {blockSize count window : Nat}
    (positive : 0 < blockSize) (wide : 2 ≤ window) :
    (count * blockSize - min (count * blockSize) (window - 1)) / blockSize =
      count - max (cdiv ((window : Int) - 1) blockSize).toNat 1 := by
  obtain ⟨before, rfl⟩ := Nat.exists_eq_add_of_le wide
  have ceiling : (cdiv (((2 + before : Nat) : Int) - 1) blockSize).toNat =
      before / blockSize + 1 := by
    have shifted : ((2 + before : Nat) : Int) - 1 = ((before : Nat) : Int) + 1 := by omega
    rw [shifted, cdiv_succ before positive, Int.toNat_natCast]
  rw [ceiling, Nat.max_eq_left (Nat.le_add_left 1 (before / blockSize)),
    show 2 + before - 1 = before + 1 by omega]
  by_cases inside : before < count * blockSize
  · rw [min_eq_right (by omega), Nat.mul_comm count]
    exact Nat.mul_sub_div before blockSize count (by rwa [Nat.mul_comm])
  · rw [min_eq_left (by omega), Nat.sub_self, Nat.zero_div]
    have reached : count ≤ before / blockSize :=
      (Nat.le_div_iff_mul_le positive).mpr (by omega)
    omega

variable {group : AttentionGroup} {alignment : Nat}

/-- The search asks for the blocks that are needed, and for one block where a window needs none. -/
theorem AttentionGroup.firstBlock_cases (supported : group.Supported alignment) (count : Nat) :
    (∀ window, group.spec.kind = .slidingWindow window → 2 ≤ window) ∧
        group.firstBlock count = group.spec.firstNeeded (group.spec.blockSize * count) ∨
      (∃ window ≤ 1, group.spec.kind = .slidingWindow window) ∧
        group.firstBlock count = count - 1 ∧
          group.spec.firstNeeded (group.spec.blockSize * count) = count := by
  unfold AttentionGroup.firstBlock KVCacheSpec.firstNeeded
  cases kind : group.spec.kind with
  | fullAttention => exact .inl ⟨nofun, rfl⟩
  | chunkedLocalAttention chunk => exact absurd kind (supported.kind chunk)
  | slidingWindow window =>
    dsimp only
    by_cases wide : 2 ≤ window
    · rw [Nat.mul_comm group.spec.blockSize count, window_blocks supported.positive wide]
      refine .inl ⟨?_, rfl⟩
      rintro other ⟨⟩
      exact wide
    · have none : cdiv ((window : Int) - 1) group.spec.blockSize ≤ 0 := by
        refine (cdiv_le_cdiv (show (window : Int) - 1 ≤ 0 by omega) _).trans ?_
        simp [cdiv]
      refine .inr ⟨⟨window, by omega, rfl⟩, ?_, ?_⟩
      · unfold AttentionGroup.windowBlocks
        omega
      · rw [show window - 1 = 0 by omega, Nat.min_zero, Nat.sub_zero,
          Nat.mul_div_cancel_left count supported.positive]

/-- What a type accepts in terms of its groups. -/
theorem AttentionGroup.accepts_iff (pool : BlockPool) (blockHashes : List Bytes)
    (supported : group.Supported alignment) (inhabited : group.groupIds ≠ []) (length : Nat) :
    group.Accepts pool blockHashes alignment length ↔
      alignment ∣ length ∧ ∀ groupId ∈ group.groupIds,
        pool.GroupHit blockHashes group.spec groupId length ∧
          pool.LastCached blockHashes group.spec groupId length := by
  refine and_congr_right fun aligned => ?_
  have divides := supported.divides.trans aligned
  obtain ⟨count, rfl⟩ := divides
  have rows := fun index => group.isSome_rowAt pool blockHashes inhabited index
  unfold AttentionGroup.HitAt GroupHit LastCached
  rw [Nat.mul_div_cancel_left count supported.positive]
  simp only [rows]
  rcases firstBlock_cases supported count with ⟨wide, same⟩ | ⟨⟨window, narrow, kind⟩, one, none⟩
  · rw [same]
    constructor
    · intro hit groupId mem
      refine ⟨fun index first below => hit index first below groupId mem, fun window kind narrow => ?_⟩
      have := wide window kind
      omega
    · intro hit index first below groupId mem
      exact (hit groupId mem).1 index first below
  · rw [one, none]
    constructor
    · intro hit groupId mem
      refine ⟨fun index first below => by omega, fun other _ _ nonempty => ?_⟩
      have some : 0 < count := Nat.pos_of_ne_zero (right_ne_zero_of_mul nonempty)
      exact hit (count - 1) le_rfl (by omega) groupId mem
    · intro hit index first below groupId mem
      have nonempty : group.spec.blockSize * count ≠ 0 :=
        Nat.mul_ne_zero supported.positive.ne' (by omega)
      have last := (hit groupId mem).2 window kind narrow nonempty
      rwa [show index = count - 1 by omega]

/-- The search asks for at least the blocks that are needed. -/
theorem AttentionGroup.firstBlock_le_firstNeeded (supported : group.Supported alignment)
    (aligned : alignment ∣ length) :
    group.firstBlock (length / group.spec.blockSize) ≤ group.spec.firstNeeded length := by
  obtain ⟨count, rfl⟩ := supported.divides.trans aligned
  rw [Nat.mul_div_cancel_left count supported.positive]
  rcases firstBlock_cases supported count with ⟨-, same⟩ | ⟨-, one, none⟩
  · exact same.le
  · rw [one, none]
    exact Nat.sub_le ..

/-- The column of a group in the rows of a hit. -/
theorem AttentionGroup.IsHit.column (isHit : group.IsHit pool blockHashes alignment rows)
    (positive : 0 < group.spec.blockSize) {groupId : Nat} (listed : groupId ∈ group.groupIds)
    {index : Nat} (first : group.firstBlock rows.length ≤ index) (below : index < rows.length) :
    (rows.map fun row => row.getD (group.groupIds.idxOf groupId) nullBlock)[index]? =
      pool.cachedAt blockHashes group.spec.blockSize groupId index := by
  have cached := isHit.cached index first below
  have present := isHit.accepts.2 index
  rw [Nat.mul_div_cancel _ positive] at present
  obtain ⟨row, found⟩ := Option.isSome_iff_exists.mp (present first below)
  obtain ⟨key, hashed, stored⟩ := Option.bind_eq_some_iff.mp found
  have block := getOneBlock_of_getCachedBlock stored (getElem?_idxOf listed)
  have inRow : group.groupIds.idxOf groupId < row.length := by
    have lengths := congrArg length (getCachedBlock_eq_some.mp stored)
    rw [length_map, length_map] at lengths
    rw [← lengths]
    exact idxOf_lt_length_iff.mpr listed
  rw [getElem?_map, cached, found, Option.map_some]
  unfold cachedAt
  rw [hashed, Option.bind_some, block, getD_eq_getElem?_getD, getElem?_eq_getElem inRow,
    Option.getD_some]

end GroupHits

section Lookup

variable {specs : List KVCacheSpec} {pool : BlockPool} {blockHashes : List Bytes} {maxLength : Nat}

/-- Aligned lengths within a bound for which all groups have cached what is needed. -/
def BlockPool.hitLengths (pool : BlockPool) (blockHashes : List Bytes) (specs : List KVCacheSpec)
    (maxCacheHitLength : Nat) : Set Nat :=
  { length | hitAlignment specs ∣ length ∧ length ≤ maxCacheHitLength ∧
      pool.Hit blockHashes specs length }

/-- What a lookup is for: the longest hit, and for every group as many blocks, which
are the cached ones wherever a block is needed. -/
structure BlockPool.IsLongestHit (pool : BlockPool) (blockHashes : List Bytes)
    (specs : List KVCacheSpec) (maxCacheHitLength : Nat) (result : KVCacheBlocks × Nat) : Prop where
  greatest : IsGreatest (pool.hitLengths blockHashes specs maxCacheHitLength) result.2
  blocks : ∀ (groupId : Nat) (spec : KVCacheSpec), specs[groupId]? = some spec →
    ∃ blocks, result.1[groupId]? = some blocks ∧ blocks.length = result.2 / spec.blockSize ∧
      ∀ index, spec.firstNeeded result.2 ≤ index → index < result.2 / spec.blockSize →
        blocks[index]? = pool.cachedAt blockHashes spec.blockSize groupId index

/-- A window of one token has cached the block in front of the longest hit, although
it needs none. -/
def BlockPool.NarrowWindowsCached (pool : BlockPool) (blockHashes : List Bytes)
    (specs : List KVCacheSpec) (maxCacheHitLength : Nat) : Prop :=
  ∀ length, IsGreatest (pool.hitLengths blockHashes specs maxCacheHitLength) length →
    ∀ (groupId : Nat) (spec : KVCacheSpec), specs[groupId]? = some spec →
      pool.LastCached blockHashes spec groupId length

/-- The longest prefix that the first two types of full attention have cached is a hit
of all groups. -/
def BlockPool.FullAttentionDecides (pool : BlockPool) (blockHashes : List Bytes)
    (specs : List KVCacheSpec) (maxCacheHitLength : Nat) : Prop :=
  ∀ first second rest, (HybridSearch.init specs []).attentionGroups = first :: second :: rest →
      first.isFullAttention = true → second.isFullAttention = true →
        ∀ length, IsGreatest { length | hitAlignment specs ∣ length ∧ length ≤ maxCacheHitLength ∧
            (∀ groupId ∈ first.groupIds, pool.GroupHit blockHashes first.spec groupId length) ∧
            ∀ groupId ∈ second.groupIds,
              pool.GroupHit blockHashes second.spec groupId length } length →
          pool.Hit blockHashes specs length

namespace HybridSearch

/-- Layouts of full attention and sliding windows. -/
def Windowed (specs : List KVCacheSpec) : Prop :=
  ∀ spec ∈ specs, 0 < spec.blockSize ∧ ∀ chunk, spec.kind ≠ .chunkedLocalAttention chunk

variable {group : AttentionGroup} {rows : List (List BlockId)} {index groupId : Nat}

/-- The specification of a type is that of its groups. -/
theorem spec_of_mem_groupIds (mem : group ∈ (init specs []).attentionGroups)
    (listed : groupId ∈ group.groupIds) : specs[groupId]? = some group.spec := by
  have grouped := (grouped_init specs []).1
  exact mem_zipIdx_iff_getElem?.mp ((grouped.ids group mem groupId).mp listed)

/-- Every group belongs to a type. -/
theorem exists_attentionGroup (found : specs[groupId]? = some spec) :
    ∃ group ∈ (init specs []).attentionGroups, group.spec = spec ∧ groupId ∈ group.groupIds := by
  have grouped := (grouped_init specs []).1
  have entry : (spec, groupId) ∈ specs.zipIdx := mem_zipIdx_iff_getElem?.mpr found
  obtain ⟨group, mem, rfl⟩ := grouped.complete _ entry
  exact ⟨group, mem, rfl, (grouped.ids group mem groupId).mpr entry⟩

theorem supported_init (windowed : Windowed specs) : (init specs []).Supported := by
  obtain ⟨grouped, alignment⟩ := grouped_init specs []
  refine ⟨?_, fun group mem => ?_⟩
  · simp [init]
  · obtain ⟨groupId, listed⟩ := exists_mem_of_ne_nil _ (grouped.inhabited group mem)
    have isSpec := mem_of_getElem? (spec_of_mem_groupIds mem listed)
    refine ⟨(windowed _ isSpec).1, ?_, (windowed _ isSpec).2⟩
    rw [alignment]
    exact (hitAlignment_dvd_iff specs _).mp dvd_rfl _ isSpec

/-- All types accept a length if it is an aligned hit, and windows of one token have
cached the block in front of it. -/
theorem all_accept_iff (windowed : Windowed specs) (length : Nat) :
    (∀ group ∈ (init specs []).attentionGroups,
      group.Accepts pool blockHashes (init specs []).lcmBlockSize length) ↔
    hitAlignment specs ∣ length ∧ pool.Hit blockHashes specs length ∧
      ∀ (groupId : Nat) (spec : KVCacheSpec), specs[groupId]? = some spec →
        pool.LastCached blockHashes spec groupId length := by
  obtain ⟨grouped, alignment⟩ := grouped_init specs []
  have supported := supported_init windowed
  have accepts := fun group (mem : group ∈ (init specs []).attentionGroups) =>
    AttentionGroup.accepts_iff pool blockHashes (supported.groups group mem)
      (grouped.inhabited group mem) length
  constructor
  · intro all
    refine ⟨?_, ?_, ?_⟩
    · rw [hitAlignment_dvd_iff]
      intro spec mem
      obtain ⟨groupId, found⟩ := getElem?_of_mem mem
      obtain ⟨group, groupMember, rfl, -⟩ := exists_attentionGroup found
      exact (supported.groups group groupMember).divides.trans (all group groupMember).1
    · intro groupId spec found
      obtain ⟨group, mem, rfl, listed⟩ := exists_attentionGroup found
      exact (((accepts group mem).mp (all group mem)).2 groupId listed).1
    · intro groupId spec found
      obtain ⟨group, mem, rfl, listed⟩ := exists_attentionGroup found
      exact (((accepts group mem).mp (all group mem)).2 groupId listed).2
  · rintro ⟨aligned, hit, last⟩ group mem
    refine (accepts group mem).mpr ⟨alignment ▸ aligned, fun groupId listed => ?_⟩
    have found := spec_of_mem_groupIds mem listed
    exact ⟨hit groupId _ found, last groupId _ found⟩

variable {second first : AttentionGroup}

theorem isFullAttention_of_le (before : index ≤ later)
    (atIndex : (init specs []).attentionGroups[index]? = some first)
    (atLater : (init specs []).attentionGroups[later]? = some second)
    (full : second.isFullAttention = true) : first.isFullAttention = true := by
  set groups := specs.zipIdx.foldl (fun groups entry => addGroup groups entry.2 entry.1) []
  have ordered : (init specs []).attentionGroups = groups.filter AttentionGroup.isFullAttention ++
        groups.filter fun group => !group.isFullAttention := rfl
  rw [ordered, getElem?_append] at atIndex atLater
  split at atLater
  · rw [if_pos (by omega)] at atIndex
    exact (mem_filter.mp (mem_of_getElem? atIndex)).2
  · have notFull := (mem_filter.mp (mem_of_getElem? atLater)).2
    simp [full] at notFull

/-- The rows of a type after the cut to the final length. -/
theorem truncated_getElem? {search : HybridSearch} (length : Nat) {found : List FoundRows}
    (mem : search.attentionGroups[index]? = some group)
    (stored : found[index]? = some (some rows)) :
    (search.truncated length found)[index]? =
      some (if index = 0 && group.isFullAttention then rows.take (length / group.spec.blockSize)
        else rows) := by
  unfold truncated
  have zipped : (search.attentionGroups.zip found)[index]? = some (group, some rows) :=
    getElem?_zip_eq_some.mpr ⟨mem, stored⟩
  rw [getElem?_map, getElem?_zipIdx, zipped]
  simp

/-- The blocks of a group are its column in the rows of its type. -/
theorem column_eq {truncated : List (List (List BlockId))}
    (mem : (init specs []).attentionGroups[index]? = some group)
    (stored : truncated[index]? = some rows) (listed : groupId ∈ group.groupIds) :
    column ((init specs []).attentionGroups.zip truncated) groupId =
      rows.map fun row => row.getD (group.groupIds.idxOf groupId) nullBlock := by
  have grouped := (grouped_init specs []).1
  have spec := spec_of_mem_groupIds (List.mem_of_getElem? mem) listed
  have zipped : ((init specs []).attentionGroups.zip truncated)[index]? = some (group, rows) :=
    List.getElem?_zip_eq_some.mpr ⟨mem, stored⟩
  obtain ⟨inZip, zippedEq⟩ := List.getElem?_eq_some_iff.mp zipped
  have found : ((init specs []).attentionGroups.zip truncated).find?
      (fun entry => decide (groupId ∈ entry.1.groupIds)) = some (group, rows) := by
    refine List.find?_eq_some_iff_getElem.mpr
      ⟨decide_eq_true listed, index, inZip, zippedEq, fun other before => ?_⟩
    -- Another type with this group would have the same specification.
    rw [Bool.not_eq_true', decide_eq_false_iff_not]
    intro otherListed
    have otherZipped := List.getElem?_eq_getElem (lt_trans before inZip)
    have otherMember := (List.getElem?_zip_eq_some.mp otherZipped).1
    have otherSpec := spec_of_mem_groupIds (List.mem_of_getElem? otherMember) otherListed
    rw [spec, Option.some.injEq] at otherSpec
    have atOther : ((init specs []).attentionGroups.map AttentionGroup.spec)[other]? =
        some group.spec := by
      rw [List.getElem?_map, otherMember, Option.map_some, ← otherSpec]
    have atIndex : ((init specs []).attentionGroups.map AttentionGroup.spec)[index]? =
        some group.spec := by
      rw [List.getElem?_map, mem, Option.map_some]
    have within := (List.getElem?_eq_some_iff.mp atOther).1
    have same := (List.getElem?_inj within grouped.distinct).mp (atOther.trans atIndex.symm)
    omega
  unfold column
  rw [found]

section

variable (windowed : Windowed specs)

include windowed

/-- What a lookup returns: the greatest length that all types accept, and for every
type a hit of at least this length, of exactly this length for sliding windows and
for the first type. -/
theorem findLongestCacheHit_spec (pool : BlockPool) (blockHashes : List Bytes) (maxLength : Nat) :
    let search := init specs []
    let result := search.findLongestCacheHit pool specs.length blockHashes maxLength
    IsGreatest { length | length ≤ maxLength ∧ ∀ group ∈ search.attentionGroups,
      group.Accepts pool blockHashes search.lcmBlockSize length } result.2 ∧
    ∀ (index : Nat) (group : AttentionGroup), search.attentionGroups[index]? = some group →
      ∃ rows, group.IsHit pool blockHashes search.lcmBlockSize rows ∧
        result.2 ≤ rows.length * group.spec.blockSize ∧
        (∀ groupId ∈ group.groupIds, result.1[groupId]? =
          some (rows.map fun row => row.getD (group.groupIds.idxOf groupId) nullBlock)) ∧
        (group.isFullAttention = false ∨ index = 0 →
          rows.length * group.spec.blockSize = result.2) ∧
        (group.isFullAttention = true → index ≠ 0 →
          (search.runPass pool blockHashes maxLength
            (search.initialPass maxLength)).found[index]? = some (some rows)) := by
  intro search result
  have supported : search.Supported := supported_init windowed
  obtain ⟨settled, kept⟩ :=
    settled_initialPass supported pool blockHashes maxLength
  refine ⟨settled.greatest, fun index group mem => ?_⟩
  have groupSupported := supported.groups group (List.mem_of_getElem? mem)
  obtain ⟨rows, stored, isHit, within, exact_⟩ := settled.rows index group mem
  have aligned : search.lcmBlockSize ∣ result.2 := by
    exact (settled.greatest.1.2 group (List.mem_of_getElem? mem)).1
  have whole : result.2 / group.spec.blockSize * group.spec.blockSize = result.2 :=
    Nat.div_mul_cancel (groupSupported.divides.trans aligned)
  have columns : ∀ cut, (search.truncated result.2
        (search.passes pool blockHashes maxLength (maxLength + 1)
          maxLength (search.initialPass maxLength)).2.found)[index]? = some cut →
      ∀ groupId ∈ group.groupIds, result.1[groupId]? =
        some (cut.map fun row => row.getD (group.groupIds.idxOf groupId) nullBlock) := by
    intro cut cutStored groupId listed
    have inSpecs := (List.getElem?_eq_some_iff.mp
      (spec_of_mem_groupIds (List.mem_of_getElem? mem) listed)).1
    rw [← column_eq mem cutStored listed]
    show ((List.range specs.length).map _)[groupId]? = _
    rw [List.getElem?_map, List.getElem?_range inSpecs]
    rfl
  have cutStored := truncated_getElem? result.2 mem stored
  by_cases first : index = 0 ∧ group.isFullAttention = true
  · obtain ⟨rfl, full⟩ := first
    have short : result.2 / group.spec.blockSize ≤ rows.length := by
      refine Nat.le_of_mul_le_mul_right ?_ groupSupported.positive
      rw [whole]
      exact within
    have cutLength : (rows.take (result.2 / group.spec.blockSize)).length =
        result.2 / group.spec.blockSize := by
      rw [List.length_take, min_eq_left short]
    rw [full, if_pos (by decide)] at cutStored
    refine ⟨_, isHit.take full short (by rw [whole]; exact aligned), ?_, columns _ cutStored, ?_, ?_⟩
    · rw [cutLength, whole]
    · intro _
      rw [cutLength, whole]
    · exact fun _ nonzero => absurd rfl nonzero
  · have uncut : (decide (index = 0) && group.isFullAttention) = false := by
      rw [← Bool.not_eq_true, Bool.and_eq_true, decide_eq_true_iff]
      exact first
    rw [uncut, if_neg (by simp)] at cutStored
    refine ⟨rows, isHit, within, columns _ cutStored, ?_, ?_⟩
    · rintro (notFull | zero)
      · exact exact_ notFull
      · exact exact_ (by simpa [zero] using first)
    · intro full nonzero
      obtain ⟨firstRows, firstStored, -⟩ :=
        (visited_runPass supported maxLength
          (search.foundHits_initialPass pool blockHashes maxLength)).rows (group, index)
          (List.mem_zipIdx_iff_getElem?.mpr mem)
      have same := kept index group firstRows mem full firstStored
      rw [stored, Option.some.injEq, Option.some.injEq] at same
      rw [same]
      exact firstStored

/-- What the first two types of full attention accept. -/
theorem accepts_both_iff {rest : List AttentionGroup}
    (groups : (init specs []).attentionGroups = first :: second :: rest)
    (firstFull : first.isFullAttention = true) (secondFull : second.isFullAttention = true) :
    { length | length ≤ maxLength ∧
        first.Accepts pool blockHashes (init specs []).lcmBlockSize length ∧
          second.Accepts pool blockHashes (init specs []).lcmBlockSize length } =
      { length | hitAlignment specs ∣ length ∧ length ≤ maxLength ∧
        (∀ groupId ∈ first.groupIds, pool.GroupHit blockHashes first.spec groupId length) ∧
        ∀ groupId ∈ second.groupIds, pool.GroupHit blockHashes second.spec groupId length } := by
  obtain ⟨grouped, alignment⟩ := grouped_init specs []
  have supported := supported_init windowed
  have accepts : ∀ group ∈ (init specs []).attentionGroups, group.isFullAttention = true →
      ∀ length, group.Accepts pool blockHashes (init specs []).lcmBlockSize length ↔
        hitAlignment specs ∣ length ∧ ∀ groupId ∈ group.groupIds,
          pool.GroupHit blockHashes group.spec groupId length := by
    intro group mem full length
    have kind : group.spec.kind = .fullAttention := of_decide_eq_true full
    rw [AttentionGroup.accepts_iff pool blockHashes (supported.groups group mem)
      (grouped.inhabited group mem), alignment]
    refine and_congr_right fun _ => forall₂_congr fun groupId _ => and_iff_left ?_
    intro window isWindow
    cases kind.symm.trans isWindow
  ext length
  simp only [Set.mem_ofPred_eq, accepts first (by simp [groups]) firstFull,
    accepts second (by simp [groups]) secondFull]
  tauto

/-- If all types accept the longest hit, the lookup returns its length. -/
theorem greatest_of_narrowWindowsCached
    (narrow : pool.NarrowWindowsCached blockHashes specs maxLength)
    (greatest : IsGreatest { length | length ≤ maxLength ∧
      ∀ group ∈ (init specs []).attentionGroups,
        group.Accepts pool blockHashes (init specs []).lcmBlockSize length } length) :
    IsGreatest (pool.hitLengths blockHashes specs maxLength) length := by
  have accepted := (all_accept_iff windowed length).mp greatest.1.2
  have bounded : BddAbove (pool.hitLengths blockHashes specs maxLength) :=
    ⟨maxLength, fun _ mem => mem.2.1⟩
  have longest : IsGreatest (pool.hitLengths blockHashes specs maxLength)
      (sSup (pool.hitLengths blockHashes specs maxLength)) :=
    ⟨sSup_mem ⟨length, accepted.1, greatest.1.1, accepted.2.1⟩ bounded,
      fun _ mem => le_csSup bounded mem⟩
  set top := sSup (pool.hitLengths blockHashes specs maxLength)
  have topAccepted := (all_accept_iff windowed top).mpr
    ⟨longest.1.1, longest.1.2.2, narrow top longest⟩
  refine ⟨⟨accepted.1, greatest.1.1, accepted.2.1⟩, fun other mem => ?_⟩
  exact (longest.2 mem).trans (greatest.2 ⟨longest.1.2.1, topAccepted⟩)

/-- If the first two types of full attention have no longer hit, the hits of all types
of full attention have the length of the longest hit. -/
theorem fullAttention_length (decides : pool.FullAttentionDecides blockHashes specs maxLength)
    (greatest : IsGreatest (pool.hitLengths blockHashes specs maxLength) length)
    (nonzero : index ≠ 0) (mem : (init specs []).attentionGroups[index]? = some group)
    (full : group.isFullAttention = true)
    (stored : ((init specs []).runPass pool blockHashes maxLength
      ((init specs []).initialPass maxLength)).found[index]? = some (some rows)) :
    rows.length * group.spec.blockSize ≤ length := by
  have supported := supported_init windowed
  have inside := (List.getElem?_eq_some_iff.mp mem).1
  match groups : (init specs []).attentionGroups with
  | [] | [_] =>
    rw [groups] at inside
    simp only [List.length_nil, List.length_singleton] at inside
    omega
  | first :: second :: rest =>
    have firstFull : first.isFullAttention = true :=
      isFullAttention_of_le (zero_le index) (by simp [groups]) mem full
    have secondFull : second.isFullAttention = true :=
      isFullAttention_of_le (show 1 ≤ index by omega) (by simp [groups]) mem full
    obtain ⟨longest, isLongest, ⟨secondRows, secondStored, secondLength⟩, later⟩ :=
      runPass_fullAttention supported maxLength groups firstFull
        ((init specs []).foundHits_initialPass pool blockHashes maxLength)
        ((init specs []).initialPass_unknown maxLength)
    have bound : rows.length * group.spec.blockSize ≤ longest := by
      by_cases one : index = 1
      · subst one
        rw [secondStored, Option.some.injEq, Option.some.injEq] at stored
        rw [groups] at mem
        cases mem
        rw [← stored, secondLength]
      · obtain ⟨laterRows, laterStored, laterLength⟩ := later index group (by omega) mem
        rw [laterStored, Option.some.injEq, Option.some.injEq] at stored
        rw [← stored]
        exact laterLength
    rw [show ((init specs []).initialPass maxLength).currHitLength =
      maxLength from rfl, accepts_both_iff windowed groups firstFull secondFull]
      at isLongest
    have hit := decides first second rest groups firstFull secondFull longest isLongest
    exact bound.trans (greatest.2 ⟨isLongest.1.1, isLongest.1.2.1, hit⟩)

end

/-- The lookup never runs out of rounds.  It returns the longest hit with the blocks of
this hit exactly if windows of one token have cached the block in front of it and the
first two types of full attention have no longer hit. -/
theorem lookup_isLongestHit_iff
    (specs : List KVCacheSpec) (windowed : Windowed specs) (pool : BlockPool)
    (blockHashes : List Bytes) (maxCacheHitLength : Nat) :
    (∀ fuel, maxCacheHitLength < fuel →
      (init specs []).passes pool blockHashes maxCacheHitLength fuel maxCacheHitLength
          ((init specs []).initialPass maxCacheHitLength) =
        (init specs []).passes pool blockHashes maxCacheHitLength (maxCacheHitLength + 1)
          maxCacheHitLength ((init specs []).initialPass maxCacheHitLength)) ∧
    (pool.IsLongestHit blockHashes specs maxCacheHitLength
        ((init specs []).findLongestCacheHit pool specs.length blockHashes maxCacheHitLength) ↔
      pool.NarrowWindowsCached blockHashes specs maxCacheHitLength ∧
        pool.FullAttentionDecides blockHashes specs maxCacheHitLength) := by
  refine ⟨fun fuel enough => passes_eq_of_lt enough (Nat.lt_succ_self _) _, ?_⟩
  have supported := supported_init windowed
  obtain ⟨greatest, hits⟩ :=
    findLongestCacheHit_spec windowed pool blockHashes maxCacheHitLength
  set result := (init specs []).findLongestCacheHit pool specs.length blockHashes maxCacheHitLength
  have accepted := (all_accept_iff windowed result.2).mp greatest.1.2
  have divides : ∀ group ∈ (init specs []).attentionGroups,
      result.2 / group.spec.blockSize * group.spec.blockSize = result.2 := fun group member =>
    Nat.div_mul_cancel ((supported.groups group member).divides.trans (greatest.1.2 group member).1)
  constructor
  · rintro ⟨longest, blocks⟩
    refine ⟨fun length isGreatest => ?_, ?_⟩
    · rw [isGreatest.unique longest]
      exact accepted.2.2
    · intro first second rest groups firstFull secondFull length isGreatest
      have secondMember : (init specs []).attentionGroups[1]? = some second := by simp [groups]
      obtain ⟨both, isBoth, ⟨rows, stored, rowsLength⟩, -⟩ :=
        runPass_fullAttention supported maxCacheHitLength groups firstFull
          ((init specs []).foundHits_initialPass pool blockHashes maxCacheHitLength)
          ((init specs []).initialPass_unknown maxCacheHitLength)
      obtain ⟨hitRows, -, -, columns, -, fromFirst⟩ := hits 1 second secondMember
      have same := fromFirst secondFull one_ne_zero
      rw [stored, Option.some.injEq, Option.some.injEq] at same
      subst same
      obtain ⟨groupId, listed⟩ := exists_mem_of_ne_nil _
        ((grouped_init specs []).1.inhabited second (by simp [groups]))
      obtain ⟨groupBlocks, returned, blocksLength, -⟩ := blocks groupId second.spec
        (spec_of_mem_groupIds (by simp [groups]) listed)
      rw [columns groupId listed, Option.some.injEq] at returned
      rw [← returned, length_map] at blocksLength
      rw [blocksLength, divides second (by simp [groups])] at rowsLength
      rw [show ((init specs []).initialPass maxCacheHitLength).currHitLength =
        maxCacheHitLength from rfl, accepts_both_iff windowed groups firstFull secondFull] at isBoth
      rw [isGreatest.unique isBoth, ← rowsLength]
      exact longest.1.2.2
  · rintro ⟨narrow, decides⟩
    have longest := greatest_of_narrowWindowsCached windowed narrow greatest
    refine ⟨longest, fun groupId spec found => ?_⟩
    obtain ⟨group, member, rfl, listed⟩ := exists_attentionGroup found
    obtain ⟨index, atIndex⟩ := getElem?_of_mem member
    obtain ⟨rows, isHit, within, columns, equal, fromFirst⟩ := hits index group atIndex
    have groupSupported := supported.groups group member
    have rowsLength : rows.length * group.spec.blockSize = result.2 := by
      by_cases cut : group.isFullAttention = false ∨ index = 0
      · exact equal cut
      · obtain ⟨full, nonzero⟩ := not_or.mp cut
        rw [Bool.not_eq_false] at full
        refine le_antisymm ?_ within
        exact fullAttention_length windowed decides longest nonzero atIndex full
          (fromFirst full nonzero)
    have count : rows.length = result.2 / group.spec.blockSize := by
      rw [← rowsLength, Nat.mul_div_cancel _ groupSupported.positive]
    refine ⟨_, columns groupId listed, by rw [length_map, count], fun index first below => ?_⟩
    have needed := AttentionGroup.firstBlock_le_firstNeeded groupSupported
      (greatest.1.2 group member).1
    refine isHit.column groupSupported.positive listed ?_ (count ▸ below)
    rw [count]
    exact needed.trans first

section UntruncatedRows

open ManagerOperation (apply threeGroups evictedRun hashedRequest)

/-- The window shortens the hit to one block, and the second full attention group keeps
all three blocks that it found. -/
theorem evicted_window_keeps_longer_rows :
    ∃ final, Machine.run apply (.init threeGroups 20 2 64 64 true false []) evictedRun = .ok final ∧
      ¬ final.coordinator.blockPool.IsLongestHit [100, 101, 102] threeGroups 6
        ((init threeGroups []).findLongestCacheHit final.coordinator.blockPool
          threeGroups.length [100, 101, 102] 6) := by
  have found : ((Machine.run apply (.init threeGroups 20 2 64 64 true false [])
      evictedRun).toOption.map fun final =>
        (init threeGroups []).findLongestCacheHit final.coordinator.blockPool
          threeGroups.length [100, 101, 102] 6) = some ([[1], [5, 6, 7], [9]], 2) := by
    decide +kernel
  obtain ⟨final, reached, result⟩ := Option.map_eq_some_iff.mp found
  refine ⟨final, ok_of_toOption_eq_some reached, ?_⟩
  rw [result]
  rintro ⟨-, blocks⟩
  obtain ⟨groupBlocks, returned, length, -⟩ :=
    blocks 1 { kind := .fullAttention, blockSize := 2, layout := 1 } rfl
  cases returned
  exact absurd length (by decide)

/-- A group of full attention and one with a sliding window. -/
def twoGroups : List KVCacheSpec :=
  [{ kind := .fullAttention, blockSize := 2 }, { kind := .slidingWindow 3, blockSize := 2 }]

/-- A request is computed and freed, and a block of the window is evicted. -/
def cachedRun : List ManagerOperation :=
  [.allocateSlots (hashedRequest 1 7 100) { numNewTokens := 7 } true, .free 1, .evictBlocks [7]]

/-- One type of full attention is cut to the length that the window leaves. -/
theorem cachedRun_isLongestHit :
    ((Machine.run apply (.init twoGroups 20 2 64 64 true false []) cachedRun).toOption.map
      fun final => (init twoGroups []).findLongestCacheHit final.coordinator.blockPool
        twoGroups.length [100, 101, 102] 6) = some ([[1, 2], [0, 6]], 4) ∧
    ∀ final, Machine.run apply (.init twoGroups 20 2 64 64 true false []) cachedRun = .ok final →
      final.coordinator.blockPool.IsLongestHit [100, 101, 102] twoGroups 6
        ((init twoGroups []).findLongestCacheHit final.coordinator.blockPool
          twoGroups.length [100, 101, 102] 6) := by
  refine ⟨by decide +kernel, fun final _ => ?_⟩
  have windowed : Windowed twoGroups := by
    unfold Windowed twoGroups
    simp
  refine (lookup_isLongestHit_iff twoGroups windowed _ [100, 101, 102] 6).2.mpr ⟨?_, ?_⟩
  · intro length _ groupId spec found window kind narrow
    have member := mem_of_getElem? found
    simp only [twoGroups, mem_cons, not_mem_nil, or_false] at member
    rcases member with rfl | rfl <;> cases kind
    omega
  · intro first second rest groups _ secondFull
    have two : (init twoGroups []).attentionGroups =
        [{ spec := { kind := .fullAttention, blockSize := 2 }, groupIds := [0] },
          { spec := { kind := .slidingWindow 3, blockSize := 2 }, groupIds := [1] }] := by
      decide
    cases two.symm.trans groups
    cases secondFull

end UntruncatedRows

end HybridSearch

end Lookup

end TokenCake
