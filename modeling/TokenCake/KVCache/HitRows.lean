import TokenCake.KVCache.Manager
import TokenCake.KVCache.PoolInvariant

/-!
# What a prefix hit consists of

Every row of a hit is a row of null blocks or of the blocks cached for the hash at
its position.  A block is cached under one hash only, so the blocks of a hit are
distinct if the hashes of the request are.
-/

namespace TokenCake

open List Option HybridSearch BlockHashToBlockMap

variable {position : Nat}

namespace BlockPool

variable {pool : BlockPool} {key : List Bytes} {groupIds : List Nat} {row : List BlockId}

/-- A row has the oldest block of every group. -/
theorem getCachedBlock_eq_some :
    pool.getCachedBlock key groupIds = some row ↔ groupIds.map (fun groupId =>
        pool.cachedBlockHashToBlock.getOneBlock { hashes := key, groupId := groupId }) =
          row.map some := by
  unfold getCachedBlock
  induction groupIds generalizing row with
  | nil => cases row <;> simp
  | cons groupId groupIds ih =>
    rw [mapM_cons]
    cases found : pool.cachedBlockHashToBlock.getOneBlock
        { hashes := key, groupId := groupId } with
    | none => cases row <;> simp [found]
    | some block =>
      cases row with
      | nil => simp [found, Option.bind_eq_some_iff]
      | cons first rest =>
        simp only [Option.bind_eq_bind, Option.bind_some, Option.pure_def,
          Option.bind_eq_some_iff, Option.some.injEq, cons.injEq, map_cons, found]
        constructor
        · rintro ⟨others, foundRest, rfl, rfl⟩
          exact ⟨rfl, ih.mp foundRest⟩
        · rintro ⟨rfl, foundRest⟩
          exact ⟨rest, ih.mpr foundRest, rfl, rfl⟩

theorem getOneBlock_of_getCachedBlock (found : pool.getCachedBlock key groupIds = some row)
    {groupId : Nat} (group : groupIds[position]? = some groupId) :
    pool.cachedBlockHashToBlock.getOneBlock { hashes := key, groupId := groupId } =
      row[position]? := by
  have entries := congrArg (fun blocks => blocks[position]?) (getCachedBlock_eq_some.mp found)
  simp only [getElem?_map, group, map_some] at entries
  cases block : row[position]? with
  | none => simp [block] at entries
  | some value =>
    simp only [block, map_some, some.injEq] at entries
    exact entries

end BlockPool

namespace AttentionGroup

variable {group : AttentionGroup} {pool : BlockPool} {hashes : List (List Bytes)}
  {rows : List (List BlockId)}

/-- Every row is a row of null blocks or of the blocks cached at its position. -/
def RowsOf (group : AttentionGroup) (pool : BlockPool) (hashes : List (List Bytes))
    (rows : List (List BlockId)) : Prop :=
  ∀ (index : Nat) (row : List BlockId), rows[index]? = some row →
    row = group.groupIds.map (fun _ => nullBlock) ∨
      ∃ key, hashes[index]? = some key ∧ pool.getCachedBlock key group.groupIds = some row

theorem RowsOf.take (rowsOf : group.RowsOf pool hashes rows) (count : Nat) :
    group.RowsOf pool hashes (rows.take count) := by
  intro index row found
  rw [getElem?_take] at found
  split at found
  · exact rowsOf index row found
  · cases found

theorem RowsOf.dropLast (rowsOf : group.RowsOf pool hashes rows) :
    group.RowsOf pool hashes rows.dropLast := by
  rw [dropLast_eq_take]
  exact rowsOf.take _

variable {index : Nat} {row : List BlockId}

theorem RowsOf.set (rowsOf : group.RowsOf pool hashes rows) {key : List Bytes}
    (hashed : hashes[index]? = some key)
    (found : pool.getCachedBlock key group.groupIds = some row) :
    group.RowsOf pool hashes (rows.set index row) := by
  intro other otherRow stored
  rw [getElem?_set] at stored
  split at stored
  · next same =>
    subst same
    split at stored
    · cases stored
      exact Or.inr ⟨key, hashed, found⟩
    · cases stored
  · exact rowsOf other otherRow stored

theorem rowsOf_replicate (count : Nat) :
    group.RowsOf pool hashes (List.replicate count (group.groupIds.map fun _ => nullBlock)) := by
  intro index row found
  exact Or.inl (eq_of_mem_replicate (mem_of_getElem? found))

/-- The rows from the left are those of the hashes from the left. -/
theorem matchedRows_getElem? (found : (group.matchedRows pool hashes)[index]? = some row) :
    ∃ key, hashes[index]? = some key ∧ pool.getCachedBlock key group.groupIds = some row := by
  induction hashes generalizing index with
  | nil => simp [matchedRows] at found
  | cons key rest ih =>
    unfold matchedRows at found
    split at found
    · simp at found
    · next first hit =>
      cases index with
      | zero =>
        simp only [getElem?_cons_zero, some.injEq] at found
        subst found
        exact ⟨key, rfl, hit⟩
      | succ index =>
        rw [getElem?_cons_succ] at found ⊢
        exact ih found

theorem slice_getElem? (found : (slice items start stop)[index]? = some item) :
    items[start + index]? = some item := by
  unfold slice at found
  rw [getElem?_drop, getElem?_take] at found
  split at found
  · exact found
  · cases found

theorem rowsOf_matchedRows (count : Nat) :
    group.RowsOf pool hashes (group.matchedRows pool (hashes.take count)) := by
  intro index row found
  obtain ⟨key, hashed, hit⟩ := matchedRows_getElem? found
  rw [getElem?_take] at hashed
  split at hashed
  · exact Or.inr ⟨key, hashed, hit⟩
  · cases hashed

theorem rowsOf_searchWindow (rowsOf : group.RowsOf pool hashes rows) :
    group.RowsOf pool hashes (group.searchWindow pool hashes useEagle alignment windowBlocks index
        contiguous rows).2 := by
  induction index generalizing contiguous rows with
  | zero => exact rowsOf.take contiguous
  | succ index ih =>
    unfold searchWindow
    split
    · exact ih rowsOf
    · next row hit =>
      obtain ⟨key, hashed, found⟩ := bind_eq_some_iff.mp hit
      dsimp only
      generalize (if useEagle then index else index + 1) = blocksAfterPop
      split
      · exact ih rowsOf
      · split
        · exact (rowsOf.set hashed found).take _
        · exact ih (rowsOf.set hashed found)

/-- The rows of every hit are cached or null. -/
theorem rowsOf_findLongestCacheHit (maxLength : Nat) (useEagle : Bool) (alignment : Nat) :
    group.RowsOf pool hashes
      (group.findLongestCacheHit pool hashes maxLength useEagle alignment) := by
  unfold findLongestCacheHit
  split
  · unfold fullAttentionHit alignRows
    apply RowsOf.take
    split
    · exact (rowsOf_matchedRows _).dropLast
    · exact rowsOf_matchedRows _
  · next window _ =>
    unfold slidingWindowHit
    dsimp only
    set searched := group.searchWindow pool hashes useEagle alignment _ _ 0 _
    have searchedRows : group.RowsOf pool hashes searched.2 :=
      rowsOf_searchWindow (rowsOf_replicate _)
    have alignedRows : group.RowsOf pool hashes (if searched.1 = true then searched.2
          else group.alignRows alignment searched.2) := by
      split
      · exact searchedRows
      · exact searchedRows.take _
    generalize (if searched.1 = true then searched.2
      else group.alignRows alignment searched.2) = aligned at alignedRows ⊢
    split
    · exact alignedRows.dropLast.take _
    · exact alignedRows
  · next chunk _ =>
    unfold chunkedLocalHit
    set start := maxLength / chunk * chunk / group.spec.blockSize
    intro index row found
    rw [getElem?_append] at found
    split at found
    · exact rowsOf_replicate _ index row found
    · next behind =>
      rw [length_replicate] at found behind
      obtain ⟨key, hashed, hit⟩ := matchedRows_getElem? found
      refine Or.inr ⟨key, ?_, hit⟩
      have position := slice_getElem? hashed
      rwa [show start + (index - start) = index by omega] at position

end AttentionGroup

/-- The blocks of one group in a hit: at every position the null block or a block
that is cached under the hash at this position. -/
def HitOf (pool : BlockPool) (hashes : List (List Bytes)) (groupId : Nat)
    (blocks : List BlockId) : Prop :=
  ∀ (index : Nat) (block : BlockId), blocks[index]? = some block → block ≠ nullBlock →
    ∃ key, hashes[index]? = some key ∧
      pool.cachedBlockHashToBlock.getOneBlock { hashes := key, groupId := groupId } = some block

section Columns

variable {group : AttentionGroup} {pool : BlockPool} {hashes : List (List Bytes)}
  {rows : List (List BlockId)} {groupId : Nat}

theorem AttentionGroup.RowsOf.hitOf (rowsOf : group.RowsOf pool hashes rows)
    (mem : group.groupIds[position]? = some groupId) :
    HitOf pool hashes groupId (rows.map fun row => row.getD position nullBlock) := by
  intro index block found inside
  rw [getElem?_map] at found
  obtain ⟨row, stored, rfl⟩ := map_eq_some_iff.mp found
  rcases rowsOf index row stored with rfl | ⟨key, hashed, hit⟩
  · rw [getD_eq_getElem?_getD, getElem?_map, mem] at inside
    exact absurd rfl inside
  · refine ⟨key, hashed, ?_⟩
    rw [BlockPool.getOneBlock_of_getCachedBlock hit mem]
    rw [getD_eq_getElem?_getD] at inside ⊢
    cases entry : row[position]? with
    | none => simp [entry] at inside
    | some value => rfl

variable {blocks : List BlockId}

/-- The blocks of a hit are blocks of the pool. -/
theorem HitOf.inPool (consistent : pool.HashConsistent) (hit : HitOf pool hashes groupId blocks) :
    ∀ block ∈ blocks, block ≠ nullBlock → block < pool.numGpuBlocks := by
  intro block mem inside
  obtain ⟨index, found⟩ := getElem?_of_mem mem
  obtain ⟨key, -, stored⟩ := hit index block found inside
  have hashed := (consistent.hash block _).mpr (mem_of_getOneBlock stored)
  exact (consistent.inPool block _ hashed).2

/-- Blocks other than the null block are distinct if each has one position. -/
theorem nonNull_nodup_of_positions
    (positions : ∀ (first second : Nat) (block : BlockId), blocks[first]? = some block →
      blocks[second]? = some block → block ≠ nullBlock → first = second) :
    (nonNull blocks).Nodup := by
  induction blocks with
  | nil => exact nodup_nil
  | cons block rest ih =>
    have tail := ih fun first second other atFirst atSecond inside =>
      Nat.succ.inj (positions (first + 1) (second + 1) other atFirst atSecond inside)
    by_cases null : block = nullBlock
    · simpa [nonNull, null] using tail
    · have kept : nonNull (block :: rest) = block :: nonNull rest := by
        simp [nonNull, null]
      rw [kept, nodup_cons]
      refine ⟨fun mem => ?_, tail⟩
      obtain ⟨index, found⟩ := getElem?_of_mem (mem_nonNull.mp mem).1
      exact absurd (positions 0 (index + 1) block rfl found null) (by omega)

theorem HitOf.nodup (consistent : pool.HashConsistent) (distinct : hashes.Nodup)
    (hit : HitOf pool hashes groupId blocks) : (nonNull blocks).Nodup := by
  -- Equal blocks have equal keys, hence equal positions.
  refine nonNull_nodup_of_positions fun first second block atFirst atSecond inside => ?_
  obtain ⟨key, hashed, stored⟩ := hit first block atFirst inside
  obtain ⟨key', hashed', stored'⟩ := hit second block atSecond inside
  have one := (consistent.hash block _).mpr (mem_of_getOneBlock stored)
  have two := (consistent.hash block _).mpr (mem_of_getOneBlock stored')
  rw [one, some.injEq, BlockHashWithGroupId.mk.injEq] at two
  obtain ⟨rfl, -⟩ := two
  obtain ⟨within, -⟩ := List.getElem?_eq_some_iff.mp hashed
  exact (List.getElem?_inj within distinct).mp (hashed.trans hashed'.symm)

end Columns

/-- Hashes of several blocks together are distinct if the single hashes are. -/
theorem BlockPool.scaledHashes_nodup (pool : BlockPool) {blockHashes : List Bytes}
    (distinct : blockHashes.Nodup)
    (blockSize : Nat) : (pool.scaledHashes blockHashes blockSize).Nodup := by
  unfold BlockPool.scaledHashes
  set factor := blockSize / pool.hashBlockSize
  have first : ∀ index ∈ range (blockHashes.length / factor),
      (slice blockHashes (index * factor) ((index + 1) * factor))[0]? =
        blockHashes[index * factor]? ∧ index * factor < blockHashes.length ∧ 0 < factor := by
    intro index mem
    rw [mem_range] at mem
    have positive : 0 < factor := by
      by_contra zero
      rw [Nat.eq_zero_of_not_pos zero, Nat.div_zero] at mem
      omega
    have whole := (Nat.le_div_iff_mul_le positive).mp mem
    rw [Nat.succ_mul] at whole
    refine ⟨?_, by omega, positive⟩
    unfold slice
    rw [getElem?_drop, getElem?_take, if_pos (by rw [Nat.succ_mul]; omega), Nat.add_zero]
  refine Nodup.map_on ?_ nodup_range
  intro left leftMember right rightMember same
  obtain ⟨leftFirst, leftWithin, positive⟩ := first left leftMember
  obtain ⟨rightFirst, -, -⟩ := first right rightMember
  rw [same, rightFirst] at leftFirst
  have positions := (getElem?_inj leftWithin distinct).mp leftFirst.symm
  exact Nat.eq_of_mul_eq_mul_right positive positions

namespace HybridSearch

variable {search : HybridSearch} {pool : BlockPool} {blockHashes : List Bytes}

/-- The rows found so far are rows of cached blocks, for every attention type. -/
def FoundRowsOf (search : HybridSearch) (pool : BlockPool) (blockHashes : List Bytes)
    (found : List FoundRows) : Prop :=
  ∀ (index : Nat) (group : AttentionGroup) (rows : List (List BlockId)),
    search.attentionGroups[index]? = some group → found[index]? = some (some rows) →
      group.RowsOf pool (pool.scaledHashes blockHashes group.spec.blockSize) rows

variable {maxLength : Nat} {pass : Pass} {group : AttentionGroup} {hitLength : Nat}

section

variable (foundRows : search.FoundRowsOf pool blockHashes pass.found)

include foundRows

theorem FoundRowsOf.visit {index : Nat} (mem : search.attentionGroups[index]? = some group) :
    search.FoundRowsOf pool blockHashes
      (search.visit pool blockHashes maxLength pass index group).found := by
  unfold HybridSearch.visit
  split
  · exact foundRows
  · intro other otherGroup rows otherMember stored
    rw [getElem?_set] at stored
    split at stored
    · next same =>
      subst same
      cases mem.symm.trans otherMember
      split at stored
      · cases stored
        exact AttentionGroup.rowsOf_findLongestCacheHit _ _ _
      · cases stored
    · exact foundRows other otherGroup rows otherMember stored

theorem FoundRowsOf.runPass :
    search.FoundRowsOf pool blockHashes (search.runPass pool blockHashes maxLength pass).found := by
  unfold HybridSearch.runPass
  have members : ∀ entry ∈ search.attentionGroups.zipIdx,
      search.attentionGroups[entry.2]? = some entry.1 :=
    fun entry mem => mem_zipIdx_iff_getElem?.mp mem
  generalize search.attentionGroups.zipIdx = entries at members
  induction entries generalizing pass with
  | nil => exact foundRows
  | cons entry entries ih =>
    rw [foldl_cons]
    exact ih (foundRows.visit (members entry mem_cons_self))
      fun other mem => members other (mem_cons_of_mem entry mem)

theorem FoundRowsOf.passes :
    search.FoundRowsOf pool blockHashes
      (search.passes pool blockHashes maxLength fuel hitLength pass).2.found := by
  induction fuel generalizing hitLength pass with
  | zero => exact foundRows
  | succ fuel ih =>
    unfold passes
    dsimp only
    have done : search.FoundRowsOf pool blockHashes (search.runPass pool blockHashes maxLength
          { pass with currHitLength := hitLength }).found :=
      FoundRowsOf.runPass foundRows
    split
    · exact done
    · split
      · exact done
      · exact ih done

end

/-- The rows of every attention type after the final cut are rows of a hit. -/
theorem rowsOf_truncated (foundRows : search.FoundRowsOf pool blockHashes found)
    {rows : List (List BlockId)}
    (mem : (group, rows) ∈ search.attentionGroups.zip (search.truncated hitLength found)) :
    group.RowsOf pool (pool.scaledHashes blockHashes group.spec.blockSize) rows := by
  obtain ⟨index, stored⟩ := getElem?_of_mem mem
  rw [getElem?_zip_eq_some] at stored
  obtain ⟨atIndex, stored⟩ := stored
  unfold truncated at stored
  rw [getElem?_map, getElem?_zipIdx, Option.map_map] at stored
  obtain ⟨⟨first, foundRow⟩, zipped, rowsEq⟩ := Option.map_eq_some_iff.mp stored
  rw [getElem?_zip_eq_some] at zipped
  obtain ⟨sameGroup, storedRow⟩ := zipped
  rw [atIndex, Option.some.injEq] at sameGroup
  have whole : group.RowsOf pool (pool.scaledHashes blockHashes group.spec.blockSize)
      (foundRow.getD []) := by
    cases foundRow with
    | none =>
      intro position row impossible
      simp at impossible
    | some rows => exact foundRows index group rows atIndex storedRow
  simp only [Function.comp_apply] at rowsEq
  split at rowsEq
  · rw [← rowsEq]
    exact whole.take _
  · rw [← rowsEq]
    exact whole

/-- The blocks that a hybrid search returns for a group form a hit of this group. -/
theorem findLongestCacheHit_hitOf (returned : (search.findLongestCacheHit pool numGroups blockHashes
      maxLength).1[groupId]? = some blocks) :
    ∃ blockSize, HitOf pool (pool.scaledHashes blockHashes blockSize) groupId blocks := by
  unfold findLongestCacheHit at returned
  rw [List.getElem?_map] at returned
  obtain ⟨position, inRange, columnEq⟩ := map_eq_some_iff.mp returned
  obtain ⟨within, rfl⟩ := List.getElem?_eq_some_iff.mp inRange
  rw [List.getElem_range] at columnEq
  have noRows : search.FoundRowsOf pool blockHashes (search.attentionGroups.map fun _ => none) := by
    intro index group rows _ stored
    rw [List.getElem?_map] at stored
    obtain ⟨_, -, impossible⟩ := map_eq_some_iff.mp stored
    cases impossible
  unfold column at columnEq
  split at columnEq
  · subst columnEq
    refine ⟨0, fun index block impossible => ?_⟩
    simp at impossible
  · next group rows foundGroup =>
    have mem := List.mem_of_find?_eq_some foundGroup
    have listed : groupId ∈ group.groupIds := by
      have tested := List.find?_some foundGroup
      exact of_decide_eq_true tested
    have rowsOf := rowsOf_truncated (FoundRowsOf.passes noRows) mem
    subst columnEq
    exact ⟨_, rowsOf.hitOf (List.getElem?_idxOf listed)⟩

end HybridSearch

/-- The blocks that are returned for a group form a hit of this group. -/
theorem KVCacheCoordinator.findLongestCacheHit_hitOf {coordinator : KVCacheCoordinator}
    (returned : (coordinator.findLongestCacheHit blockHashes maxLength).1[groupId]? = some blocks) :
    ∃ blockSize, HitOf coordinator.blockPool
      (coordinator.blockPool.scaledHashes blockHashes blockSize) groupId blocks := by
  have none : ∀ blockSize, HitOf coordinator.blockPool
      (coordinator.blockPool.scaledHashes blockHashes blockSize) groupId [] := by
    intro blockSize index block impossible
    simp at impossible
  unfold KVCacheCoordinator.findLongestCacheHit at returned
  split at returned
  · rw [getElem?_map] at returned
    obtain ⟨_, -, rfl⟩ := map_eq_some_iff.mp returned
    exact ⟨0, none 0⟩
  · split at returned
    · next manager _ =>
      cases groupId with
      | zero =>
        simp only [getElem?_cons_zero, some.injEq] at returned
        subst returned
        let group : AttentionGroup := { spec := manager.kvCacheSpec, groupIds := [0] }
        have mem : group.groupIds[0]? = some 0 := rfl
        exact ⟨manager.blockSize, (AttentionGroup.rowsOf_findLongestCacheHit _ _ _).hitOf mem⟩
      | succ groupId => simp at returned
    · exact HybridSearch.findLongestCacheHit_hitOf returned

end TokenCake
