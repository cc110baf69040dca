import TokenCake.KVCache.HitRows

/-!
# The longest hit of an attention type and of several types

Without dropping a block for speculative decoding, the search of a full-attention
or sliding-window type returns the greatest aligned length whose window of cached
blocks is complete.  The scan from the right keeps a run of cached blocks that
starts at an aligned length; a miss inside the run rules out all lengths that the
run passed.

Every attention type replaces the candidate length by the greatest length it
accepts.  Repeating this until no type shortens the candidate yields the greatest
length that all types accept: no common length is ever passed over, and a length
that survives a pass is accepted by every type.
-/

namespace TokenCake

open Nat
open List hiding length

namespace AttentionGroup

section

variable (group : AttentionGroup)

/-- The cached blocks of all groups of a type at a position. -/
def rowAt (pool : BlockPool) (hashes : List (List Bytes)) (index : Nat) : Option (List BlockId) :=
  hashes[index]?.bind fun key => pool.getCachedBlock key group.groupIds

/-- Number of blocks of a sliding window that the search asks for; it asks for at
least one. -/
def windowBlocks (slidingWindow : Nat) : Nat :=
  max (cdiv ((slidingWindow : Int) - 1) group.spec.blockSize).toNat 1

/-- The first block that has to be cached for a hit of a number of blocks. -/
def firstBlock (count : Nat) : Nat :=
  match group.spec.kind with
  | .fullAttention => 0
  | .slidingWindow window => count - group.windowBlocks window
  | .chunkedLocalAttention _ => 0

/-- The window in front of a number of blocks is cached. -/
def HitAt (pool : BlockPool) (hashes : List (List Bytes)) (count : Nat) : Prop :=
  ∀ index, group.firstBlock count ≤ index → index < count → (group.rowAt pool hashes index).isSome

/-- Lengths of hits within a bound that are multiples of the alignment. -/
def hitCounts (pool : BlockPool) (hashes : List (List Bytes))
    (maxLength alignmentTokens : Nat) : Set Nat :=
  { count | count ≤ maxLength / group.spec.blockSize ∧
      alignmentTokens ∣ count * group.spec.blockSize ∧ group.HitAt pool hashes count }

end

theorem isGreatest_alignedLength (blockSize alignment count : Nat) :
    IsGreatest { length | length ≤ count ∧ alignment ∣ length * blockSize }
      (alignedLength blockSize alignment count) := by
  induction count with
  | zero => exact ⟨⟨le_rfl, by simp [alignedLength]⟩, fun _ mem => mem.1⟩
  | succ count ih =>
    have test : (blockSize = alignment ∨ (count + 1) * blockSize % alignment = 0) ↔
        alignment ∣ (count + 1) * blockSize := by
      constructor
      · rintro (rfl | divides)
        · exact dvd_mul_left ..
        · exact dvd_of_mod_eq_zero divides
      · exact fun divides => .inr (mod_eq_zero_of_dvd divides)
    unfold alignedLength
    split
    · next aligned => exact ⟨⟨le_rfl, test.mp aligned⟩, fun _ mem => mem.1⟩
    · next unaligned =>
      refine ⟨⟨ih.1.1.trans (le_succ count), ih.1.2⟩, ?_⟩
      rintro length ⟨within, divides⟩
      have smaller : length ≤ count := by
        by_contra above
        have equal : length = count + 1 := by omega
        exact unaligned (test.mpr (equal ▸ divides))
      exact ih.2 ⟨smaller, divides⟩

variable {group : AttentionGroup} {pool : BlockPool} {hashes : List (List Bytes)}

section FullAttention

/-- The rows from the left reach as far as all blocks are cached. -/
theorem le_length_matchedRows {count : Nat} :
    count ≤ (group.matchedRows pool hashes).length ↔
      ∀ index < count, (group.rowAt pool hashes index).isSome := by
  induction hashes generalizing count with
  | nil =>
    constructor
    · intro within index below
      simp only [matchedRows, length_nil] at within
      omega
    · intro cached
      by_contra above
      have first := cached 0 (by simp only [matchedRows, length_nil] at above; omega)
      simp [rowAt] at first
  | cons key rest ih =>
    unfold matchedRows
    cases found : pool.getCachedBlock key group.groupIds with
    | none =>
      constructor
      · intro within index below
        simp only [length_nil] at within
        omega
      · intro cached
        by_contra above
        have first := cached 0 (by simp only [length_nil] at above; omega)
        simp [rowAt, found] at first
    | some row =>
      cases count with
      | zero => simp
      | succ count =>
        rw [length_cons, add_le_add_iff_right, ih]
        constructor
        · intro cached index below
          cases index with
          | zero => simp [rowAt, found]
          | succ index =>
            have shifted := cached index (by omega)
            simpa [rowAt] using shifted
        · intro cached index below
          have shifted := cached (index + 1) (by omega)
          simpa [rowAt] using shifted

theorem rowAt_take {count index : Nat} (below : index < count) :
    group.rowAt pool (hashes.take count) index = group.rowAt pool hashes index := by
  unfold rowAt
  rw [getElem?_take, if_pos below]

theorem matchedRows_getElem?_eq {index : Nat}
    (within : index < (group.matchedRows pool hashes).length) :
    (group.matchedRows pool hashes)[index]? = group.rowAt pool hashes index := by
  obtain ⟨row, found⟩ : ∃ row, (group.matchedRows pool hashes)[index]? = some row :=
    ⟨_, getElem?_eq_getElem within⟩
  obtain ⟨key, hashed, cached⟩ := matchedRows_getElem? found
  rw [found, rowAt, hashed, Option.bind_some, cached]

theorem isGreatest_fullAttentionHit (full : group.spec.kind = .fullAttention)
    (maxLength alignment : Nat) :
    IsGreatest (group.hitCounts pool hashes maxLength alignment)
        (group.fullAttentionHit pool hashes maxLength false alignment).length ∧
      ∀ index < (group.fullAttentionHit pool hashes maxLength false alignment).length,
        (group.fullAttentionHit pool hashes maxLength false alignment)[index]? =
          group.rowAt pool hashes index := by
  unfold fullAttentionHit alignRows
  simp only [Bool.false_eq_true, if_false]
  set bound := maxLength / group.spec.blockSize
  set rows := group.matchedRows pool (hashes.take bound)
  obtain ⟨⟨within, aligned⟩, greatest⟩ :=
    isGreatest_alignedLength group.spec.blockSize alignment rows.length
  set count := alignedLength group.spec.blockSize alignment rows.length
  have inBound : ∀ index < rows.length, index < bound := by
    intro index below
    by_contra beyond
    have cached := le_length_matchedRows.mp (le_refl rows.length) index below
    rw [rowAt, getElem?_take, if_neg beyond] at cached
    cases cached
  have first : ∀ count, group.firstBlock count = 0 := by
    simp [firstBlock, full]
  rw [length_take, min_eq_left within]
  refine ⟨⟨⟨?_, aligned, ?_⟩, ?_⟩, ?_⟩
  · by_contra beyond
    have inside := inBound bound (by omega)
    omega
  · intro index _ below
    have cached := le_length_matchedRows.mp within index below
    rwa [rowAt_take (inBound index (by omega))] at cached
  · rintro other ⟨otherWithin, otherAligned, hit⟩
    refine greatest ⟨le_length_matchedRows.mpr fun index below => ?_, otherAligned⟩
    rw [rowAt_take (by omega)]
    exact hit index (by rw [first]; omega) below
  · intro index below
    rw [getElem?_take, if_pos below, matchedRows_getElem?_eq (lt_of_lt_of_le below within),
      rowAt_take (inBound index (by omega))]

end FullAttention

section SlidingWindow

/-- The last blocks in front of a length are cached. -/
def WindowAt (group : AttentionGroup) (pool : BlockPool) (hashes : List (List Bytes))
    (window count : Nat) : Prop :=
  ∀ index, count - window ≤ index → index < count → (group.rowAt pool hashes index).isSome

/-- State of the scan from the right: a run of cached blocks in front of an aligned
length, and no window in front of a greater length. -/
structure Scan (group : AttentionGroup) (pool : BlockPool) (hashes : List (List Bytes))
    (alignmentTokens window total index contiguous : Nat) (rows : List (List BlockId)) : Prop where
  length : rows.length = total
  bound : index + contiguous ≤ total
  cached : ∀ position, index ≤ position → position < index + contiguous →
    (group.rowAt pool hashes position).isSome ∧ rows[position]? = group.rowAt pool hashes position
  aligned : contiguous ≠ 0 → alignmentTokens ∣ (index + contiguous) * group.spec.blockSize
  above : ∀ count, index + contiguous < count → count ≤ total →
    alignmentTokens ∣ count * group.spec.blockSize → ¬ group.WindowAt pool hashes window count

/-- The answer of the scan: the greatest aligned length with a window. -/
structure ScanResult (group : AttentionGroup) (pool : BlockPool) (hashes : List (List Bytes))
    (alignmentTokens window total : Nat) (rows : List (List BlockId)) : Prop where
  greatest : IsGreatest { count | count ≤ total ∧
    alignmentTokens ∣ count * group.spec.blockSize ∧ group.WindowAt pool hashes window count }
    rows.length
  cached : ∀ index, rows.length - window ≤ index → index < rows.length →
    rows[index]? = group.rowAt pool hashes index

variable {alignment window total index contiguous : Nat} {rows : List (List BlockId)}

/-- A run in front of an aligned length that covers the window, or all blocks in
front of it, is the answer. -/
theorem Scan.result (scan : group.Scan pool hashes alignment window total index contiguous rows)
    (covers : index = 0 ∨ window ≤ contiguous)
    (aligned : alignment ∣ (index + contiguous) * group.spec.blockSize) :
    group.ScanResult pool hashes alignment window total (rows.take (index + contiguous)) := by
  have length : (rows.take (index + contiguous)).length = index + contiguous := by
    rw [length_take, scan.length, min_eq_left scan.bound]
  refine ⟨⟨?_, ?_⟩, ?_⟩
  · rw [length]
    refine ⟨scan.bound, aligned, fun position from_ below => ?_⟩
    exact (scan.cached position (by omega) below).1
  · rintro count ⟨within, countAligned, cached⟩
    rw [length]
    by_contra beyond
    exact scan.above count (by omega) within countAligned cached
  · rw [length]
    intro position from_ below
    rw [getElem?_take, if_pos below]
    exact (scan.cached position (by omega) below).2

variable (scan : group.Scan pool hashes alignment window total (index + 1) contiguous rows)

include scan in
/-- A miss behind the run rules out all lengths inside the run. -/
theorem Scan.miss (short : contiguous < window) (missing : group.rowAt pool hashes index = none) :
    group.Scan pool hashes alignment window total index 0 rows := by
  refine ⟨scan.length, by have := scan.bound; omega, fun position from_ below => by omega,
    fun nonzero => absurd rfl nonzero, ?_⟩
  intro count above within aligned cached
  by_cases inside : count ≤ index + 1 + contiguous
  · have present := cached index (by omega) (by omega)
    rw [missing] at present
    cases present
  · exact scan.above count (by omega) within aligned cached

/-- A length that is not aligned starts no run. -/
theorem Scan.skip (scan : group.Scan pool hashes alignment window total (index + 1) 0 rows)
    (unaligned : ¬ alignment ∣ (index + 1) * group.spec.blockSize) :
    group.Scan pool hashes alignment window total index 0 rows := by
  refine ⟨scan.length, by have := scan.bound; omega, fun position from_ below => by omega,
    fun nonzero => absurd rfl nonzero, ?_⟩
  intro count above within aligned cached
  by_cases here : count = index + 1
  · exact unaligned (here ▸ aligned)
  · exact scan.above count (by omega) within aligned cached

include scan in
/-- A cached block extends the run. -/
theorem Scan.extend (found : group.rowAt pool hashes index = some row)
    (aligned : alignment ∣ (index + 1 + contiguous) * group.spec.blockSize) :
    group.Scan pool hashes alignment window total index (contiguous + 1) (rows.set index row) := by
  have sum : index + (contiguous + 1) = index + 1 + contiguous := by omega
  refine ⟨?_, by have := scan.bound; omega, ?_, fun _ => by rw [sum]; exact aligned, ?_⟩
  · rw [length_set, scan.length]
  · intro position from_ below
    by_cases here : position = index
    · subst here
      have inside : position < rows.length := by
        have := scan.bound
        have := scan.length
        omega
      rw [found, getElem?_set_self inside]
      exact ⟨rfl, rfl⟩
    · rw [getElem?_set_ne (Ne.symm here)]
      exact scan.cached position (by omega) (by omega)
  · intro count above
    exact scan.above count (by omega)

theorem searchWindow_succ (group : AttentionGroup) (pool : BlockPool) (hashes : List (List Bytes))
    (alignment windowBlocks index contiguous : Nat) (rows : List (List BlockId)) :
    group.searchWindow pool hashes false alignment windowBlocks (index + 1) contiguous rows =
      match group.rowAt pool hashes index with
      | none => group.searchWindow pool hashes false alignment windowBlocks index 0 rows
      | some row =>
        if contiguous = 0 ∧ group.spec.blockSize ≠ alignment ∧
            (index + 1) * group.spec.blockSize % alignment ≠ 0 then
          group.searchWindow pool hashes false alignment windowBlocks index 0 rows
        else if contiguous + 1 ≥ windowBlocks then
          (true, (rows.set index row).take (index + contiguous + 1))
        else
          group.searchWindow pool hashes false alignment windowBlocks index
            (contiguous + 1) (rows.set index row) := rfl

theorem scanResult_searchWindow (windowEq : window = max rawWindow 1)
    (scan : group.Scan pool hashes alignment window total index contiguous rows)
    (short : contiguous < window) :
    group.ScanResult pool hashes alignment window total
      (if (group.searchWindow pool hashes false alignment rawWindow index contiguous
          rows).1 = true then
        (group.searchWindow pool hashes false alignment rawWindow index contiguous rows).2
      else group.alignRows alignment
        (group.searchWindow pool hashes false alignment rawWindow index contiguous rows).2) := by
  induction index generalizing contiguous rows with
  | zero =>
    -- The run at the left end starts at an aligned length already.
    have aligned : alignment ∣ (0 + contiguous) * group.spec.blockSize := by
      by_cases none : contiguous = 0
      · simp [none]
      · exact scan.aligned none
    have answer := scan.result (.inl rfl) aligned
    simp only [searchWindow, Bool.false_eq_true, if_false]
    have unchanged : group.alignRows alignment (rows.take contiguous) = rows.take contiguous := by
      rw [zero_add] at aligned
      have whole := (isGreatest_alignedLength group.spec.blockSize alignment
        contiguous).2 ⟨le_rfl, aligned⟩
      have length : (rows.take contiguous).length = contiguous := by
        have bound := scan.bound
        rw [length_take, scan.length]
        omega
      unfold alignRows
      rw [length]
      exact take_of_length_le (by omega)
    rw [unchanged]
    rwa [zero_add] at answer
  | succ index ih =>
    rw [searchWindow_succ]
    cases found : group.rowAt pool hashes index with
    | none => exact ih (scan.miss short found) (by omega)
    | some row =>
      dsimp only
      split
      · next skipped =>
        obtain ⟨rfl, -, unaligned⟩ := skipped
        refine ih (scan.skip ?_) short
        exact fun divides => unaligned (mod_eq_zero_of_dvd divides)
      · next starts =>
        have aligned : alignment ∣ (index + 1 + contiguous) * group.spec.blockSize := by
          by_cases none : contiguous = 0
          · subst none
            by_cases same : group.spec.blockSize = alignment
            · exact same ▸ dvd_mul_left _ _
            · refine dvd_of_mod_eq_zero ?_
              by_contra unaligned
              exact starts ⟨rfl, same, unaligned⟩
          · exact scan.aligned none
        have extended := scan.extend found aligned
        split
        · next enough =>
          have answer := extended.result (.inr (by omega))
            (by rwa [show index + (contiguous + 1) = index + 1 + contiguous by omega])
          rw [if_pos rfl]
          exact answer
        · next few => exact ih extended (by omega)

theorem scanResult_slidingWindowHit (slidingWindow maxLength : Nat) :
    group.ScanResult pool hashes alignment (group.windowBlocks slidingWindow)
      (maxLength / group.spec.blockSize)
      (group.slidingWindowHit pool slidingWindow hashes maxLength false alignment) := by
  unfold slidingWindowHit windowBlocks
  refine scanResult_searchWindow rfl ⟨length_replicate, le_rfl, ?_, ?_, ?_⟩ ?_
  · intro position from_ below
    omega
  · exact fun nonzero => absurd rfl nonzero
  · intro count above within
    omega
  · omega

end SlidingWindow

/-- The search of a type returns its longest hit, with the cached blocks wherever
they have to be cached. -/
theorem findLongestCacheHit_spec {group : AttentionGroup}
    (supported : ∀ chunk, group.spec.kind ≠ .chunkedLocalAttention chunk)
    (pool : BlockPool) (hashes : List (List Bytes)) (maxLength alignment : Nat) :
    IsGreatest (group.hitCounts pool hashes maxLength alignment)
        (group.findLongestCacheHit pool hashes maxLength false alignment).length ∧
      ∀ index, group.firstBlock
            (group.findLongestCacheHit pool hashes maxLength false alignment).length ≤ index →
          index < (group.findLongestCacheHit pool hashes maxLength false alignment).length →
            (group.findLongestCacheHit pool hashes maxLength false alignment)[index]? =
              group.rowAt pool hashes index := by
  unfold findLongestCacheHit
  cases kind : group.spec.kind with
  | fullAttention =>
    obtain ⟨greatest, rows⟩ := isGreatest_fullAttentionHit kind maxLength alignment
    exact ⟨greatest, fun index _ below => rows index below⟩
  | slidingWindow window =>
    have answer : group.ScanResult pool hashes alignment _ _ _ :=
      scanResult_slidingWindowHit window maxLength
    have first : ∀ count, group.firstBlock count = count - group.windowBlocks window := by
      simp [firstBlock, kind]
    refine ⟨?_, ?_⟩
    · have sets : group.hitCounts pool hashes maxLength alignment =
          { count | count ≤ maxLength / group.spec.blockSize ∧
            alignment ∣ count * group.spec.blockSize ∧
              group.WindowAt pool hashes (group.windowBlocks window) count } := by
        unfold hitCounts HitAt WindowAt
        simp only [first]
      rw [sets]
      exact answer.greatest
    · simp only [first]
      exact answer.cached
  | chunkedLocalAttention chunk => exact absurd kind (supported chunk)

end AttentionGroup

open Option HybridSearch

variable {rows : List (List BlockId)}

namespace AttentionGroup

/-- A type has a hit of a number of tokens. -/
def Accepts (group : AttentionGroup) (pool : BlockPool) (blockHashes : List Bytes)
    (alignmentTokens length : Nat) : Prop :=
  alignmentTokens ∣ length ∧ group.HitAt pool (pool.scaledHashes blockHashes group.spec.blockSize)
      (length / group.spec.blockSize)

/-- A type that the search supports. -/
structure Supported (group : AttentionGroup) (alignmentTokens : Nat) : Prop where
  positive : 0 < group.spec.blockSize
  divides : group.spec.blockSize ∣ alignmentTokens
  kind : ∀ chunk, group.spec.kind ≠ .chunkedLocalAttention chunk

/-- Rows of a hit: as many as accepted, with the cached blocks where they have to be
cached. -/
structure IsHit (group : AttentionGroup) (pool : BlockPool) (blockHashes : List Bytes)
    (alignmentTokens : Nat) (rows : List (List BlockId)) : Prop where
  accepts : group.Accepts pool blockHashes alignmentTokens (rows.length * group.spec.blockSize)
  cached : ∀ index, group.firstBlock rows.length ≤ index → index < rows.length →
    rows[index]? = group.rowAt pool (pool.scaledHashes blockHashes group.spec.blockSize) index

section Search

variable {group : AttentionGroup} {pool : BlockPool} {blockHashes : List Bytes} {alignment : Nat}

/-- The search of a type finds the greatest length it accepts. -/
theorem Supported.search (supported : group.Supported alignment)
    (pool : BlockPool) (blockHashes : List Bytes) (maxLength : Nat) :
    IsGreatest { length | length ≤ maxLength ∧ group.Accepts pool blockHashes alignment length }
      ((group.findLongestCacheHit pool (pool.scaledHashes blockHashes group.spec.blockSize)
        maxLength false alignment).length * group.spec.blockSize) ∧
    group.IsHit pool blockHashes alignment
      (group.findLongestCacheHit pool (pool.scaledHashes blockHashes group.spec.blockSize)
        maxLength false alignment) := by
  obtain ⟨⟨⟨within, aligned, hit⟩, greatest⟩, cached⟩ :=
    findLongestCacheHit_spec supported.kind pool
      (pool.scaledHashes blockHashes group.spec.blockSize) maxLength alignment
  have accepts : group.Accepts pool blockHashes alignment
      ((group.findLongestCacheHit pool (pool.scaledHashes blockHashes group.spec.blockSize)
        maxLength false alignment).length * group.spec.blockSize) := by
    refine ⟨aligned, ?_⟩
    rwa [Nat.mul_div_cancel _ supported.positive]
  refine ⟨⟨⟨(Nat.le_div_iff_mul_le supported.positive).mp within, accepts⟩, ?_⟩, accepts, cached⟩
  rintro length ⟨bounded, lengthAligned, lengthHit⟩
  have whole : length / group.spec.blockSize * group.spec.blockSize = length :=
    Nat.div_mul_cancel (supported.divides.trans lengthAligned)
  have count := greatest ⟨Nat.div_le_div_right bounded, by rwa [whole], lengthHit⟩
  rw [← whole]
  exact Nat.mul_le_mul_right _ count

/-- Full attention accepts every aligned length below one it accepts. -/
theorem Accepts.of_le (accepts : group.Accepts pool blockHashes alignment length)
    (full : group.isFullAttention = true) {shorter : Nat}
    (below : shorter ≤ length) (aligned : alignment ∣ shorter) :
    group.Accepts pool blockHashes alignment shorter := by
  refine ⟨aligned, fun index _ inside => accepts.2 index ?_ ?_⟩
  · have kind : group.spec.kind = .fullAttention := of_decide_eq_true full
    simp [firstBlock, kind]
  · exact Nat.lt_of_lt_of_le inside (Nat.div_le_div_right below)

/-- The rows of full attention may be cut. -/
theorem IsHit.take (isHit : group.IsHit pool blockHashes alignment rows)
    (full : group.isFullAttention = true) {count : Nat}
    (within : count ≤ rows.length) (aligned : alignment ∣ count * group.spec.blockSize) :
    group.IsHit pool blockHashes alignment (rows.take count) := by
  have kind : group.spec.kind = .fullAttention := of_decide_eq_true full
  have length : (rows.take count).length = count := by
    rw [length_take, min_eq_left within]
  refine ⟨?_, ?_⟩
  · rw [length]
    exact isHit.accepts.of_le full (mul_le_mul_right _ within) aligned
  · rw [length]
    intro index _ below
    rw [getElem?_take, if_pos below]
    exact isHit.cached index (by simp [firstBlock, kind]) (by omega)

end Search

end AttentionGroup

namespace HybridSearch

variable {search : HybridSearch} {pool : BlockPool} {blockHashes : List Bytes} {maxLength : Nat}

/-- A search without speculative decoding over supported types. -/
structure Supported (search : HybridSearch) : Prop where
  eagle : search.eagleAttnGroupIndices = []
  groups : ∀ group ∈ search.attentionGroups, group.Supported search.lcmBlockSize

/-- What is found is a hit that is at least as long as the candidate. -/
structure FoundHits (search : HybridSearch) (pool : BlockPool) (blockHashes : List Bytes)
    (pass : Pass) : Prop where
  length : pass.found.length = search.attentionGroups.length
  hits : ∀ (index : Nat) (group : AttentionGroup) (rows : List (List BlockId)),
    search.attentionGroups[index]? = some group → pass.found[index]? = some (some rows) →
      search.lcmBlockSize ∣ pass.currHitLength ∧
        pass.currHitLength ≤ rows.length * group.spec.blockSize ∧
          group.IsHit pool blockHashes search.lcmBlockSize rows

/-- The rows that a visit leaves for its type: those known before for full attention,
else those of the new candidate. -/
def Rows (group : AttentionGroup) (before after : FoundRows) (currHitLength : Nat) : Prop :=
  ∃ rows, after = some rows ∧ ((group.isFullAttention = true ∧ before = some rows) ∨
      ((group.isFullAttention = true → before = none) ∧
        rows.length * group.spec.blockSize = currHitLength))

variable {pass : Pass} {group : AttentionGroup} {hitLength index fuel : Nat} {finish : Pass}

theorem visit_spec (supported : search.Supported) (found : search.FoundHits pool blockHashes pass)
    (maxLength : Nat) (mem : search.attentionGroups[index]? = some group) :
    IsGreatest { length | length ≤ pass.currHitLength ∧
        group.Accepts pool blockHashes search.lcmBlockSize length }
      (search.visit pool blockHashes maxLength pass index group).currHitLength ∧
    search.FoundHits pool blockHashes (search.visit pool blockHashes maxLength pass index group) ∧
    Rows group (pass.found[index]?).join
      ((search.visit pool blockHashes maxLength pass index group).found[index]?).join
      (search.visit pool blockHashes maxLength pass index group).currHitLength ∧
    ∀ other, other ≠ index →
      (search.visit pool blockHashes maxLength pass index group).found[other]? =
        pass.found[other]? := by
  have groupSupported := supported.groups group (mem_of_getElem? mem)
  unfold visit
  dsimp only
  split
  · next rows full known =>
    -- The candidate is an aligned prefix of the known hit.
    obtain ⟨aligned, within, isHit⟩ :=
      found.hits index group rows mem (join_eq_some_iff.mp known)
    have unchanged : pass.currHitLength / group.spec.blockSize * group.spec.blockSize =
        pass.currHitLength := Nat.div_mul_cancel (groupSupported.divides.trans aligned)
    rw [unchanged]
    have accepts := isHit.accepts.of_le full within aligned
    refine ⟨⟨⟨le_rfl, accepts⟩, fun length mem => mem.1⟩, found, ?_, fun _ _ => rfl⟩
    exact ⟨rows, known, .inl ⟨full, known⟩⟩
  · next search_again =>
    have fresh : group.isFullAttention = true → (pass.found[index]?).join = none := by
      intro full
      cases known : (pass.found[index]?).join with
      | none => rfl
      | some rows => exact absurd known (search_again rows full)
    have noEagle : (decide (index ∈ search.eagleAttnGroupIndices) &&
        !decide (index ∈ pass.eagleVerified)) = false := by
      simp [supported.eagle]
    simp only [noEagle, Bool.false_eq_true, if_false]
    obtain ⟨greatest, isHit⟩ := groupSupported.search pool blockHashes pass.currHitLength
    set rows := group.findLongestCacheHit pool
      (pool.scaledHashes blockHashes group.spec.blockSize) pass.currHitLength false
      search.lcmBlockSize
    have inside : index < pass.found.length := by
      rw [found.length]
      exact (List.getElem?_eq_some_iff.mp mem).1
    have stored : (pass.found.set index (some rows))[index]? = some (some rows) :=
      getElem?_set_self inside
    have others : ∀ other, other ≠ index →
        (pass.found.set index (some rows))[other]? = pass.found[other]? := fun other different =>
      getElem?_set_ne different.symm
    refine ⟨greatest, ⟨?_, ?_⟩, ⟨rows, ?_, .inr ⟨fresh, rfl⟩⟩, others⟩
    · rw [length_set, found.length]
    · intro other otherGroup otherRows otherMember otherStored
      refine ⟨isHit.accepts.1, ?_⟩
      by_cases same : other = index
      · subst same
        rw [stored] at otherStored
        rw [mem] at otherMember
        cases otherStored
        cases otherMember
        exact ⟨le_rfl, isHit⟩
      · rw [others other same] at otherStored
        obtain ⟨-, within, otherHit⟩ :=
          found.hits other otherGroup otherRows otherMember otherStored
        exact ⟨greatest.1.1.trans within, otherHit⟩
    · rw [stored]
      rfl

/-- What visits of some types do to the candidate and to the known hits. -/
structure Visited (search : HybridSearch) (pool : BlockPool) (blockHashes : List Bytes)
    (entries : List (AttentionGroup × Nat)) (start finish : Pass) : Prop where
  le : finish.currHitLength ≤ start.currHitLength
  common : ∀ length ≤ start.currHitLength,
    (∀ entry ∈ entries, entry.1.Accepts pool blockHashes search.lcmBlockSize length) →
      length ≤ finish.currHitLength
  accepts : finish.currHitLength = start.currHitLength →
    ∀ entry ∈ entries, entry.1.Accepts pool blockHashes search.lcmBlockSize start.currHitLength
  found : search.FoundHits pool blockHashes finish
  rows : ∀ entry ∈ entries, ∃ rows, finish.found[entry.2]? = some (some rows) ∧
    ((entry.1.isFullAttention = true ∧ start.found[entry.2]? = some (some rows)) ∨
      ((entry.1.isFullAttention = true → (start.found[entry.2]?).join = none) ∧
        rows.length * entry.1.spec.blockSize ≤ start.currHitLength))
  others : ∀ index, (∀ entry ∈ entries, entry.2 ≠ index) →
    finish.found[index]? = start.found[index]?

theorem visited_foldl (supported : search.Supported) (maxLength : Nat)
    {entries : List (AttentionGroup × Nat)}
    (members : ∀ entry ∈ entries, search.attentionGroups[entry.2]? = some entry.1)
    (distinct : (entries.map Prod.snd).Nodup) {start : Pass}
    (found : search.FoundHits pool blockHashes start) :
    search.Visited pool blockHashes entries start (entries.foldl
        (fun pass entry => search.visit pool blockHashes maxLength pass entry.2 entry.1)
          start) := by
  induction entries generalizing start with
  | nil =>
    refine ⟨le_rfl, fun _ within _ => within, fun _ _ => nofun, found, nofun, fun _ _ => rfl⟩
  | cons entry rest ih =>
    rw [foldl_cons]
    obtain ⟨greatest, between, ⟨rows, stored, source⟩, kept⟩ :=
      visit_spec supported found maxLength (members entry mem_cons_self)
    rw [map_cons, nodup_cons] at distinct
    have apart : ∀ other ∈ rest, other.2 ≠ entry.2 := fun other mem same =>
      distinct.1 (same ▸ mem_map_of_mem mem)
    have visited := ih
      (fun other mem => members other (mem_cons_of_mem entry mem)) distinct.2 between
    set next := search.visit pool blockHashes maxLength start entry.2 entry.1
    set finish := rest.foldl
      (fun pass entry => search.visit pool blockHashes maxLength pass entry.2 entry.1)
      next
    have shrunk : next.currHitLength ≤ start.currHitLength := greatest.1.1
    refine ⟨visited.le.trans shrunk, ?_, ?_, visited.found, ?_, ?_⟩
    · intro length within accepted
      refine visited.common length (greatest.2 ⟨within, accepted entry mem_cons_self⟩) ?_
      exact fun other mem => accepted other (mem_cons_of_mem entry mem)
    · intro unchanged other mem
      have lower := visited.le
      have same : next.currHitLength = start.currHitLength := by omega
      rcases mem_cons.mp mem with rfl | mem
      · rw [← same]
        exact greatest.1.2
      · rw [← same]
        exact visited.accepts (by omega) other mem
    · intro other mem
      rcases mem_cons.mp mem with rfl | mem
      · refine ⟨rows, ?_, ?_⟩
        · rw [visited.others other.2 apart]
          exact join_eq_some_iff.mp stored
        · rcases source with ⟨full, known⟩ | ⟨fresh, here⟩
          · exact .inl ⟨full, join_eq_some_iff.mp known⟩
          · exact .inr ⟨fresh, here ▸ shrunk⟩
      · obtain ⟨otherRows, otherStored, otherSource⟩ := visited.rows other mem
        refine ⟨otherRows, otherStored, ?_⟩
        rw [kept other.2 (apart other mem)] at otherSource
        rcases otherSource with known | ⟨fresh, within⟩
        · exact .inl known
        · exact .inr ⟨fresh, within.trans shrunk⟩
    · intro index different
      rw [visited.others index fun other mem =>
          different other (mem_cons_of_mem entry mem),
        kept index (different entry mem_cons_self).symm]

theorem visited_runPass (supported : search.Supported) (maxLength : Nat) {start : Pass}
    (found : search.FoundHits pool blockHashes start) :
    search.Visited pool blockHashes search.attentionGroups.zipIdx start
      (search.runPass pool blockHashes maxLength start) := by
  refine visited_foldl supported maxLength ?_ ?_ found
  · exact fun entry mem => mem_zipIdx_iff_getElem?.mp mem
  · rw [zipIdx_map_snd]
    exact nodup_range'

/-- What the repeated passes return: the greatest length that all types accept, and
hits of at least this length; those of sliding windows have exactly this length. -/
structure Settled (search : HybridSearch) (pool : BlockPool) (blockHashes : List Bytes)
    (maxLength length : Nat) (pass : Pass) : Prop where
  greatest : IsGreatest { length | length ≤ maxLength ∧
    ∀ group ∈ search.attentionGroups,
      group.Accepts pool blockHashes search.lcmBlockSize length } length
  rows : ∀ (index : Nat) (group : AttentionGroup), search.attentionGroups[index]? = some group →
    ∃ rows, pass.found[index]? = some (some rows) ∧
      group.IsHit pool blockHashes search.lcmBlockSize rows ∧
      length ≤ rows.length * group.spec.blockSize ∧
      (group.isFullAttention = false → rows.length * group.spec.blockSize = length)

/-- A pass that does not shorten the candidate settles it. -/
theorem Visited.settled
    (visited : search.Visited pool blockHashes search.attentionGroups.zipIdx start finish)
    (unchanged : start.currHitLength ≤ finish.currHitLength) :
    search.Settled pool blockHashes start.currHitLength start.currHitLength finish := by
  have same : finish.currHitLength = start.currHitLength := le_antisymm visited.le unchanged
  refine ⟨⟨⟨le_rfl, fun group mem => ?_⟩, fun _ bounded => bounded.1⟩, ?_⟩
  · obtain ⟨index, found⟩ := getElem?_of_mem mem
    exact visited.accepts same (group, index) (mem_zipIdx_iff_getElem?.mpr found)
  · intro index group mem
    obtain ⟨rows, stored, source⟩ :=
      visited.rows (group, index) (mem_zipIdx_iff_getElem?.mpr mem)
    obtain ⟨-, within, isHit⟩ := visited.found.hits index group rows mem stored
    refine ⟨rows, stored, isHit, same ▸ within, fun notFull => ?_⟩
    rcases source with ⟨full, -⟩ | ⟨-, bounded⟩
    · cases notFull.symm.trans full
    · exact le_antisymm bounded (same ▸ within)

/-- A pass keeps what is known of full attention. -/
theorem Visited.keeps
    (visited : search.Visited pool blockHashes search.attentionGroups.zipIdx start finish)
    (mem : search.attentionGroups[index]? = some group) (full : group.isFullAttention = true)
    (known : start.found[index]? = some (some rows)) : finish.found[index]? = some (some rows) := by
  obtain ⟨again, stored, source⟩ :=
    visited.rows (group, index) (mem_zipIdx_iff_getElem?.mpr mem)
  rcases source with ⟨-, same⟩ | ⟨fresh, -⟩
  · rw [known, some.injEq, some.injEq] at same
    rw [same]
    exact stored
  · have none := fresh full
    rw [known] at none
    cases none

/-- Repeated passes settle the candidate, and keep what is known of full attention. -/
theorem settled_passes (supported : search.Supported)
    (notSimple : search.isSimpleHybrid = false) (enough : hitLength < fuel)
    (found : search.FoundHits pool blockHashes { pass with currHitLength := hitLength }) :
    search.Settled pool blockHashes hitLength
      (search.passes pool blockHashes maxLength fuel hitLength pass).1
      (search.passes pool blockHashes maxLength fuel hitLength pass).2 ∧
    ∀ (index : Nat) (group : AttentionGroup) (rows : List (List BlockId)),
      search.attentionGroups[index]? = some group → group.isFullAttention = true →
        (search.runPass pool blockHashes maxLength
            { pass with currHitLength := hitLength }).found[index]? = some (some rows) →
          (search.passes pool blockHashes maxLength fuel hitLength pass).2.found[index]? =
            some (some rows) := by
  induction fuel generalizing hitLength pass with
  | zero => omega
  | succ fuel ih =>
    unfold passes
    have visited := visited_runPass supported maxLength found
    set done := search.runPass pool blockHashes maxLength
      { pass with currHitLength := hitLength }
    rw [notSimple]
    simp only [Bool.false_eq_true, if_false]
    split
    · next unchanged => exact ⟨visited.settled unchanged, fun _ _ _ _ _ => id⟩
    · next shortened =>
      obtain ⟨settled, kept⟩ :=
        ih (show done.currHitLength < fuel by omega) visited.found
      refine ⟨⟨⟨⟨settled.greatest.1.1.trans (by omega), settled.greatest.1.2⟩, ?_⟩,
        settled.rows⟩, ?_⟩
      · rintro length ⟨within, accepted⟩
        refine settled.greatest.2 ⟨visited.common length within ?_, accepted⟩
        exact fun entry mem => accepted entry.1 (fst_mem_of_mem_zipIdx mem)
      · intro index group rows mem full stored
        refine kept index group rows mem full ?_
        exact (visited_runPass supported maxLength visited.found).keeps mem full stored

section FirstPass

variable {first second : AttentionGroup} {rest : List AttentionGroup} {start : Pass}

/-- The first two types, if the first one is full attention: the candidate becomes the
greatest length that both accept. -/
theorem visit_visit_spec (supported : search.Supported)
    (maxLength : Nat) (groups : search.attentionGroups = first :: second :: rest)
    (full : first.isFullAttention = true) (found : search.FoundHits pool blockHashes start)
    (fresh : (start.found[1]?).join = none) :
    let next := search.visit pool blockHashes maxLength
      (search.visit pool blockHashes maxLength start 0 first) 1 second
    IsGreatest { length | length ≤ start.currHitLength ∧
        first.Accepts pool blockHashes search.lcmBlockSize length ∧
          second.Accepts pool blockHashes search.lcmBlockSize length } next.currHitLength ∧
    search.FoundHits pool blockHashes next ∧
    (∃ rows, next.found[1]? = some (some rows) ∧
      rows.length * second.spec.blockSize = next.currHitLength) ∧
    ∀ other, other ≠ 0 → other ≠ 1 → next.found[other]? = start.found[other]? := by
  have firstMember : search.attentionGroups[0]? = some first := by simp [groups]
  have secondMember : search.attentionGroups[1]? = some second := by simp [groups]
  obtain ⟨firstGreatest, firstFound, -, firstKept⟩ :=
    visit_spec supported found maxLength firstMember
  obtain ⟨secondGreatest, secondFound, ⟨rows, stored, source⟩, secondKept⟩ :=
    visit_spec supported firstFound maxLength secondMember
  refine ⟨⟨⟨?_, ?_, ?_⟩, ?_⟩, secondFound, ⟨rows, join_eq_some_iff.mp stored, ?_⟩, ?_⟩
  · exact secondGreatest.1.1.trans firstGreatest.1.1
  · exact firstGreatest.1.2.of_le full secondGreatest.1.1 secondGreatest.1.2.1
  · exact secondGreatest.1.2
  · rintro length ⟨within, acceptsFirst, acceptsSecond⟩
    exact secondGreatest.2 ⟨firstGreatest.2 ⟨within, acceptsFirst⟩, acceptsSecond⟩
  · rcases source with ⟨-, known⟩ | ⟨-, here⟩
    · rw [firstKept 1 one_ne_zero, fresh] at known
      cases known
    · exact here
  · intro other notFirst notSecond
    rw [secondKept other notSecond, firstKept other notFirst]

theorem runPass_eq (pool : BlockPool) (blockHashes : List Bytes) (maxLength : Nat) (start : Pass)
    (groups : search.attentionGroups = first :: second :: rest) :
    search.runPass pool blockHashes maxLength start = (rest.zipIdx 2).foldl
        (fun pass entry => search.visit pool blockHashes maxLength pass entry.2 entry.1)
        (search.visit pool blockHashes maxLength
          (search.visit pool blockHashes maxLength start 0 first) 1 second) := by
  unfold runPass
  rw [groups]
  rfl

/-- Full attention and one other type: one pass settles the candidate. -/
theorem settled_simple (supported : search.Supported)
    (maxLength fuel : Nat) (simple : search.isSimpleHybrid = true) {hitLength : Nat}
    (found : search.FoundHits pool blockHashes { pass with currHitLength := hitLength })
    (fresh : (pass.found[1]?).join = none) :
    search.Settled pool blockHashes hitLength
      (search.passes pool blockHashes maxLength (fuel + 1) hitLength pass).1
      (search.passes pool blockHashes maxLength (fuel + 1) hitLength pass).2 ∧
    (search.passes pool blockHashes maxLength (fuel + 1) hitLength pass).2 =
      search.runPass pool blockHashes maxLength
        { pass with currHitLength := hitLength } := by
  unfold passes
  dsimp only
  rw [simple]
  have visited := visited_runPass supported maxLength found
  split
  · next unchanged => exact ⟨visited.settled unchanged, rfl⟩
  · rw [if_pos rfl]
    refine ⟨?_, rfl⟩
    unfold isSimpleHybrid at simple
    rw [Bool.and_eq_true, decide_eq_true_iff] at simple
    obtain ⟨first, second, groups⟩ := length_eq_two.mp simple.1
    have full : first.isFullAttention = true := by
      have head := simple.2
      rw [groups] at head
      exact head
    have both := visit_visit_spec supported maxLength groups full found fresh
    have equation :=
      runPass_eq pool blockHashes maxLength { pass with currHitLength := hitLength } groups
    rw [zipIdx_nil, foldl_nil] at equation
    rw [← equation] at both
    obtain ⟨greatest, -, ⟨rows, stored, length⟩, -⟩ := both
    refine ⟨⟨⟨greatest.1.1, ?_⟩, ?_⟩, ?_⟩
    · intro group mem
      rw [groups] at mem
      rcases mem_pair.mp mem with rfl | rfl
      · exact greatest.1.2.1
      · exact greatest.1.2.2
    · rintro other ⟨within, accepted⟩
      exact greatest.2 ⟨within, accepted first (by simp [groups]), accepted second (by simp [groups])⟩
    · intro index group mem
      obtain ⟨otherRows, otherStored, -⟩ :=
        visited.rows (group, index) (mem_zipIdx_iff_getElem?.mpr mem)
      obtain ⟨-, within, isHit⟩ := visited.found.hits index group otherRows mem otherStored
      refine ⟨otherRows, otherStored, isHit, within, fun notFull => ?_⟩
      rw [groups] at mem
      rcases index with _ | _ | index
      · cases mem
        cases full.symm.trans notFull
      · cases mem
        rw [stored, some.injEq, some.injEq] at otherStored
        subst otherStored
        exact length
      · simp at mem

/-- After the first pass over a layout that starts with two types of full attention,
the hit of the second one is the longest one of both, and no hit of a later one is
longer. -/
theorem runPass_fullAttention (supported : search.Supported)
    (maxLength : Nat) (groups : search.attentionGroups = first :: second :: rest)
    (full : first.isFullAttention = true) (found : search.FoundHits pool blockHashes start)
    (fresh : ∀ index : Nat, (start.found[index]?).join = none) :
    ∃ longest, IsGreatest { length | length ≤ start.currHitLength ∧
        first.Accepts pool blockHashes search.lcmBlockSize length ∧
          second.Accepts pool blockHashes search.lcmBlockSize length } longest ∧
      (∃ rows, (search.runPass pool blockHashes maxLength start).found[1]? =
          some (some rows) ∧ rows.length * second.spec.blockSize = longest) ∧
      ∀ (index : Nat) (group : AttentionGroup), 2 ≤ index →
        search.attentionGroups[index]? = some group →
          ∃ rows, (search.runPass pool blockHashes maxLength start).found[index]? =
              some (some rows) ∧ rows.length * group.spec.blockSize ≤ longest := by
  obtain ⟨greatest, between, ⟨rows, stored, length⟩, kept⟩ :=
    visit_visit_spec supported maxLength groups full found (fresh 1)
  rw [runPass_eq pool blockHashes maxLength start groups]
  set next := search.visit pool blockHashes maxLength
    (search.visit pool blockHashes maxLength start 0 first) 1 second
  have members : ∀ entry : AttentionGroup × Nat, entry ∈ rest.zipIdx 2 ↔
      2 ≤ entry.2 ∧ search.attentionGroups[entry.2]? = some entry.1 := by
    intro entry
    rw [mem_zipIdx_iff_le_and_getElem?_sub, groups]
    refine and_congr_right fun beyond => ?_
    obtain ⟨offset, index⟩ := Nat.exists_eq_add_of_le beyond
    rw [index, Nat.add_sub_cancel_left, Nat.add_comm 2 offset]
    rfl
  have visited := visited_foldl supported maxLength (fun entry mem => ((members entry).mp mem).2)
    (by rw [zipIdx_map_snd]; exact nodup_range') between
  refine ⟨next.currHitLength, greatest, ⟨rows, ?_, length⟩, ?_⟩
  · rw [visited.others 1 fun entry mem => ?_]
    · exact stored
    · have beyond := ((members entry).mp mem).1
      omega
  · intro index group beyond mem
    obtain ⟨otherRows, otherStored, source⟩ :=
      visited.rows (group, index) ((members (group, index)).mpr ⟨beyond, mem⟩)
    refine ⟨otherRows, otherStored, ?_⟩
    rcases source with ⟨-, known⟩ | ⟨-, within⟩
    · have unknown := fresh index
      rw [kept index (by omega) (by omega)] at known
      rw [known] at unknown
      cases unknown
    · exact within

end FirstPass

/-- The state before the first pass. -/
def initialPass (search : HybridSearch) (maxCacheHitLength : Nat) : Pass where
  currHitLength := maxCacheHitLength
  eagleVerified := []
  found := search.attentionGroups.map fun _ => none

theorem initialPass_unknown (search : HybridSearch) (maxLength index : Nat) :
    ((search.initialPass maxLength).found[index]?).join = none := by
  unfold initialPass
  rw [getElem?_map]
  cases search.attentionGroups[index]? <;> rfl

theorem foundHits_initialPass (search : HybridSearch) (pool : BlockPool) (blockHashes : List Bytes)
    (maxLength : Nat) : search.FoundHits pool blockHashes (search.initialPass maxLength) := by
  refine ⟨length_map _, fun index group rows _ stored => ?_⟩
  have unknown := search.initialPass_unknown maxLength index
  rw [stored] at unknown
  cases unknown

/-- The passes of a search settle the candidate, and the hits of full attention are
those of the first pass. -/
theorem settled_initialPass (supported : search.Supported)
    (pool : BlockPool) (blockHashes : List Bytes) (maxLength : Nat) :
    search.Settled pool blockHashes maxLength
      (search.passes pool blockHashes maxLength (maxLength + 1) maxLength
        (search.initialPass maxLength)).1
      (search.passes pool blockHashes maxLength (maxLength + 1) maxLength
        (search.initialPass maxLength)).2 ∧
    ∀ (index : Nat) (group : AttentionGroup) (rows : List (List BlockId)),
      search.attentionGroups[index]? = some group → group.isFullAttention = true →
        (search.runPass pool blockHashes maxLength
            (search.initialPass maxLength)).found[index]? = some (some rows) →
          (search.passes pool blockHashes maxLength (maxLength + 1)
            maxLength (search.initialPass maxLength)).2.found[index]? = some (some rows) := by
  cases simple : search.isSimpleHybrid with
  | false =>
    exact settled_passes supported simple (lt_succ_self _)
      (search.foundHits_initialPass pool blockHashes maxLength)
  | true =>
    obtain ⟨settled, onePass⟩ :=
      settled_simple supported maxLength maxLength simple
        (search.foundHits_initialPass pool blockHashes maxLength)
        (search.initialPass_unknown maxLength 1)
    refine ⟨settled, fun index group rows _ _ stored => ?_⟩
    rw [onePass]
    exact stored

/-- The number of rounds that is granted never cuts the search short. -/
theorem passes_eq_of_lt (fuelEnough : hitLength < fuel)
    (enoughEnough : hitLength < enough) (pass : Pass) :
    search.passes pool blockHashes maxLength fuel hitLength pass =
      search.passes pool blockHashes maxLength enough hitLength pass := by
  induction fuel generalizing enough hitLength pass with
  | zero => omega
  | succ fuel ih =>
    cases enough with
    | zero => omega
    | succ enough =>
      unfold passes
      dsimp only
      split
      · rfl
      · split
        · rfl
        · exact ih (by omega) (by omega) _

end HybridSearch

end TokenCake
