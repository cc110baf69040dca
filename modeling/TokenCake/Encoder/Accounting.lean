import TokenCake.Library.Machine
import TokenCake.Scheduler.Running

/-!
# The books of the encoder cache

Every call of the scheduler keeps the slot counts of the encoder cache exact.  A scan evicts
entries for a running total of the inputs it accepts, which are allocated later and together;
the slots it found stay free until then, so the allocations do not fail.
-/

namespace TokenCake

open List

/-- The identifier of an input determines its number of embeddings. -/
def Request.Sized (size : Text → Nat) (request : Request) : Prop :=
  ∀ feature ∈ request.mmFeatures, feature.mmPosition.getNumEmbeds = size feature.identifier

/-- The identifier of an input. -/
def Request.identifierOf (request : Request) (inputId : Nat) : Text :=
  (request.mmFeatures[inputId]?.map MultiModalFeature.identifier).getD 0

namespace EncoderCacheManager

/-- The books are exact: free slots and entries make up the cache, the released entries are those
without references, and the reclaimable slots are the free ones and those of released entries. -/
structure Accounted (size : Text → Nat) (cache : EncoderCacheManager) : Prop where
  slots : cache.numFreeSlots + cache.cached.load size = cache.cacheSize
  freeable : ∀ mmHash, cache.freeable.get? mmHash =
    if cache.cached.get? mmHash = some [] then some (size mmHash) else none
  freeableSlots : cache.numFreeableSlots = cache.numFreeSlots + cache.freeable.sumBy id
  room : 0 ≤ cache.numFreeSlots

/-- The books stay exact, no entry appears and no slot is taken. -/
structure Keeps (size : Text → Nat) (cache next : EncoderCacheManager) : Prop where
  accounted : Accounted size next
  slots : cache.numFreeSlots ≤ next.numFreeSlots
  cached : ∀ mmHash ∈ next.cached, mmHash ∈ cache.cached

variable {size : Text → Nat} {cache next : EncoderCacheManager} {request : Request} {inputId : Nat}
  {feature : MultiModalFeature}

theorem Keeps.trans {last : EncoderCacheManager} (first : Keeps size cache next)
    (second : Keeps size next last) : Keeps size cache last where
  accounted := second.accounted
  slots := first.slots.trans second.slots
  cached := fun _ mem => first.cached _ (second.cached _ mem)

theorem accounted_init (cacheSize : Nat) : Accounted size (init cacheSize) := by
  refine ⟨?_, fun _ => rfl, ?_, Int.natCast_nonneg _⟩ <;> simp [init, Dict.load]

theorem addReference_ne_nil {references : List RequestId} {requestId : RequestId} :
    addReference references requestId ≠ [] := by
  unfold addReference
  split
  · next mem => exact ne_nil_of_mem mem
  · simp

namespace Accounted

variable (accounted : Accounted size cache)

include accounted

theorem keeps_refl : Keeps size cache cache := ⟨accounted, le_rfl, fun _ mem => mem⟩

/-- A released entry is forgotten. -/
theorem evict {mmHash : Text} {numEmbeds : Nat}
    (found : cache.freeable.get? mmHash = some numEmbeds) :
    mmHash ∈ cache.cached ∧ Keeps size cache { cache with
      freeable := cache.freeable.erase mmHash
      cached := cache.cached.erase mmHash
      freed := cache.freed ++ [mmHash]
      numFreeSlots := cache.numFreeSlots + numEmbeds } := by
  have released := accounted.freeable mmHash
  rw [found] at released
  have unused : cache.cached.get? mmHash = some [] := by grind
  have present := Dict.mem_of_get?_eq_some unused
  rw [if_pos unused, Option.some_inj] at released
  refine ⟨present, ⟨?_, fun other => ?_, ?_, ?_⟩, ?_, fun other mem => (Dict.mem_erase.mp mem).2⟩
  · have slots := accounted.slots
    have load := Dict.load_erase size present
    dsimp only
    omega
  · have before := accounted.freeable other
    grind [Dict.get?_erase]
  · have slots := accounted.freeableSlots
    have sum := cache.freeable.sumBy_erase id mmHash
    simp only [found, Option.map_some, Option.getD_some, id] at sum
    dsimp only
    omega
  · have room := accounted.room
    dsimp only
    omega
  · dsimp only
    omega

/-- The references to an entry change, and the released entries with them. -/
theorem refer {mmHash : Text} {references : List RequestId} {freeable : Dict Text Nat}
    {numFreeableSlots : Int} (present : mmHash ∈ cache.cached)
    (released : ∀ other, freeable.get? other =
      if other = mmHash then (if references = [] then some (size mmHash) else none)
      else cache.freeable.get? other)
    (slots : numFreeableSlots + cache.freeable.sumBy id =
      cache.numFreeableSlots + freeable.sumBy id) :
    Keeps size cache { cache with
      freeable := freeable
      numFreeableSlots := numFreeableSlots
      cached := cache.cached.set mmHash references } := by
  refine ⟨⟨?_, fun other => ?_, ?_, accounted.room⟩, le_rfl, fun other => ?_⟩
  · simpa only [Dict.load_set_of_mem size present] using accounted.slots
  · have before := accounted.freeable other
    grind [Dict.get?_set]
  · have before := accounted.freeableSlots
    dsimp only
    omega
  · grind [Dict.mem_set]

theorem checkAndUpdateCache (listed : request.mmFeatures[inputId]? = some feature) :
    ∃ hit next, cache.checkAndUpdateCache request inputId = .ok (hit, next) ∧
      Keeps size cache next ∧ (hit = false → feature.identifier ∉ next.cached) := by
  unfold EncoderCacheManager.checkAndUpdateCache
  simp only [listed]
  have released := accounted.freeable feature.identifier
  split
  · next absent => exact ⟨_, _, rfl, accounted.keeps_refl, fun _ => Dict.get?_eq_none_iff.mp absent⟩
  · next found =>
    rw [if_pos found] at released
    have sum := cache.freeable.sumBy_erase id feature.identifier
    simp only [released, Option.map_some, Option.getD_some, id] at sum ⊢
    refine ⟨_, _, rfl, accounted.refer (Dict.mem_of_get?_eq_some found) ?_ (by omega), by simp⟩
    simp [Dict.get?_erase]
  · next references nonempty found =>
    rw [found, if_neg (by simpa using nonempty)] at released
    refine ⟨_, _, rfl, accounted.refer (Dict.mem_of_get?_eq_some found) (fun other => ?_) rfl,
      by simp⟩
    rw [if_neg addReference_ne_nil]
    grind

theorem freeEncoderInput (sized : request.Sized size) (inputId : Nat) :
    Keeps size cache (cache.freeEncoderInput request inputId) := by
  unfold EncoderCacheManager.freeEncoderInput
  split
  · exact accounted.keeps_refl
  · next feature listed =>
    have embeds := sized feature (mem_of_getElem? listed)
    have released := accounted.freeable feature.identifier
    dsimp only
    split
    · exact accounted.keeps_refl
    · exact accounted.keeps_refl
    · next references nonempty found =>
      have present := Dict.mem_of_get?_eq_some found
      rw [found, if_neg (by simpa using nonempty)] at released
      split
      · next last =>
        have sum := cache.freeable.sumBy_set id
          feature.identifier feature.mmPosition.getNumEmbeds
        simp only [released, Option.map_none, Option.getD_none, id] at sum
        refine accounted.refer present (fun other => ?_) (by omega)
        rw [Dict.get?_set, embeds, if_pos (isEmpty_iff.mp last)]
      · next remaining =>
        refine accounted.refer present (fun other => ?_) rfl
        rw [if_neg fun empty => remaining (isEmpty_iff.mpr empty)]
        grind

theorem free (sized : request.Sized size) : Keeps size cache (cache.free request) := by
  unfold EncoderCacheManager.free
  generalize cache.getCachedInputIds request = inputs
  induction inputs generalizing cache with
  | nil => exact accounted.keeps_refl
  | cons inputId rest ih =>
    have freed := accounted.freeEncoderInput sized inputId
    exact freed.trans (ih freed.accounted)

theorem freeAll {preempted : List Request} (sized : ∀ other ∈ preempted, other.Sized size) :
    Keeps size cache (preempted.foldl EncoderCacheManager.free cache) := by
  induction preempted generalizing cache with
  | nil => exact accounted.keeps_refl
  | cons other rest ih =>
    rw [forall_mem_cons] at sized
    have freed := accounted.free sized.1
    exact freed.trans (ih freed.accounted sized.2)

/-- Evictions find the slots that are reclaimable. -/
theorem evictUntil (numEmbeds : Int) (fits : numEmbeds ≤ cache.numFreeableSlots) :
    ∃ next, evictUntil numEmbeds cache.freeable.entries cache = .ok next ∧
      Keeps size cache next ∧ numEmbeds ≤ next.numFreeSlots := by
  generalize same : cache.freeable.entries = entries
  induction entries generalizing cache with
  | nil =>
    have slots := accounted.freeableSlots
    simp only [Dict.sumBy, Dict.values, same, map_nil, sum_nil] at slots
    have enough : numEmbeds ≤ cache.numFreeSlots := by omega
    exact ⟨cache, if_pos enough, accounted.keeps_refl, enough⟩
  | cons entry rest ih =>
    obtain ⟨mmHash, numFreeEmbeds⟩ := entry
    unfold EncoderCacheManager.evictUntil
    split
    · next enough => exact ⟨cache, rfl, accounted.keeps_refl, enough⟩
    · have found : cache.freeable.get? mmHash = some numFreeEmbeds :=
        Dict.get?_eq_some_iff.mpr (same ▸ mem_cons_self)
      obtain ⟨present, evicted⟩ := accounted.evict found
      have nodup := cache.freeable.nodup
      rw [same, map_cons, nodup_cons] at nodup
      have others : (cache.freeable.erase mmHash).entries = rest := by
        simp only [Dict.erase, Dict.filter, same, filter_cons, decide_true, Bool.not_true,
          Bool.false_eq_true, if_false, filter_eq_self]
        intro other mem
        have different : other.1 ≠ mmHash := fun equal => nodup.1 (mem_map.mpr ⟨other, mem, equal⟩)
        simp [different]
      rw [if_pos present]
      obtain ⟨next, done, kept, enough⟩ := ih evicted.accounted fits others
      exact ⟨next, done, evicted.trans kept, enough⟩

theorem canAllocate (listed : request.mmFeatures[inputId]? = some feature) (budget : Int)
    (scheduled : Nat) :
    ∃ fits next, cache.canAllocate request inputId budget scheduled = .ok (fits, next) ∧
      Keeps size cache next ∧ (fits = true →
        (feature.mmPosition.getNumEmbeds + scheduled : Int) ≤ next.numFreeSlots) := by
  have embeds : request.getNumEncoderEmbeds inputId = .ok feature.mmPosition.getNumEmbeds := by
    simp only [Request.getNumEncoderEmbeds, listed]
  unfold EncoderCacheManager.canAllocate
  simp only [embeds, bind, Except.bind, pure, Except.pure]
  split
  · exact ⟨_, _, rfl, accounted.keeps_refl, nofun⟩
  · split
    · next enough => exact ⟨_, _, rfl, accounted.keeps_refl, fun _ => enough⟩
    · split
      · exact ⟨_, _, rfl, accounted.keeps_refl, nofun⟩
      · next reclaimable =>
        obtain ⟨next, evicted, kept, enough⟩ := accounted.evictUntil _ (not_lt.mp reclaimable)
        exact ⟨true, next, by simp only [evicted], kept, fun _ => enough⟩

/-- An input that is not cached and for which there are slots is allocated. -/
theorem allocate (sized : request.Sized size)
    (listed : request.mmFeatures[inputId]? = some feature)
    (absent : feature.identifier ∉ cache.cached)
    (fits : (size feature.identifier : Int) ≤ cache.numFreeSlots) :
    ∃ next, cache.allocate request inputId = .ok next ∧ Accounted size next ∧
      next.numFreeSlots = cache.numFreeSlots - size feature.identifier ∧
      ∀ mmHash ∈ next.cached, mmHash = feature.identifier ∨ mmHash ∈ cache.cached := by
  have embeds := sized feature (mem_of_getElem? listed)
  have freeableSlots := accounted.freeableSlots
  have slots := accounted.slots
  have load := Dict.load_set_of_not_mem size absent
    (addReference (cache.cached.getD feature.identifier []) request.requestId)
  unfold EncoderCacheManager.allocate
  simp only [listed, embeds]
  rw [if_pos ⟨fits, by omega⟩]
  refine ⟨_, rfl, ⟨?_, fun other => ?_, ?_, ?_⟩, rfl, fun other => Dict.mem_set.mp⟩
  · dsimp only
    omega
  · have before := accounted.freeable other
    have free := Dict.get?_eq_none_iff.mpr absent
    grind [Dict.get?_set, addReference_ne_nil]
  · dsimp only
    omega
  · dsimp only
    omega

end Accounted

theorem identifierOf_eq (listed : request.mmFeatures[inputId]? = some feature) :
    request.identifierOf inputId = feature.identifier := by
  rw [Request.identifierOf, listed]
  rfl

/-- There is space for entries, which are different and not cached. -/
structure Takes (size : Text → Nat) (cache : EncoderCacheManager) (hashes : List Text) : Prop where
  accounted : Accounted size cache
  nodup : hashes.Nodup
  fresh : ∀ mmHash ∈ hashes, mmHash ∉ cache.cached
  fits : ((hashes.map size).sum : Int) ≤ cache.numFreeSlots

theorem Takes.of_keeps (takes : Takes size cache hashes) (kept : Keeps size cache next) :
    Takes size next hashes :=
  { takes with
    accounted := kept.accounted
    fresh := fun mmHash mem cached => takes.fresh mmHash mem (kept.cached _ cached)
    fits := takes.fits.trans kept.slots }

/-- Inputs for which there is space are allocated. -/
theorem Takes.referToInputs (takes : Takes size cache (inputs.map request.identifierOf))
    (sized : request.Sized size)
    (listed : ∀ inputId ∈ inputs, inputId < request.mmFeatures.length) :
    ∃ next, Step.referToInputs cache request inputs = .ok next ∧ Accounted size next := by
  induction inputs generalizing cache with
  | nil => exact ⟨cache, rfl, takes.accounted⟩
  | cons inputId rest ih =>
    obtain ⟨accounted, nodup, fresh, fits⟩ := takes
    simp only [forall_mem_cons, map_cons, nodup_cons, sum_cons] at *
    have found := getElem?_eq_getElem listed.1
    rw [identifierOf_eq found] at nodup fresh fits
    obtain ⟨next, allocated, exact, slots, cached⟩ :=
      accounted.allocate sized found fresh.1 (by omega)
    have taken : Takes size next (rest.map request.identifierOf) := by
      refine ⟨exact, nodup.2, fun mmHash mem present => ?_, by omega⟩
      rcases cached _ present with rfl | before
      · exact nodup.1 mem
      · exact fresh.2 mmHash mem before
    obtain ⟨last, referred, exact⟩ := ih taken listed.2
    refine ⟨last, ?_, exact⟩
    rw [Step.referToInputs, foldlM_cons]
    exact bind_eq_ok.mpr ⟨next, allocated, referred⟩

/-- The inputs that a scan accepted can be allocated together. -/
structure Accepts (size : Text → Nat) (request : Request)
    (scan : EncoderScan EncoderCacheManager) : Prop where
  takes : Takes size scan.encoderCacheManager scan.mmHashesToSchedule
  embeds : (scan.mmHashesToSchedule.map size).sum = scan.numEmbedsToSchedule
  listed : ∀ inputId ∈ scan.encoderInputsToSchedule ++ scan.externalLoadEncoderInput,
    inputId < request.mmFeatures.length
  hashes : ((scan.encoderInputsToSchedule ++ scan.externalLoadEncoderInput).map
    request.identifierOf).Perm scan.mmHashesToSchedule

variable {scan : EncoderScan EncoderCacheManager}

theorem Accepts.of_keeps (accepts : Accepts size request scan)
    (kept : Keeps size scan.encoderCacheManager next) (numNewTokens : Int) :
    Accepts size request (scan.cutBefore numNewTokens next) :=
  { accepts with takes := accepts.takes.of_keeps kept }

theorem Accepts.record (accepts : Accepts size request scan) (sized : request.Sized size)
    (listed : request.mmFeatures[inputId]? = some feature)
    (fresh : feature.identifier ∉ scan.mmHashesToSchedule)
    (absent : feature.identifier ∉ scan.encoderCacheManager.cached)
    (kept : Keeps size scan.encoderCacheManager next)
    (fits : (feature.mmPosition.getNumEmbeds + scan.numEmbedsToSchedule : Int) ≤
      next.numFreeSlots) (external : Bool) :
    Accepts size request (scan.record inputId feature external next) := by
  obtain ⟨takes, embeds, inside, hashes⟩ := accepts
  have taken := takes.of_keeps kept
  have identifier := identifierOf_eq listed
  have count := sized feature (mem_of_getElem? listed)
  have bound := (List.getElem?_eq_some_iff.mp listed).1
  have takes : Takes size next (feature.identifier :: scan.mmHashesToSchedule) := by
    refine ⟨taken.accounted, nodup_cons.mpr ⟨fresh, taken.nodup⟩,
      forall_mem_cons.mpr ⟨fun mem => absent (kept.cached _ mem), taken.fresh⟩, ?_⟩
    rw [map_cons, sum_cons]
    omega
  have embeds : ((feature.identifier :: scan.mmHashesToSchedule).map size).sum =
      scan.numEmbedsToSchedule + feature.mmPosition.getNumEmbeds := by
    rw [map_cons, sum_cons]
    omega
  unfold EncoderScan.record
  split
  · refine ⟨takes, embeds, ?_, ?_⟩
    · grind
    · simp only [← append_assoc, map_append, map_cons, map_nil, identifier] at *
      exact (perm_append_singleton _ _).trans (hashes.cons _)
  · refine ⟨takes, embeds, ?_, ?_⟩
    · grind
    · simp only [append_assoc, singleton_append, map_append, map_cons, identifier] at *
      exact perm_middle.trans (hashes.cons _)

variable (config : SchedulerConfig) (hasCacheItem : Text → Bool) (numComputedTokens : Int)
  (shift : Nat)

theorem Accepts.place (accepts : Accepts size request scan) (sized : request.Sized size)
    (listed : request.mmFeatures[inputId]? = some feature)
    (fresh : feature.identifier ∉ scan.mmHashesToSchedule)
    (absent : feature.identifier ∉ scan.encoderCacheManager.cached) :
    ∃ further placed, scan.place config hasCacheItem request numComputedTokens shift inputId
        feature = .ok (further, placed) ∧ Accepts size request placed := by
  obtain ⟨fits, next, asked, kept, enough⟩ := accepts.takes.accounted.canAllocate listed
    scan.encoderComputeBudget scan.numEmbedsToSchedule
  have asked : EncoderCache.canAllocate scan.encoderCacheManager request inputId
      scan.encoderComputeBudget scan.numEmbedsToSchedule = .ok (fits, next) := asked
  unfold EncoderScan.place
  dsimp only
  split
  · exact ⟨_, _, rfl, accepts.of_keeps accepts.takes.accounted.keeps_refl _⟩
  · rw [asked]
    cases fits with
    | false => exact ⟨_, _, rfl, accepts.of_keeps kept _⟩
    | true =>
      simp only [bind, Except.bind, Bool.not_true, Bool.false_eq_true, if_false]
      split
      · exact ⟨_, _, rfl, accepts.of_keeps kept scan.numNewTokens⟩
      · exact ⟨_, _, rfl, accepts.record sized listed fresh absent kept (enough rfl) _⟩

theorem Accepts.scanFrom (accepts : Accepts size request scan) (sized : request.Sized size)
    (decoderOnly : config.isEncoderDecoder = false) (features : List MultiModalFeature)
    (rest : request.mmFeatures.drop inputId = features) :
    ∃ final, EncoderScan.scanFrom config hasCacheItem request numComputedTokens shift features
        inputId scan = .ok final ∧ Accepts size request final := by
  induction features generalizing inputId scan with
  | nil => exact ⟨scan, rfl, accepts⟩
  | cons feature features ih =>
    have listed : request.mmFeatures[inputId]? = some feature := by
      rw [← head?_drop, rest]
      rfl
    have behind : request.mmFeatures.drop (inputId + 1) = features := by
      rw [← tail_drop, rest]
      rfl
    unfold EncoderScan.scanFrom
    simp only [decoderOnly, Bool.false_eq_true, false_and, if_false, Bool.not_false, Bool.true_and,
      decide_eq_true_eq]
    split
    · exact ⟨scan, rfl, accepts⟩
    · split
      · exact ih accepts behind
      · split
        · exact ih accepts behind
        · next fresh =>
          obtain ⟨hit, next, checked, kept, missed⟩ :=
            accepts.takes.accounted.checkAndUpdateCache listed
          have checked : EncoderCache.checkAndUpdateCache scan.encoderCacheManager request
            inputId = .ok (hit, next) := checked
          have accepts := accepts.of_keeps kept scan.numNewTokens
          rw [checked]
          cases hit with
          | true => exact ih accepts behind
          | false =>
            obtain ⟨further, placed, done, accepts⟩ := accepts.place config hasCacheItem
              numComputedTokens shift sized listed fresh (missed rfl)
            have done : EncoderScan.place config hasCacheItem request numComputedTokens shift
              inputId feature { scan with encoderCacheManager := next } = _ := done
            simp only [bind, Except.bind, Bool.false_eq_true, if_false, done]
            cases further with
            | true => exact ih accepts behind
            | false => exact ⟨placed, rfl, accepts⟩

/-- A scan returns inputs that can be allocated together. -/
theorem Accounted.tryScheduleEncoderInputs (accounted : Accounted size cache)
    (sized : request.Sized size) (decoderOnly : config.isEncoderDecoder = false)
    (numNewTokens encoderComputeBudget : Int) :
    ∃ scan, TokenCake.tryScheduleEncoderInputs config hasCacheItem cache request numComputedTokens
        numNewTokens encoderComputeBudget = .ok scan ∧ Accepts size request scan := by
  have accepts : Accepts size request
      { encoderInputsToSchedule := []
        externalLoadEncoderInput := []
        mmHashesToSchedule := []
        numEmbedsToSchedule := 0
        encoderComputeBudget := encoderComputeBudget
        numNewTokens := numNewTokens
        encoderCacheManager := cache } :=
    ⟨⟨accounted, nodup_nil, nofun, accounted.room⟩, rfl, nofun, .nil⟩
  unfold TokenCake.tryScheduleEncoderInputs
  dsimp only
  split
  · exact ⟨_, rfl, accepts⟩
  · exact accepts.scanFrom config hasCacheItem numComputedTokens _ sized decoderOnly _ rfl

/-- The inputs that a scan accepted are allocated, also after preemptions. -/
theorem Accepts.referToInputs (accepts : Accepts size request scan) (sized : request.Sized size)
    {preempted : List Request} (others : ∀ other ∈ preempted, other.Sized size) :
    ∃ next, Step.referToInputs (preempted.foldl EncoderCacheManager.free scan.encoderCacheManager)
        request (scan.encoderInputsToSchedule ++ scan.externalLoadEncoderInput) = .ok next ∧
      Accounted size next := by
  have taken := accepts.takes.of_keeps (accepts.takes.accounted.freeAll others)
  have perm := accepts.hashes
  refine Takes.referToInputs ⟨taken.accounted, perm.nodup_iff.mpr taken.nodup,
    fun mmHash mem => taken.fresh mmHash (perm.mem_iff.mp mem), ?_⟩ sized accepts.listed
  rw [(perm.map size).sum_eq]
  exact taken.fits

end EncoderCacheManager

/-- What the scheduler does with an encoder cache. -/
inductive EncoderOperation where
  /-- A scan for the inputs of a request that is not scheduled in the end. -/
  | scan (config : SchedulerConfig) (hasCacheItem : Text → Bool) (request : Request)
      (numComputedTokens numNewTokens encoderComputeBudget : Int)
  /-- A scan, preemptions of other requests, and the allocation of the inputs that the scan
  accepted. -/
  | schedule (config : SchedulerConfig) (hasCacheItem : Text → Bool) (request : Request)
      (numComputedTokens numNewTokens encoderComputeBudget : Int) (preempted : List Request)
  | freeEncoderInput (request : Request) (inputId : Nat)
  | free (request : Request)
  | getFreedMmHashes
  | reset

namespace EncoderOperation

/-- The cache after an operation. -/
def apply (cache : EncoderCacheManager) :
    EncoderOperation → Except ResourceError EncoderCacheManager
  | scan config hasCacheItem request numComputedTokens numNewTokens encoderComputeBudget => do
    let scan ← tryScheduleEncoderInputs config hasCacheItem cache request numComputedTokens
      numNewTokens encoderComputeBudget
    return scan.encoderCacheManager
  | schedule config hasCacheItem request numComputedTokens numNewTokens encoderComputeBudget
      preempted => do
    let scan ← tryScheduleEncoderInputs config hasCacheItem cache request numComputedTokens
      numNewTokens encoderComputeBudget
    Step.referToInputs (preempted.foldl EncoderCacheManager.free scan.encoderCacheManager) request
      (scan.encoderInputsToSchedule ++ scan.externalLoadEncoderInput)
  | freeEncoderInput request inputId => .ok (cache.freeEncoderInput request inputId)
  | free request => .ok (cache.free request)
  | getFreedMmHashes => .ok cache.getFreedMmHashes.2
  | reset => .ok cache.reset

/-- The requests of an operation have inputs of the known sizes, and the model is decoder-only. -/
def Sized (size : Text → Nat) : EncoderOperation → Prop
  | scan config _ request _ _ _ => config.isEncoderDecoder = false ∧ request.Sized size
  | schedule config _ request _ _ _ preempted =>
    config.isEncoderDecoder = false ∧ ∀ other ∈ request :: preempted, other.Sized size
  | freeEncoderInput request _ | free request => request.Sized size
  | getFreedMmHashes | reset => True

open EncoderCacheManager

variable {size : Text → Nat} {cache : EncoderCacheManager}

/-- Every operation returns and keeps the books exact. -/
theorem accounted_of_apply (accounted : Accounted size cache) (operation : EncoderOperation)
    (sized : operation.Sized size) :
    ∃ next, apply cache operation = .ok next ∧ Accounted size next := by
  cases operation with
  | scan config hasCacheItem request numComputedTokens numNewTokens encoderComputeBudget =>
    obtain ⟨scan, scanned, accepts⟩ := accounted.tryScheduleEncoderInputs config hasCacheItem
      numComputedTokens sized.2 sized.1 numNewTokens encoderComputeBudget
    exact ⟨_, bind_eq_ok.mpr ⟨scan, scanned, rfl⟩, accepts.takes.accounted⟩
  | schedule config hasCacheItem request numComputedTokens numNewTokens encoderComputeBudget
      preempted =>
    obtain ⟨decoderOnly, sized⟩ := sized
    rw [forall_mem_cons] at sized
    obtain ⟨scan, scanned, accepts⟩ := accounted.tryScheduleEncoderInputs config hasCacheItem
      numComputedTokens sized.1 decoderOnly numNewTokens encoderComputeBudget
    obtain ⟨next, referred, exact⟩ := accepts.referToInputs sized.1 sized.2
    exact ⟨next, bind_eq_ok.mpr ⟨scan, scanned, referred⟩, exact⟩
  | freeEncoderInput request inputId =>
    exact ⟨_, rfl, (accounted.freeEncoderInput sized inputId).accounted⟩
  | free request => exact ⟨_, rfl, (accounted.free sized).accounted⟩
  | getFreedMmHashes => exact ⟨_, rfl, { accounted with }⟩
  | reset => exact ⟨_, rfl, accounted_init _⟩

theorem accounted_of_run (accounted : Accounted size cache) (operations : List EncoderOperation)
    (sized : ∀ operation ∈ operations, operation.Sized size) :
    ∃ final, Machine.run apply cache operations = .ok final ∧ Accounted size final := by
  induction operations generalizing cache with
  | nil => exact ⟨cache, rfl, accounted⟩
  | cons operation operations ih =>
    rw [forall_mem_cons] at sized
    obtain ⟨next, applied, accounted⟩ := accounted_of_apply accounted operation sized.1
    obtain ⟨final, ran, accounted⟩ := ih accounted sized.2
    exact ⟨final, (Machine.run_cons_eq_ok _).mpr ⟨next, applied, ran⟩, accounted⟩

/-- Every run of the scheduler's calls returns: no eviction runs out of released entries, and the
inputs that one scan accepts are allocated together without a failed assertion.  The books are
then exact, and every further question for space is answered. -/
theorem encoderCache_accounted_of_run (size : Text → Nat) (cacheSize : Nat)
    (operations : List EncoderOperation)
    (sized : ∀ operation ∈ operations, operation.Sized size) :
    ∃ cache, Machine.run apply (.init cacheSize) operations = .ok cache ∧
      cache.numFreeSlots + (cache.cached.keys.map size).sum = cache.cacheSize ∧
      (∀ mmHash, cache.freeable.get? mmHash =
        if cache.cached.get? mmHash = some [] then some (size mmHash) else none) ∧
      cache.numFreeableSlots = cache.numFreeSlots + cache.freeable.sumBy id ∧
      ∀ (request : Request) (inputId : Nat) (encoderComputeBudget : Int) (numEmbedsToSchedule : Nat),
        inputId < request.mmFeatures.length →
          ∃ fits next, cache.canAllocate request inputId encoderComputeBudget numEmbedsToSchedule =
            .ok (fits, next) := by
  obtain ⟨cache, ran, accounted⟩ := accounted_of_run (accounted_init cacheSize) operations sized
  refine ⟨cache, ran, accounted.slots, accounted.freeable, accounted.freeableSlots, ?_⟩
  intro request inputId encoderComputeBudget numEmbedsToSchedule bound
  obtain ⟨fits, next, asked, -⟩ := accounted.canAllocate (getElem?_eq_getElem bound)
    encoderComputeBudget numEmbedsToSchedule
  exact ⟨fits, next, asked⟩

/-- A request with images of two tokens each. -/
def imageRequest (requestId : RequestId) (identifiers : List Text) : Request where
  requestId := requestId
  samplingParams := none
  maxTokens := 0
  promptTokenIds := none
  numPromptTokens := 0
  allTokenIds := []
  mmFeatures := identifiers.mapIdx fun index identifier =>
    { identifier := identifier, mmPosition := { offset := 2 * index, length := 2 } }

/-- Schedule all tokens of a request with images. -/
def scheduleImages (requestId : RequestId) (identifiers : List Text) : EncoderOperation :=
  .schedule { maxNumRunningReqs := 2, maxNumScheduledTokens := 8, maxModelLen := 8, blockSize := 2 }
    (fun _ => false) (imageRequest requestId identifiers) 0 8 8 []

/-- An image is cached and released, and a request with an image that occurs twice and another one
needs its slots. -/
def imageRun : List EncoderOperation :=
  [scheduleImages 1 [5], .free (imageRequest 1 [5]), scheduleImages 2 [6, 6, 7]]

theorem imageRun_accounted :
    ∃ cache, Machine.run apply (.init 4) imageRun = .ok cache ∧
      (cache.freed, cache.cached.keys) = ([5], [6, 7]) ∧
      cache.numFreeSlots + ((cache.cached.keys.map fun _ => 2).sum : Nat) = cache.cacheSize := by
  have sized (requestId : RequestId) (identifiers : List Text) :
      (imageRequest requestId identifiers).Sized fun _ => 2 := by
    intro feature mem
    obtain ⟨index, bound, rfl⟩ := mem_mapIdx.mp mem
    rfl
  have allowed : ∀ operation ∈ imageRun, operation.Sized fun _ => 2 := by
    simp [imageRun, scheduleImages, EncoderOperation.Sized, sized]
  obtain ⟨cache, ran, slots, -⟩ := encoderCache_accounted_of_run (fun _ => 2) 4 imageRun allowed
  have computed : (Machine.run apply (.init 4) imageRun).toOption.map
      (fun cache => (cache.freed, cache.cached.keys)) = some ([5], [6, 7]) := by decide +kernel
  rw [ran] at computed
  exact ⟨cache, ran, Option.some_inj.mp computed, slots⟩

end EncoderOperation

end TokenCake
