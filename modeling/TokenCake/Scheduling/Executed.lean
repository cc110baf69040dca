import TokenCake.Library.Ranges
import TokenCake.Request.Defs

/-!
# Executed and recomputed tokens

The controller remembers which positions of a request the model has worked on, and
counts the work that was done again.
-/

namespace TokenCake

open List

/-- Work the model returned for a request: `count` tokens from a position on. -/
structure Execution where
  requestId : RequestId
  start : Nat
  count : Nat
deriving DecidableEq

/-- What a call of `executed` reads: the annotated requests, the positions and numbers of
tokens in the output, the requests of the result and the failed loads. -/
structure ExecutedCall where
  metadata : List RequestId
  scheduledCachedReqs : List (RequestId × Nat)
  scheduledNewReqs : List (RequestId × Nat)
  numScheduledTokens : Dict RequestId Nat
  reqIdToIndex : List RequestId
  failedLoads : List RequestId

/-- What was executed so far. -/
structure ExecutionMetrics where
  executedRanges : Dict RequestId (List Range) := .empty
  executedTokens : Nat := 0
  recomputedTokens : Nat := 0

/-- The positions at which the scheduled requests begin. -/
def ExecutedCall.starts (call : ExecutedCall) : Dict RequestId Nat :=
  (call.scheduledCachedReqs ++ call.scheduledNewReqs).foldl
    (fun starts entry => starts.set entry.1 entry.2) .empty

/-- The work that counts. -/
def ExecutedCall.executions (call : ExecutedCall) : List Execution :=
  (call.numScheduledTokens.entries.filter fun entry =>
    decide (entry.1 ∈ call.metadata) && !decide (entry.1 ∈ call.failedLoads) &&
      decide (entry.1 ∈ call.reqIdToIndex)).map fun entry =>
    ⟨entry.1, call.starts.getD entry.1 0, entry.2⟩

namespace ExecutionMetrics

/-- Record the execution of a range of tokens. -/
def observe (metrics : ExecutionMetrics) (work : Execution) : ExecutionMetrics :=
  let range := (work.start, work.start + work.count)
  let ranges := metrics.executedRanges.getD work.requestId []
  { executedRanges := metrics.executedRanges.set work.requestId (mergeRanges (ranges ++ [range]))
    executedTokens := metrics.executedTokens + work.count
    recomputedTokens := metrics.recomputedTokens + overlap ranges range }

/-- Record all executions of a call. -/
def executed (metrics : ExecutionMetrics) (call : ExecutedCall) : ExecutionMetrics :=
  call.executions.foldl observe metrics

end ExecutionMetrics

/-- The positions of a request that were worked on. -/
def Execution.cells (work : Execution) : Finset (RequestId × Nat) :=
  {work.requestId} ×ˢ Finset.Ico work.start (work.start + work.count)

/-- The union of the returned ranges, each at its request. -/
def covered (works : List Execution) : Finset (RequestId × Nat) :=
  works.toFinset.biUnion Execution.cells

namespace ExecutionMetrics

/-- The counts and ranges after some work. -/
structure Exact (metrics : ExecutionMetrics) (works : List Execution) : Prop where
  separate : ∀ id, Separate (metrics.executedRanges.getD id [])
  union : ∀ id position, position ∈ positions (metrics.executedRanges.getD id []) ↔
    (id, position) ∈ covered works
  executed : metrics.executedTokens = (works.map Execution.count).sum
  recomputed : metrics.executedTokens = metrics.recomputedTokens + (covered works).card

variable {metrics : ExecutionMetrics} {works : List Execution}

/-- What is counted again is the part of a range that was covered before. -/
theorem Exact.observe (before : metrics.Exact works) (work : Execution) :
    (metrics.observe work).Exact (works ++ [work]) := by
  let ranges := metrics.executedRanges.getD work.requestId []
  let range : Range := (work.start, work.start + work.count)
  have grown : covered (works ++ [work]) = work.cells ∪ covered works := by
    simp [covered]
  have repeated : (work.cells ∩ covered works).card = overlap ranges range := by
    have again : work.cells ∩ covered works =
        {work.requestId} ×ˢ (Finset.Ico range.1 range.2 ∩ positions ranges) := by
      ext ⟨id, position⟩
      simp only [Execution.cells, Finset.mem_inter, Finset.mem_product, Finset.mem_singleton,
        ranges, before.union]
      grind
    rw [again, Finset.card_product, Finset.card_singleton, one_mul,
      (before.separate work.requestId).overlap_eq_card]
  have proper : ∀ other ∈ ranges ++ [range], other.1 ≤ other.2 := by
    simp only [forall_mem_append, forall_mem_singleton]
    exact ⟨(before.separate work.requestId).1, Nat.le_add_right _ _⟩
  obtain ⟨separate, merged⟩ := separate_mergeRanges proper
  have stored (id : RequestId) : (metrics.observe work).executedRanges.getD id [] =
      if id = work.requestId then mergeRanges (ranges ++ [range])
      else metrics.executedRanges.getD id [] := by
    simp only [ExecutionMetrics.observe, Dict.getD, Dict.get?_set]
    split <;> rfl
  refine ⟨fun id => ?_, fun id position => ?_, ?_, ?_⟩
  · rw [stored]
    split
    · exact separate
    · exact before.separate id
  · rw [stored, grown, Finset.mem_union, ← before.union]
    simp only [Execution.cells, Finset.mem_product, Finset.mem_singleton]
    split
    · next own =>
      rw [merged, own]
      simp [mem_positions, or_comm, range, ranges, or_and_right, exists_or]
    · next other => simp [other]
  · simp [ExecutionMetrics.observe, before.executed]
  · have counted : work.cells.card = work.count := by simp [Execution.cells]
    have both := Finset.card_union_add_card_inter work.cells (covered works)
    have total := before.recomputed
    rw [grown]
    change metrics.executedTokens + work.count = metrics.recomputedTokens + overlap ranges range + _
    omega

end ExecutionMetrics

end TokenCake
