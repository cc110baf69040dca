import TokenCake.Library.Sort
import TokenCake.Request.Defs

/-!
# Request queues

Waiting requests are kept in deques under the first-come-first-served policy
and in binary heaps under the priority policy.  Both are represented by the
list of the stored identifiers; the order of the requests is a parameter, since
it is read from the requests themselves.
-/

namespace TokenCake

open List

/-- The two policies of the native scheduler. -/
inductive SchedulingPolicy where
  | fcfs
  | priority
deriving DecidableEq, Repr

/-- The stored order of a queue: deque order or heap layout. -/
abbrev RequestQueue := List RequestId

namespace RequestQueue

variable (policy : SchedulingPolicy) (lt : RequestId → RequestId → Bool)

section

variable (queue : RequestQueue)

/-- Add a request at its place. -/
def addRequest (request : RequestId) : RequestQueue :=
  match policy with
  | .fcfs => queue ++ [request]
  | .priority => Heap.heappush lt queue request

/-- The request that is next. -/
def peekRequest : Except EngineError RequestId :=
  match queue with
  | [] => .error .emptyQueue
  | request :: _ => .ok request

/-- Take the request at the front out of the queue. -/
def popRequest : Except EngineError (RequestId × RequestQueue) :=
  match queue with
  | [] => .error .emptyQueue
  | request :: rest =>
    match policy with
    | .fcfs => .ok (request, rest)
    | .priority => .ok (request, Heap.afterPop lt (request :: rest))

/-- Put a request back in front; a heap has no front but its order. -/
def prependRequest (request : RequestId) : RequestQueue :=
  match policy with
  | .fcfs => request :: queue
  | .priority => Heap.heappush lt queue request

/-- The requests in the order of iteration. -/
def iterate : List RequestId :=
  match policy with
  | .fcfs => queue
  | .priority => Heap.toIterated lt queue

end

/-- Put all requests of another queue back in front, one by one. -/
def prependRequests (queue requests : RequestQueue) : RequestQueue :=
  (iterate policy lt requests).foldl (prependRequest policy lt) queue

/-- Restore the layout after elements were deleted. -/
def relayout (queue : RequestQueue) : RequestQueue :=
  match policy with
  | .fcfs => queue
  | .priority => Heap.heapify lt queue

/-- Remove one request; removing an absent one is an error. -/
def removeRequest (queue : RequestQueue) (request : RequestId) : Except EngineError RequestQueue :=
  if request ∈ queue then .ok (relayout policy lt (queue.erase request))
  else .error .requestNotInQueue

/-- Remove every listed request. -/
def removeRequests (queue : RequestQueue) (requests : List RequestId) : RequestQueue :=
  relayout policy lt (queue.filter fun request => !requests.contains request)

section Permutations

theorem addRequest_perm (queue : RequestQueue) (request : RequestId) :
    (addRequest policy lt queue request).Perm (request :: queue) := by
  cases policy with
  | fcfs => exact perm_append_singleton request queue
  | priority => exact Heap.heappush_perm lt queue request

theorem prependRequest_perm (queue : RequestQueue) (request : RequestId) :
    (prependRequest policy lt queue request).Perm (request :: queue) := by
  cases policy with
  | fcfs => exact Perm.refl _
  | priority => exact Heap.heappush_perm lt queue request

theorem iterate_perm (queue : RequestQueue) : (iterate policy lt queue).Perm queue := by
  cases policy with
  | fcfs => exact Perm.refl _
  | priority => exact Heap.toIterated_perm lt queue

theorem foldl_prependRequest_perm (requests : List RequestId) (queue : RequestQueue) :
    (requests.foldl (prependRequest policy lt) queue).Perm (requests ++ queue) := by
  induction requests generalizing queue with
  | nil => exact Perm.refl _
  | cons request rest ih =>
    have first : (rest ++ prependRequest policy lt queue request).Perm (rest ++ request :: queue) :=
      (prependRequest_perm policy lt queue request).append_left rest
    exact ((ih _).trans first).trans perm_middle

theorem prependRequests_perm (queue requests : RequestQueue) :
    (prependRequests policy lt queue requests).Perm (requests ++ queue) :=
  (foldl_prependRequest_perm policy lt _ queue).trans
    ((iterate_perm policy lt requests).append_right queue)

theorem relayout_perm (queue : RequestQueue) : (relayout policy lt queue).Perm queue := by
  cases policy with
  | fcfs => exact Perm.refl _
  | priority => exact Heap.heapify_perm lt queue

variable {policy lt} {queue : RequestQueue} {request : RequestId}

theorem peekRequest_eq_ok (peeked : peekRequest queue = .ok requestId) :
    queue.head? = some requestId := by
  unfold peekRequest at peeked
  split at peeked
  · cases peeked
  · cases peeked
    rfl

variable {rest : RequestQueue}

theorem popRequest_perm (popped : popRequest policy lt queue = .ok (request, rest)) :
    queue.head? = some request ∧ queue.Perm (request :: rest) := by
  cases queue with
  | nil => cases popped
  | cons head tail =>
    cases policy with
    | fcfs =>
      cases popped
      exact ⟨rfl, Perm.refl _⟩
    | priority =>
      cases popped
      exact ⟨rfl, (Heap.afterPop_perm lt _ tail).symm.cons _⟩

/-- A nonempty queue can be popped. -/
theorem exists_popRequest (policy : SchedulingPolicy) (lt : RequestId → RequestId → Bool)
    (front : queue.head? = some request) :
    ∃ rest, popRequest policy lt queue = .ok (request, rest) := by
  cases queue with
  | nil => cases front
  | cons head tail =>
    cases front
    cases policy with
    | fcfs | priority => exact ⟨_, rfl⟩

theorem removeRequest_perm (removed : removeRequest policy lt queue request = .ok rest) :
    queue.Perm (request :: rest) := by
  unfold removeRequest at removed
  split at removed
  · next present =>
    cases removed
    exact (perm_cons_erase present).trans
      ((relayout_perm policy lt (queue.erase request)).symm.cons request)
  · cases removed

theorem removeRequest_eq_error {failure : EngineError}
    (failed : removeRequest policy lt queue request = .error failure) : request ∉ queue := by
  unfold removeRequest at failed
  split at failed
  · cases failed
  · next absent => exact absent

theorem mem_removeRequests {requests : List RequestId} :
    request ∈ removeRequests policy lt queue requests ↔ request ∈ queue ∧ request ∉ requests := by
  unfold removeRequests
  rw [(relayout_perm policy lt _).mem_iff]
  simp

end Permutations

end RequestQueue

end TokenCake
