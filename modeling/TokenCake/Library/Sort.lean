import Mathlib.Data.List.Lex
import Mathlib.Data.List.Sort
import Mathlib.Algebra.Order.Ring.Rat

/-!
# Ordering a list

Three ways to bring elements into an order.  The array algorithms `heappush`, `heappop` and
`heapify` work on a list with an arbitrary strict comparison; they permute the elements whatever
the comparison answers, so no element is lost or duplicated even when the order of stored elements
changes behind the heap's back.  Sorting by lists of rational keys keeps the order of elements with
equal keys, and selection returns the first element with the smallest or the largest key.
-/

namespace TokenCake

open List

namespace Heap

/-- Exchange two positions; positions outside the list are ignored. -/
def swap (heap : List α) (first second : Nat) : List α :=
  match heap[first]?, heap[second]? with
  | some left, some right => (heap.set first right).set second left
  | _, _ => heap

theorem swap_perm (heap : List α) (first second : Nat) : (swap heap first second).Perm heap := by
  unfold swap
  split
  · next left right atFirst atSecond =>
    obtain ⟨firstBound, rfl⟩ := List.getElem?_eq_some_iff.mp atFirst
    obtain ⟨secondBound, rfl⟩ := List.getElem?_eq_some_iff.mp atSecond
    exact List.set_set_perm firstBound secondBound
  · exact List.Perm.refl heap

variable (lt : α → α → Bool)

/-- Compare the elements at two positions. -/
def before (heap : List α) (first second : Nat) : Bool :=
  match heap[first]?, heap[second]? with
  | some left, some right => lt left right
  | _, _ => false

/-- Move the element at a position towards the root while it precedes its
parent. -/
def siftdown (startpos : Nat) : Nat → Nat → List α → List α
  | 0, _, heap => heap
  | fuel + 1, pos, heap =>
    let parentpos := (pos - 1) / 2
    if pos > startpos ∧ before lt heap pos parentpos then
      siftdown startpos fuel parentpos (swap heap pos parentpos)
    else heap

theorem siftdown_perm (startpos fuel pos : Nat) (heap : List α) :
    (siftdown lt startpos fuel pos heap).Perm heap := by
  induction fuel generalizing pos heap with
  | zero => exact Perm.refl heap
  | succ fuel ih =>
    simp only [siftdown]
    split
    · exact (ih ..).trans (swap_perm heap ..)
    · exact Perm.refl heap

/-- Move the element at a position down to a leaf, always exchanging it with
its smaller child, and return the position reached. -/
def descend : Nat → Nat → List α → List α × Nat
  | 0, pos, heap => (heap, pos)
  | fuel + 1, pos, heap =>
    let leftpos := 2 * pos + 1
    if leftpos < heap.length then
      let rightpos := leftpos + 1
      let childpos :=
        if rightpos < heap.length ∧ !before lt heap leftpos rightpos then rightpos
        else leftpos
      descend fuel childpos (swap heap pos childpos)
    else (heap, pos)

theorem descend_perm (fuel pos : Nat) (heap : List α) : (descend lt fuel pos heap).1.Perm heap := by
  induction fuel generalizing pos heap with
  | zero => exact Perm.refl heap
  | succ fuel ih =>
    simp only [descend]
    split
    · exact (ih ..).trans (swap_perm heap ..)
    · exact Perm.refl heap

/-- Restore the heap order below a position. -/
def siftup (pos : Nat) (heap : List α) : List α :=
  let reached := descend lt heap.length pos heap
  siftdown lt pos heap.length reached.2 reached.1

theorem siftup_perm (pos : Nat) (heap : List α) : (siftup lt pos heap).Perm heap :=
  (siftdown_perm lt ..).trans (descend_perm lt ..)

/-- Push an element. -/
def heappush (heap : List α) (item : α) : List α :=
  siftdown lt 0 (heap.length + 1) heap.length (heap ++ [item])

theorem heappush_perm (heap : List α) (item : α) : (heappush lt heap item).Perm (item :: heap) :=
  (siftdown_perm lt ..).trans (perm_append_singleton item heap)

/-- What remains of a heap after its root is popped: the last element takes the
root's place and is sifted. -/
def afterPop : List α → List α
  | [] => []
  | _ :: rest =>
    match rest.getLast? with
    | none => []
    | some last => siftup lt 0 (last :: rest.dropLast)

theorem afterPop_perm (root : α) (rest : List α) : (afterPop lt (root :: rest)).Perm rest := by
  simp only [afterPop]
  split
  · next empty =>
    rw [getLast?_eq_none_iff.mp empty]
  · next last found =>
    obtain ⟨front, rfl⟩ := getLast?_eq_some_iff.mp found
    rw [dropLast_concat]
    exact (siftup_perm lt ..).trans (perm_append_singleton last front).symm

/-- Restore the heap order of the first `count` inner positions, from the last
to the first. -/
def heapifyFrom : Nat → List α → List α
  | 0, heap => heap
  | count + 1, heap => heapifyFrom count (siftup lt count heap)

/-- Turn a list into a heap. -/
def heapify (heap : List α) : List α := heapifyFrom lt (heap.length / 2) heap

theorem heapifyFrom_perm (count : Nat) (heap : List α) : (heapifyFrom lt count heap).Perm heap := by
  induction count generalizing heap with
  | zero => exact Perm.refl heap
  | succ count ih =>
    exact (ih _).trans (siftup_perm lt count heap)

theorem heapify_perm (heap : List α) : (heapify lt heap).Perm heap :=
  heapifyFrom_perm lt _ heap

/-- The elements in the order in which they are popped. -/
def drain : Nat → List α → List α
  | 0, heap => heap
  | _ + 1, [] => []
  | fuel + 1, root :: rest => root :: drain fuel (afterPop lt (root :: rest))

/-- Iterate over a heap without changing it. -/
def toIterated (heap : List α) : List α := drain lt heap.length heap

theorem drain_perm (fuel : Nat) (heap : List α) : (drain lt fuel heap).Perm heap := by
  induction fuel generalizing heap with
  | zero => exact Perm.refl heap
  | succ fuel ih =>
    cases heap with
    | nil => exact Perm.refl []
    | cons root rest =>
      exact ((ih _).trans (afterPop_perm lt root rest)).cons root

theorem toIterated_perm (heap : List α) : (toIterated lt heap).Perm heap :=
  drain_perm lt _ heap

example : toIterated (fun left right : Nat => decide (left < right))
    (heapify (fun left right : Nat => decide (left < right)) [5, 1, 4, 2, 3]) =
      [1, 2, 3, 4, 5] := by
  decide

end Heap

/-- Lexicographic order of keys. -/
def lexLt : List ℚ → List ℚ → Bool
  | [], [] => false
  | [], _ :: _ => true
  | _ :: _, [] => false
  | left :: lefts, right :: rights =>
    decide (left < right) || (decide (left = right) && lexLt lefts rights)

section

variable (key : α → List ℚ)

/-- Sort by ascending keys. -/
def sortByKey (items : List α) : List α :=
  items.insertionSort fun left right => lexLt (key right) (key left) = false

/-- Sort by descending keys. -/
def sortByKeyDescending (items : List α) : List α :=
  items.insertionSort fun left right => lexLt (key left) (key right) = false

theorem sortByKey_perm (items : List α) : (sortByKey key items).Perm items :=
  perm_insertionSort _ items

theorem sortByKeyDescending_perm (items : List α) : (sortByKeyDescending key items).Perm items :=
  perm_insertionSort _ items

/-- The first element with the smallest key. -/
def firstMin : List α → Option α
  | [] => none
  | item :: rest =>
    some (rest.foldl (fun best other => if lexLt (key other) (key best) then other else best) item)

/-- The first element with the largest key. -/
def firstMax : List α → Option α
  | [] => none
  | item :: rest =>
    some (rest.foldl (fun best other => if lexLt (key best) (key other) then other else best) item)

end

private theorem foldl_select_mem (select : α → α → Bool) (item : α) (rest : List α) :
    rest.foldl (fun best other => if select best other then other else best) item ∈
      item :: rest := by
  induction rest generalizing item with
  | nil => simp
  | cons head rest ih =>
    simp only [foldl_cons]
    have tail := ih (if select item head then head else item)
    rcases mem_cons.mp tail with chosen | mem
    · rw [chosen]
      split <;> simp
    · exact mem_cons_of_mem _ (mem_cons_of_mem _ mem)

theorem lexLt_iff (left right : List ℚ) : lexLt left right = true ↔ left < right := by
  fun_induction lexLt left right with
  | case1 => simp
  | case2 => simp
  | case3 => simp
  | case4 left lefts right rights ih => simp [cons_lt_cons_iff, ih]

theorem lexLt_eq_false_iff {left right : List ℚ} : lexLt left right = false ↔ right ≤ left := by
  rw [← not_lt, ← lexLt_iff, Bool.not_eq_true]

theorem sortByKey_pairwise (key : α → List ℚ) (items : List α) :
    (sortByKey key items).Pairwise fun earlier later => key earlier ≤ key later := by
  have total : Std.Total fun left right : α => key left ≤ key right :=
    ⟨fun left right => le_total (key left) (key right)⟩
  have trans : IsTrans α fun left right => key left ≤ key right := ⟨fun _ _ _ => le_trans⟩
  simp only [sortByKey, lexLt_eq_false_iff]
  exact pairwise_insertionSort _ items

theorem sortByKeyDescending_pairwise (key : α → List ℚ) (items : List α) :
    (sortByKeyDescending key items).Pairwise fun earlier later => key later ≤ key earlier := by
  have total : Std.Total fun left right : α => key right ≤ key left :=
    ⟨fun left right => le_total (key right) (key left)⟩
  have trans : IsTrans α fun left right => key right ≤ key left :=
    ⟨fun _ _ _ first second => second.trans first⟩
  simp only [sortByKeyDescending, lexLt_eq_false_iff]
  exact pairwise_insertionSort _ items

theorem head_le_of_le {first second : ℚ} {rest others : List ℚ}
    (le : first :: rest ≤ second :: others) : first ≤ second := by
  by_contra higher
  exact le.not_gt (cons_lt_cons_iff.mpr (.inl (not_le.mp higher)))

section Stable

variable {rel before : α → α → Prop} [DecidableRel rel] {items : List α}

theorem pairwise_orderedInsert_stable {item : α}
    (ordered : items.Pairwise fun earlier later => rel later earlier → before earlier later)
    (follows : ∀ other ∈ items, before item other) :
    (items.orderedInsert rel item).Pairwise fun earlier later =>
      rel later earlier → before earlier later := by
  induction ordered with
  | nil => simp
  | @cons head tail first ordered ih =>
    rw [orderedInsert_cons]
    split
    case isTrue =>
      exact .cons (fun other mem _ => follows other mem) (.cons first ordered)
    case isFalse later =>
      refine .cons (fun other mem => ?_) (ih (forall_mem_cons.mp follows).2)
      rcases (mem_orderedInsert rel).mp mem with rfl | mem
      · exact fun sooner => absurd sooner later
      · exact first other mem

/-- A sort only exchanges elements that are strictly ordered. -/
theorem pairwise_insertionSort_stable (ordered : items.Pairwise before) :
    (items.insertionSort rel).Pairwise fun earlier later =>
      rel later earlier → before earlier later := by
  induction ordered with
  | nil => exact .nil
  | cons first ordered ih =>
    exact pairwise_orderedInsert_stable ih fun other mem =>
      first other ((mem_insertionSort rel).mp mem)

theorem sortByKeyDescending_stable (key : α → List ℚ) (ordered : items.Pairwise before) :
    (sortByKeyDescending key items).Pairwise fun earlier later =>
      key earlier = key later → before earlier later :=
  (pairwise_insertionSort_stable ordered).imp fun kept same =>
    kept (lexLt_eq_false_iff.mpr same.le)

end Stable

variable {key : α → List ℚ} {items : List α} {item : α}

theorem firstMin_mem (found : firstMin key items = some item) : item ∈ items := by
  cases items with
  | nil => cases found
  | cons head rest =>
    cases found
    exact foldl_select_mem (fun best other => lexLt (key other) (key best)) head rest

theorem firstMax_mem (found : firstMax key items = some item) : item ∈ items := by
  cases items with
  | nil => cases found
  | cons head rest =>
    cases found
    exact foldl_select_mem (fun best other => lexLt (key best) (key other)) head rest

example : sortByKey (fun value : Nat => [((value % 3 : Nat) : ℚ)]) [5, 3, 4, 6] = [3, 6, 4, 5] := by
  decide +kernel

end TokenCake
