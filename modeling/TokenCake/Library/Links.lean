import Mathlib.Data.List.Chain
import Mathlib.Data.List.Nodup

/-!
# Intrusive doubly linked lists

A list between two fake ends, whose links are stored with its items.  Every item
outside the list has no links.  The operations are the pointer assignments that
append items, unlink an item in the middle and cut items off the front; each one
is related to an operation on the list that the links represent.  All of them make two
places neighbours, so the proofs are about chains of linked places.
-/

namespace TokenCake

open List

/-- A fake end or an item of a linked list. -/
inductive Place (α : Type) where
  | head
  | item (value : α)
  | tail
deriving DecidableEq, Repr

theorem Place.item_injective {α : Type} : Function.Injective (Place.item : α → Place α) := by
  intro left right equal
  injection equal

/-- The links of a list.  The fake ends always have a neighbour. -/
structure Links (α : Type) where
  /-- What follows the fake head. -/
  first : Place α
  /-- What precedes the fake tail. -/
  last : Place α
  prev : α → Option (Place α)
  next : α → Option (Place α)

namespace Links

variable {α : Type} [DecidableEq α]

section

variable (links : Links α)

/-- The link to the following place. -/
def nextOf : Place α → Option (Place α)
  | .head => some links.first
  | .item value => links.next value
  | .tail => none

/-- The link to the preceding place. -/
def prevOf : Place α → Option (Place α)
  | .head => none
  | .item value => links.prev value
  | .tail => some links.last

/-- Assign the following place.  Nothing ever follows the fake tail. -/
def setNext (place target : Place α) : Links α :=
  match place with
  | .head => { links with first := target }
  | .item value =>
    { links with
      next := fun other => if other = value then some target else links.next other }
  | .tail => links

/-- Assign the preceding place.  Nothing ever precedes the fake head. -/
def setPrev (place target : Place α) : Links α :=
  match place with
  | .head => links
  | .item value =>
    { links with
      prev := fun other => if other = value then some target else links.prev other }
  | .tail => { links with last := target }

/-- Remove the links of an item. -/
def clear (value : α) : Links α :=
  { links with
    prev := fun other => if other = value then none else links.prev other
    next := fun other => if other = value then none else links.next other }

end

section Assignments

variable (links : Links α) {place other : Place α} (target : Place α)

theorem nextOf_setNext_self (inner : place ≠ .tail) :
    (links.setNext place target).nextOf place = some target := by
  cases place with
  | head => rfl
  | item value => simp [setNext, nextOf]
  | tail => exact absurd rfl inner

theorem nextOf_setNext_of_ne (different : other ≠ place) :
    (links.setNext place target).nextOf other = links.nextOf other := by
  cases place <;> cases other <;> simp_all [setNext, nextOf]

@[simp] theorem prevOf_setNext :
    (links.setNext place target).prevOf other = links.prevOf other := by
  cases place <;> cases other <;> rfl

theorem prevOf_setPrev_self (inner : place ≠ .head) :
    (links.setPrev place target).prevOf place = some target := by
  cases place with
  | head => exact absurd rfl inner
  | item value => simp [setPrev, prevOf]
  | tail => rfl

theorem prevOf_setPrev_of_ne (different : other ≠ place) :
    (links.setPrev place target).prevOf other = links.prevOf other := by
  cases place <;> cases other <;> simp_all [setPrev, prevOf]

@[simp] theorem nextOf_setPrev :
    (links.setPrev place target).nextOf other = links.nextOf other := by
  cases place <;> cases other <;> rfl

theorem nextOf_clear_of_ne {value : α} (different : other ≠ .item value) :
    (links.clear value).nextOf other = links.nextOf other := by
  cases other <;> simp_all [clear, nextOf]

theorem prevOf_clear_of_ne {value : α} (different : other ≠ .item value) :
    (links.clear value).prevOf other = links.prevOf other := by
  cases other <;> simp_all [clear, prevOf]

end Assignments

/-- Following the links from a place passes the items and ends in the last place. -/
def Reaches (links : Links α) : Place α → List α → Place α → Prop
  | start, [], stop => stop = start
  | start, value :: rest, stop =>
    links.nextOf start = some (.item value) ∧ links.prevOf (.item value) = some start ∧
      links.Reaches (.item value) rest stop

/-- Two places are neighbours in both directions. -/
def Linked (links : Links α) (left right : Place α) : Prop :=
  links.nextOf left = some right ∧ links.prevOf right = some left

/-- The links represent a list of items between the fake ends. -/
structure Represents (links : Links α) (items : List α) : Prop where
  nodup : items.Nodup
  linked : ∃ stop, links.Reaches .head items stop ∧ links.Linked stop .tail
  outside : ∀ value, value ∉ items → links.prev value = none ∧ links.next value = none

/-- The links of a list without items. -/
def empty : Links α where
  first := .tail
  last := .head
  prev := fun _ => none
  next := fun _ => none

omit [DecidableEq α] in
theorem represents_empty : (empty : Links α).Represents [] :=
  ⟨nodup_nil, ⟨.head, rfl, rfl, rfl⟩, fun _ _ => ⟨rfl, rfl⟩⟩

/-- The places of items in front of the fake tail. -/
def places (items : List α) : List (Place α) := items.map .item ++ [.tail]

section Chains

variable {links changed : Links α} {items : List α} {value other : α}
  {path left right : List (Place α)} {before behind : Place α}

section

omit [DecidableEq α]

theorem places_cons (value : α) (items : List α) :
    places (value :: items) = .item value :: places items := rfl

theorem exists_places (items : List α) : ∃ first rest, places items = first :: rest := by
  cases items <;> exact ⟨_, _, rfl⟩

@[simp] theorem item_mem_places : .item value ∈ places items ↔ value ∈ items := by
  simp [places]

@[simp] theorem head_notMem_places : .head ∉ places items := by
  simp [places]

theorem nodup_places (nodup : items.Nodup) : (.head :: places items).Nodup := by
  refine nodup_cons.mpr ⟨head_notMem_places, ?_⟩
  simp [places, nodup_append, nodup.map Place.item_injective]

/-- Paths to the fake tail are chains of linked places. -/
theorem isChain_iff_reaches {start : Place α} :
    (start :: places items).IsChain links.Linked ↔
      ∃ stop, links.Reaches start items stop ∧ links.Linked stop .tail := by
  induction items generalizing start with
  | nil => simp [places, Reaches]
  | cons value rest ih =>
    rw [places_cons, isChain_cons_cons, ih]
    constructor
    · rintro ⟨⟨next, prev⟩, stop, path, linked⟩
      exact ⟨stop, ⟨next, prev, path⟩, linked⟩
    · rintro ⟨stop, ⟨next, prev, path⟩, linked⟩
      exact ⟨⟨next, prev⟩, stop, path, linked⟩

theorem Represents.isChain (represents : links.Represents items) :
    (.head :: places items).IsChain links.Linked :=
  isChain_iff_reaches.mpr represents.linked

/-- A chain depends on the links behind all places but the last one and in front of all
but the first one. -/
theorem isChain_congr (chain : path.IsChain links.Linked)
    (sameNext : ∀ place ∈ path.dropLast, changed.nextOf place = links.nextOf place)
    (samePrev : ∀ place ∈ path.tail, changed.prevOf place = links.prevOf place) :
    path.IsChain changed.Linked := by
  induction path with
  | nil => exact .nil
  | cons first rest ih =>
    cases rest with
    | nil => exact .singleton _
    | cons second rest =>
      obtain ⟨linked, chain⟩ := isChain_cons_cons.mp chain
      refine isChain_cons_cons.mpr ⟨⟨?_, ?_⟩, ih chain ?_ ?_⟩
      · exact (sameNext first mem_cons_self).trans linked.1
      · exact (samePrev second mem_cons_self).trans linked.2
      · exact fun place mem => sameNext place (mem_cons_of_mem _ mem)
      · exact fun place mem => samePrev place (mem_cons_of_mem _ mem)

end

/-- Make two places neighbours. -/
def relink (links : Links α) (before behind : Place α) : Links α :=
  (links.setNext before behind).setPrev behind before

/-- The two assignments do not interfere. -/
theorem setNext_setPrev (links : Links α) (before behind : Place α) :
    (links.setPrev behind before).setNext before behind = links.relink before behind := by
  cases before <;> cases behind <;> rfl

theorem nextOf_relink_of_ne {place : Place α} (different : place ≠ before) :
    (links.relink before behind).nextOf place = links.nextOf place :=
  (nextOf_setPrev _ _).trans (nextOf_setNext_of_ne _ _ different)

theorem prevOf_relink_of_ne {place : Place α} (different : place ≠ behind) :
    (links.relink before behind).prevOf place = links.prevOf place :=
  (prevOf_setPrev_of_ne _ _ different).trans (prevOf_setNext _ _)

/-- New neighbours join two chains. -/
theorem isChain_relink (nodup : (left ++ before :: behind :: right).Nodup)
    (notTail : before ≠ .tail) (notHead : behind ≠ .head)
    (front : (left ++ [before]).IsChain links.Linked)
    (back : (behind :: right).IsChain links.Linked) :
    (left ++ before :: behind :: right).IsChain (links.relink before behind).Linked := by
  obtain ⟨-, rest, disjoint⟩ := nodup_append.mp nodup
  obtain ⟨fresh, rest⟩ := nodup_cons.mp rest
  rw [isChain_append_cons_cons]
  refine ⟨isChain_congr front ?_ ?_, ⟨?_, ?_⟩, isChain_congr back ?_ ?_⟩
  · intro place mem
    rw [dropLast_concat] at mem
    exact nextOf_relink_of_ne (disjoint place mem before mem_cons_self)
  · intro place mem
    refine prevOf_relink_of_ne ?_
    rcases mem_append.mp (mem_of_mem_tail mem) with mem | mem
    · exact disjoint place mem behind (by simp)
    · rw [mem_singleton.mp mem]
      exact fun same => fresh (same ▸ mem_cons_self)
  · exact (nextOf_setPrev _ _).trans (nextOf_setNext_self _ _ notTail)
  · exact prevOf_setPrev_self _ _ notHead
  · exact fun place mem => nextOf_relink_of_ne fun same =>
      fresh (same ▸ dropLast_subset _ mem)
  · exact fun place mem => prevOf_relink_of_ne fun same =>
      (nodup_cons.mp rest).1 (same ▸ mem)

theorem isChain_clear (absent : .item value ∉ path)
    (chain : path.IsChain links.Linked) : path.IsChain (links.clear value).Linked :=
  isChain_congr chain (fun _ mem => nextOf_clear_of_ne _ fun same =>
      absent (same ▸ dropLast_subset _ mem))
    (fun _ mem => prevOf_clear_of_ne _ fun same => absent (same ▸ mem_of_mem_tail mem))

/-- Values without links keep having none when others become neighbours. -/
theorem unlinked_relink (notBefore : .item other ≠ before) (notBehind : .item other ≠ behind)
    (unlinked : links.prev other = none ∧ links.next other = none) :
    (links.relink before behind).prev other = none ∧
      (links.relink before behind).next other = none :=
  ⟨(prevOf_relink_of_ne notBehind).trans unlinked.1,
    (nextOf_relink_of_ne notBefore).trans unlinked.2⟩

theorem unlinked_clear
    (unlinked : other ≠ value → links.prev other = none ∧ links.next other = none) :
    (links.clear value).prev other = none ∧ (links.clear value).next other = none := by
  by_cases same : other = value
  · simp [clear, same]
  · simpa [clear, same] using unlinked same

end Chains

section Append

/-- Link values one behind the other; the answer is the last place. -/
def extend : Place α → List α → Links α → Place α × Links α
  | last, [], links => (last, links)
  | last, value :: rest, links =>
    extend (.item value) rest ((links.setPrev (.item value) last).setNext last (.item value))

/-- Put values in front of the fake tail. -/
def appendAll (links : Links α) (values : List α) : Links α :=
  if values.isEmpty then links
  else
    let (last, links) := extend links.last values links
    (links.setNext last .tail).setPrev .tail last

variable {links : Links α} {items values : List α} {last : Place α} {left : List (Place α)}

/-- The places in front of the fake tail, after more values are linked. -/
structure Extends (items : List α) (left : List (Place α)) (last : Place α)
    (links : Links α) : Prop where
  front : .head :: items.map .item = left ++ [last]
  chain : (left ++ [last]).IsChain links.Linked
  outside : ∀ value, value ∉ items → links.prev value = none ∧ links.next value = none

section

variable (extends_ : Extends items left last links)

include extends_

/-- A place behind the last one joins the chain. -/
theorem Extends.isChain_relink (nodup : items.Nodup) {place : Place α}
    (notHead : place ≠ .head) (fresh : place ∉ left ++ [last]) :
    (left ++ [last] ++ [place]).IsChain (links.relink last place).Linked := by
  have distinct : (left ++ [last] ++ [place]).Nodup := by
    have front : (.head :: items.map Place.item).Nodup :=
      (nodup_places nodup).sublist ((sublist_append_left _ _).cons_cons _)
    rw [extends_.front] at front
    exact nodup_append.mpr ⟨front, nodup_singleton _, fun other mem _ single same =>
      fresh (mem_singleton.mp single ▸ same ▸ mem)⟩
  have notTail : last ≠ .tail := by
    have mem : last ∈ Place.head :: items.map .item := by simp [extends_.front]
    rintro rfl
    simp at mem
  rw [append_assoc] at distinct ⊢
  exact Links.isChain_relink distinct notTail notHead extends_.chain (.singleton _)

omit [DecidableEq α] in
theorem Extends.mem_iff {value : α} : .item value ∈ left ++ [last] ↔ value ∈ items := by
  rw [← extends_.front]
  simp

theorem Extends.extend (nodup : (items ++ values).Nodup) :
    ∃ left, Extends (items ++ values) left (extend last values links).1
      (extend last values links).2 := by
  induction values generalizing links items last left with
  | nil => exact ⟨left, by rw [append_nil]; exact extends_⟩
  | cons value rest ih =>
    rw [append_cons] at nodup ⊢
    obtain ⟨front, -, -⟩ := nodup_append.mp nodup
    obtain ⟨itemsNodup, -, disjoint⟩ := nodup_append.mp front
    have fresh : .item value ∉ left ++ [last] := fun mem =>
      disjoint value (extends_.mem_iff.mp mem) value (by simp) rfl
    unfold Links.extend
    rw [setNext_setPrev]
    refine ih ⟨?_, extends_.isChain_relink itemsNodup (by simp) fresh, fun other absent => ?_⟩ nodup
    · rw [map_append, ← cons_append, extends_.front]
      rfl
    · simp only [mem_append, mem_singleton, not_or] at absent
      refine unlinked_relink (fun same => ?_) (fun same => ?_) (extends_.outside other absent.1)
      · exact absent.1 (extends_.mem_iff.mp (by simp [same]))
      · exact absent.2 (Place.item_injective same)

end

theorem Represents.appendAll (represents : links.Represents items)
    (nodup : (items ++ values).Nodup) : (links.appendAll values).Represents (items ++ values) := by
  unfold Links.appendAll
  split
  · next empty =>
    rw [isEmpty_iff.mp empty, append_nil]
    exact represents
  · obtain ⟨left, last, front⟩ :=
      (eq_nil_or_concat' (Place.head :: items.map .item)).resolve_left (cons_ne_nil _ _)
    have chain : (Place.head :: items.map .item ++ [Place.tail]).IsChain links.Linked :=
      represents.isChain
    rw [front, append_assoc, cons_append, nil_append, isChain_append_cons_cons] at chain
    obtain ⟨chain, linked, -⟩ := chain
    rw [show links.last = last from Option.some.inj linked.2]
    obtain ⟨left, extended⟩ := (Extends.mk front chain represents.outside).extend nodup
    generalize Links.extend last values links = result at extended ⊢
    obtain ⟨stop, changed⟩ := result
    have fresh : Place.tail ∉ left ++ [stop] := by
      rw [← extended.front]
      simp
    have final := extended.isChain_relink nodup (by simp) fresh
    rw [← extended.front, cons_append] at final
    refine ⟨nodup, isChain_iff_reaches.mp final, fun value absent => ?_⟩
    refine unlinked_relink (fun same => ?_) (by simp) (extended.outside value absent)
    exact absent (extended.mem_iff.mp (by simp [same]))

end Append

section Unlink

/-- Take a value out of the list, if it is linked. -/
def unlink (links : Links α) (value : α) : Option (Links α) :=
  match links.prev value, links.next value with
  | some before, some behind =>
    some (((links.setNext before behind).setPrev behind before).clear value)
  | _, _ => none

/-- Unlinking a value erases it from the represented list. -/
theorem Represents.unlink {links : Links α}
    (represents : links.Represents items) (mem : value ∈ items) :
    ∃ changed, links.unlink value = some changed ∧ changed.Represents (items.erase value) := by
  obtain ⟨front, back, rfl⟩ := append_of_mem mem
  obtain ⟨-, -, disjoint⟩ := nodup_append.mp represents.nodup
  have fresh : value ∉ front := fun inFront =>
    disjoint value inFront value mem_cons_self rfl
  have erased : (front ++ value :: back).erase value = front ++ back := by
    rw [erase_append_right _ fresh, erase_cons_head]
  have nodup : (front ++ back).Nodup := erased ▸ represents.nodup.erase value
  rw [erased]
  -- The neighbours of the value are the last place in front of it and the first one behind it.
  obtain ⟨left, before, inFront⟩ :=
    (eq_nil_or_concat' (Place.head :: front.map .item)).resolve_left (cons_ne_nil _ _)
  obtain ⟨behind, right, inBack⟩ := exists_places back
  have inner : .head :: places (front ++ back) = left ++ before :: behind :: right := by
    rw [places, map_append, append_assoc, ← cons_append, inFront, append_assoc]
    exact congrArg (left ++ before :: ·) inBack
  have whole : .head :: places (front ++ value :: back) =
      left ++ before :: .item value :: behind :: right := by
    rw [places, map_append, append_assoc, ← cons_append, inFront, append_assoc]
    exact congrArg (left ++ before :: .item value :: ·) inBack
  have chain := represents.isChain
  have distinct := nodup_places represents.nodup
  rw [whole] at chain distinct
  rw [isChain_append_cons_cons, isChain_cons_cons] at chain
  obtain ⟨frontChain, ⟨-, prev⟩, ⟨next, -⟩, backChain⟩ := chain
  have shorter : (left ++ before :: behind :: right).Nodup := inner ▸ nodup_places nodup
  have notTail : before ≠ .tail := by
    have mem : before ∈ Place.head :: front.map .item := by simp [inFront]
    rintro rfl
    simp at mem
  have notHead : behind ≠ .head := by
    have mem : behind ∈ places back := by simp [inBack]
    rintro rfl
    exact head_notMem_places mem
  have members : ∀ other, .item other ∈ left ++ before :: behind :: right →
      other ∈ front ++ back := by
    intro other mem
    rw [← inner] at mem
    simpa using mem
  have absent : value ∉ front ++ back := by
    rw [← erased]
    exact represents.nodup.not_mem_erase
  have joined := isChain_clear (mt (members value) absent)
    (isChain_relink shorter notTail notHead frontChain backChain)
  rw [← inner] at joined
  refine ⟨(links.relink before behind).clear value, ?_, nodup, isChain_iff_reaches.mp joined, ?_⟩
  · unfold Links.unlink
    rw [show links.prev value = some before from prev,
      show links.next value = some behind from next]
    rfl
  · intro other absent
    refine unlinked_clear fun different => unlinked_relink ?_ ?_ (represents.outside other ?_)
    · rintro rfl
      exact absent (members other (by simp))
    · rintro rfl
      exact absent (members other (by simp))
    · simp_all

end Unlink

section Front

/-- Cut a number of items off, starting at a place; the answer has the items and
the place behind them. -/
def cut : Nat → Option (Place α) → Links α → Option (List α × Option (Place α) × Links α)
  | 0, current, links => some ([], current, links)
  | count + 1, some (.item value), links =>
    (cut count (links.next value) (links.clear value)).map fun result =>
      (value :: result.1, result.2)
  | _ + 1, _, _ => none

/-- Take a number of items from the front. -/
def popFront (links : Links α) (count : Nat) : Option (List α × Links α) :=
  (cut count (some links.first) links).map fun result =>
    match result with
    | (values, some current, links) =>
      (values, (links.setNext .head current).setPrev current .head)
    | (values, none, links) => (values, links)

/-- The items from a place on, as long as there are links. -/
def walk (links : Links α) : Nat → Place α → List α
  | fuel + 1, .item value =>
    match links.next value with
    | none => []
    | some following => value :: links.walk fuel following
  | _, _ => []

variable {links : Links α} {items : List α} {current : Place α} {count : Nat}

section

omit [DecidableEq α]

/-- The list from the first place on. -/
theorem Represents.runs (represents : links.Represents items) :
    (places items).head? = some links.first ∧ (places items).IsChain links.Linked := by
  obtain ⟨linked, chain⟩ := isChain_cons.mp represents.isChain
  obtain ⟨first, rest, start⟩ := exists_places items
  have begins : (places items).head? = some first := congrArg head? start
  rw [begins]
  exact ⟨(linked first begins).1.symm, chain⟩

/-- The links behind the first item. -/
theorem exists_next_of_isChain (chain : (places (value :: items)).IsChain links.Linked) :
    ∃ following, links.next value = some following ∧ (places items).head? = some following ∧
      (places items).IsChain links.Linked := by
  rw [places_cons] at chain
  obtain ⟨linked, chain⟩ := isChain_cons.mp chain
  obtain ⟨first, rest, start⟩ := exists_places items
  have begins : (places items).head? = some first := congrArg head? start
  exact ⟨first, (linked first begins).1, begins, chain⟩

theorem walk_eq (enough : items.length ≤ fuel)
    (start : (places items).head? = some current) (chain : (places items).IsChain links.Linked) :
    links.walk fuel current = items := by
  induction items generalizing current fuel with
  | nil =>
    cases start
    cases fuel <;> rfl
  | cons value rest ih =>
    obtain ⟨following, next, start', chain⟩ := exists_next_of_isChain chain
    cases start
    cases fuel with
    | zero => simp at enough
    | succ fuel =>
      unfold walk
      simp only [length_cons, Nat.add_le_add_iff_right] at enough
      simp only [next, ih enough start' chain]

end

/-- Cutting items off yields the first ones and leaves the rest. -/
theorem cut_eq (enough : count ≤ items.length) (nodup : items.Nodup)
    (outside : ∀ value, value ∉ items → links.prev value = none ∧ links.next value = none)
    (start : (places items).head? = some current) (chain : (places items).IsChain links.Linked) :
    ∃ following rest, cut count (some current) links = some (items.take count, some following, rest) ∧
      (places (items.drop count)).head? = some following ∧
      (places (items.drop count)).IsChain rest.Linked ∧
      ∀ value, value ∉ items.drop count → rest.prev value = none ∧ rest.next value = none := by
  induction count generalizing links items current with
  | zero => exact ⟨current, links, by simp [cut], start, chain, outside⟩
  | succ count ih =>
    cases items with
    | nil => simp at enough
    | cons value items =>
      obtain ⟨fresh, nodup⟩ := nodup_cons.mp nodup
      obtain ⟨following, next, start', chain⟩ := exists_next_of_isChain chain
      cases start
      obtain ⟨last, rest, taken, remaining⟩ :=
        ih (Nat.le_of_succ_le_succ enough) nodup
          (fun other absent => unlinked_clear fun different =>
            outside other (not_mem_cons_of_ne_of_not_mem different absent))
          start' (isChain_clear (by simpa using fresh) chain)
      refine ⟨last, rest, ?_, remaining⟩
      unfold cut
      rw [next, taken]
      simp

/-- Taking items from the front drops them from the represented list. -/
theorem Represents.popFront (represents : links.Represents items) (enough : count ≤ items.length) :
    ∃ changed, links.popFront count = some (items.take count, changed) ∧
      changed.Represents (items.drop count) := by
  obtain ⟨following, rest, taken, start, chain, outside⟩ :=
    cut_eq enough represents.nodup represents.outside represents.runs.1 represents.runs.2
  have nodup : (items.drop count).Nodup := represents.nodup.sublist (drop_sublist count items)
  obtain ⟨first, right, remaining⟩ := exists_places (items.drop count)
  rw [remaining] at start chain
  cases start
  have distinct := nodup_places nodup
  have notHead : following ≠ .head := by
    rintro rfl
    exact head_notMem_places (remaining ▸ mem_cons_self)
  rw [remaining, ← nil_append (Place.head :: _)] at distinct
  have joined : (Place.head :: following :: right).IsChain (rest.relink .head following).Linked :=
    isChain_relink distinct nofun notHead (.singleton _) chain
  rw [← remaining] at joined
  refine ⟨rest.relink .head following, ?_, nodup, isChain_iff_reaches.mp joined, ?_⟩
  · unfold Links.popFront
    rw [taken]
    rfl
  · refine fun value absent => unlinked_relink nofun ?_ (outside value absent)
    rintro rfl
    exact absent (item_mem_places.mp (remaining ▸ mem_cons_self))

end Front

end Links

end TokenCake
