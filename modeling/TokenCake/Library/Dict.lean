import Mathlib.Data.List.Nodup
import Mathlib.Algebra.BigOperators.Group.List.Basic
import Mathlib.Tactic.Abel
import Mathlib.Tactic.Tauto

/-!
# Insertion-ordered dictionaries

A finite map whose entries are listed in the order in which their keys were
first inserted.  Assigning to a present key keeps its position, assigning to a
fresh key appends it, and the absence of duplicate keys is part of the type.
-/

namespace TokenCake

open List

/-- A finite map with the insertion order of its keys. -/
structure Dict (κ : Type u) (ν : Type v) where
  /-- The entries in insertion order. -/
  entries : List (κ × ν)
  /-- No key is listed twice. -/
  nodup : (entries.map Prod.fst).Nodup

namespace Dict

/-- The keys in insertion order. -/
def keys (dict : Dict κ ν) : List κ := dict.entries.map Prod.fst

/-- The values in insertion order of their keys. -/
def values (dict : Dict κ ν) : List ν := dict.entries.map Prod.snd

theorem keys_nodup (dict : Dict κ ν) : dict.keys.Nodup := dict.nodup

/-- The dictionary without entries. -/
def empty : Dict κ ν := ⟨[], List.nodup_nil⟩

@[simp] theorem keys_empty : (empty : Dict κ ν).keys = [] := rfl

instance : Membership κ (Dict κ ν) := ⟨fun dict key => key ∈ dict.keys⟩

theorem mem_def {dict : Dict κ ν} {key : κ} : key ∈ dict ↔ key ∈ dict.keys :=
  Iff.rfl

variable (key : κ)

@[simp] theorem not_mem_empty : key ∉ (empty : Dict κ ν) := by
  simp [mem_def]

/-- The sum of all values. -/
def sum [AddCommMonoid ν] (dict : Dict κ ν) : ν := dict.values.sum

/-- The sum of a weight over all values. -/
def sumBy [AddCommMonoid μ] (dict : Dict κ ν) (weight : ν → μ) : μ :=
  (dict.values.map weight).sum

@[simp] theorem sumBy_empty [AddCommMonoid μ] (weight : ν → μ) :
    (empty : Dict κ ν).sumBy weight = 0 := rfl

/-- Forget the entries that were inserted first. -/
def dropOldest (dict : Dict κ ν) (count : Nat) : Dict κ ν :=
  ⟨dict.entries.drop count, dict.nodup.sublist ((List.drop_sublist _ _).map Prod.fst)⟩

variable [DecidableEq κ]

instance (key : κ) (dict : Dict κ ν) : Decidable (key ∈ dict) :=
  inferInstanceAs (Decidable (key ∈ dict.keys))

/-- The value of the first entry of a key. -/
def findEntry : List (κ × ν) → κ → Option ν
  | [], _ => none
  | (other, value) :: rest, key =>
    if other = key then some value else findEntry rest key

/-- The value of a key, if there is one. -/
def get? (dict : Dict κ ν) (key : κ) : Option ν := findEntry dict.entries key

/-- The value stored under a key, or a default. -/
def getD (dict : Dict κ ν) (key : κ) (default : ν) : ν :=
  (dict.get? key).getD default

/-- Replace the value of a listed key in place, or append a fresh entry. -/
def setEntry : List (κ × ν) → κ → ν → List (κ × ν)
  | [], key, value => [(key, value)]
  | (other, old) :: rest, key, value =>
    if other = key then (other, value) :: rest
    else (other, old) :: setEntry rest key value

variable (entries : List (κ × ν))

theorem mem_keys_setEntry (key other : κ) (value : ν) :
    other ∈ (setEntry entries key value).map Prod.fst ↔
      other = key ∨ other ∈ entries.map Prod.fst := by
  induction entries with
  | nil => simp [setEntry]
  | cons entry rest ih =>
    obtain ⟨head, old⟩ := entry
    by_cases same : head = key
    · subst same
      simp [setEntry]
    · simp only [setEntry, if_neg same, map_cons, mem_cons, ih]
      tauto

theorem nodup_setEntry (value : ν) (nodup : (entries.map Prod.fst).Nodup) :
    ((setEntry entries key value).map Prod.fst).Nodup := by
  induction entries with
  | nil => simp [setEntry]
  | cons entry rest ih =>
    obtain ⟨head, old⟩ := entry
    simp only [map_cons, nodup_cons] at nodup
    by_cases same : head = key
    · subst same
      simpa [setEntry] using nodup
    · simp only [setEntry, if_neg same, map_cons, nodup_cons, mem_keys_setEntry, not_or]
      exact ⟨⟨same, nodup.1⟩, ih nodup.2⟩

/-- Assign a value to a key. -/
def set (dict : Dict κ ν) (key : κ) (value : ν) : Dict κ ν :=
  ⟨setEntry dict.entries key value, nodup_setEntry _ _ _ dict.nodup⟩

/-- A second assignment to a key replaces the first one. -/
theorem set_set (dict : Dict κ ν) (first second : ν) :
    (dict.set key first).set key second = dict.set key second := by
  have entries : ∀ entries : List (κ × ν),
      setEntry (setEntry entries key first) key second = setEntry entries key second := by
    intro entries
    induction entries with
    | nil => simp [setEntry]
    | cons entry rest ih =>
      obtain ⟨head, old⟩ := entry
      by_cases same : head = key <;> simp [setEntry, same, ih]
  unfold set
  simp only [entries]

/-- Keep the entries that satisfy a test. -/
def filter (dict : Dict κ ν) (test : κ → ν → Bool) : Dict κ ν :=
  ⟨dict.entries.filter fun entry => test entry.1 entry.2,
    dict.nodup.sublist (List.filter_sublist.map Prod.fst)⟩

/-- Remove a key. -/
def erase (dict : Dict κ ν) (key : κ) : Dict κ ν :=
  dict.filter fun other _ => !decide (other = key)

/-- The dictionary comprehension `{key: value(key) for key in keys}`. -/
def tabulate (keys : List κ) (value : κ → ν) : Dict κ ν :=
  keys.foldl (fun dict key => dict.set key (value key)) empty

section Lookup

variable (dict : Dict κ ν) {key : κ} {value : ν}

theorem findEntry_eq_some_iff {entries : List (κ × ν)} (nodup : (entries.map Prod.fst).Nodup) :
    findEntry entries key = some value ↔ (key, value) ∈ entries := by
  induction entries with
  | nil => simp [findEntry]
  | cons entry rest ih =>
    obtain ⟨head, old⟩ := entry
    simp only [map_cons, nodup_cons] at nodup
    by_cases same : head = key
    · subst same
      have absent : (head, value) ∉ rest := fun present =>
        nodup.1 (mem_map_of_mem present)
      simp [findEntry, absent, eq_comm]
    · simp [findEntry, same, Ne.symm same, ih nodup.2]

theorem get?_eq_some_iff {dict : Dict κ ν} {key : κ} {value : ν} :
    dict.get? key = some value ↔ (key, value) ∈ dict.entries :=
  findEntry_eq_some_iff dict.nodup

theorem mem_of_get?_eq_some {dict : Dict κ ν} (found : dict.get? key = some value) : key ∈ dict :=
  mem_map_of_mem (f := Prod.fst) (get?_eq_some_iff.mp found)

theorem exists_get?_of_mem {dict : Dict κ ν}
    (present : key ∈ dict) : ∃ value, dict.get? key = some value := by
  obtain ⟨⟨_, value⟩, mem, rfl⟩ := mem_map.mp present
  exact ⟨value, get?_eq_some_iff.mpr mem⟩

theorem mem_iff_exists_get? {dict : Dict κ ν} {key : κ} :
    key ∈ dict ↔ ∃ value, dict.get? key = some value :=
  ⟨exists_get?_of_mem, fun ⟨_, found⟩ => mem_of_get?_eq_some found⟩

theorem get?_eq_none_iff {dict : Dict κ ν} {key : κ} : dict.get? key = none ↔ key ∉ dict := by
  rw [mem_iff_exists_get?, Option.eq_none_iff_forall_ne_some, not_exists]

@[simp] theorem get?_empty : (empty : Dict κ ν).get? key = none := rfl

theorem findEntry_setEntry (key other : κ) (value : ν) :
    findEntry (setEntry entries key value) other =
      if other = key then some value else findEntry entries other := by
  induction entries with
  | nil => simp [setEntry, findEntry, eq_comm]
  | cons entry rest ih =>
    obtain ⟨head, old⟩ := entry
    by_cases same : head = key
    · subst same
      by_cases hit : head = other
      · simp [setEntry, findEntry, hit]
      · simp [setEntry, findEntry, hit, Ne.symm hit]
    · by_cases hit : head = other
      · subst hit
        simp [setEntry, findEntry, same]
      · simp [setEntry, findEntry, same, hit, ih]

theorem get?_set (key other : κ) (value : ν) :
    (dict.set key value).get? other = if other = key then some value else dict.get? other :=
  findEntry_setEntry _ _ _ _

@[simp] theorem get?_set_self (dict : Dict κ ν) (value : ν) :
    (dict.set key value).get? key = some value := by
  simp [get?_set]

theorem get?_set_of_ne (different : other ≠ key) (value : ν) :
    (dict.set key value).get? other = dict.get? other := by
  simp [get?_set, different]

@[simp] theorem mem_set {dict : Dict κ ν} {key other : κ} {value : ν} :
    other ∈ dict.set key value ↔ other = key ∨ other ∈ dict :=
  mem_keys_setEntry _ _ _ _

theorem get?_filter (test : κ → ν → Bool) :
    (dict.filter test).get? key = (dict.get? key).filter (test key) := by
  ext value
  rw [Option.filter_eq_some_iff, get?_eq_some_iff, get?_eq_some_iff]
  simp [filter]

theorem get?_erase (key other : κ) :
    (dict.erase key).get? other = if other = key then none else dict.get? other := by
  unfold erase
  rw [get?_filter]
  by_cases same : other = key <;> cases dict.get? other <;> simp [same]

@[simp] theorem get?_erase_self (dict : Dict κ ν) : (dict.erase key).get? key = none := by
  simp [get?_erase]

@[simp] theorem mem_erase {dict : Dict κ ν} {key other : κ} :
    other ∈ dict.erase key ↔ other ≠ key ∧ other ∈ dict := by
  rw [mem_iff_exists_get?, mem_iff_exists_get?, get?_erase]
  by_cases same : other = key <;> simp [same]

private theorem get?_foldl_set (keys : List κ) (value : κ → ν) (start : Dict κ ν) :
    (keys.foldl (fun dict other => dict.set other (value other)) start).get? key =
      if key ∈ keys then some (value key) else start.get? key := by
  induction keys generalizing start with
  | nil => simp
  | cons head rest ih =>
    simp only [foldl_cons, ih, mem_cons, get?_set]
    by_cases tail : key ∈ rest
    · simp [tail]
    · by_cases same : key = head
      · subst same
        simp [tail]
      · simp [tail, same]

theorem get?_tabulate (keys : List κ) (value : κ → ν) :
    (tabulate keys value).get? key = if key ∈ keys then some (value key) else none := by
  rw [tabulate, get?_foldl_set]
  simp

end Lookup

section Sum

/-- What is found does not depend on the order of the entries. -/
theorem getD_of_perm {left right : Dict κ ν} (perm : left.entries.Perm right.entries) :
    left.getD = right.getD := by
  funext key default
  have same : left.get? key = right.get? key := by
    ext value
    rw [get?_eq_some_iff, get?_eq_some_iff, perm.mem_iff]
  rw [getD, getD, same]

theorem sum_eq {dict : Dict κ Int} {keys : List κ} (nodup : keys.Nodup)
    (same : ∀ key, key ∈ dict ↔ key ∈ keys) :
    dict.sum = (keys.map fun key => dict.getD key 0).sum := by
  have perm : dict.keys.Perm keys := (perm_ext_iff_of_nodup dict.nodup nodup).mpr same
  rw [← (perm.map _).sum_eq, Dict.keys, map_map, sum, values]
  congr 1
  refine map_congr_left fun entry mem => ?_
  rw [Function.comp_apply, getD, get?_eq_some_iff.mpr mem]
  rfl

private theorem findEntry_eq_none_of_not_mem {entries : List (κ × ν)} {key : κ}
    (absent : key ∉ entries.map Prod.fst) :
    findEntry entries key = none := by
  induction entries with
  | nil => rfl
  | cons entry rest ih =>
    simp only [map_cons, mem_cons, not_or] at absent
    simp [findEntry, Ne.symm absent.1, ih absent.2]

variable (weight : ν → μ) (dict : Dict κ ν)

private theorem sumBy_setEntry [AddCommMonoid μ] (entries : List (κ × ν)) (key : κ) (value : ν) :
    ((setEntry entries key value).map fun entry => weight entry.2).sum +
        ((findEntry entries key).map weight).getD 0 =
      (entries.map fun entry => weight entry.2).sum + weight value := by
  induction entries with
  | nil => simp [setEntry, findEntry]
  | cons entry rest ih =>
    obtain ⟨head, old⟩ := entry
    by_cases same : head = key
    · simp only [setEntry, findEntry, if_pos same, map_cons, sum_cons,
        Option.map_some, Option.getD_some]
      abel
    · simp only [setEntry, findEntry, if_neg same, map_cons, sum_cons]
      rw [add_assoc, ih, add_assoc]

/-- Assigning to a key replaces the weight of its old value. -/
theorem sumBy_set [AddCommMonoid μ] (weight : ν → μ) (key : κ) (value : ν) :
    (dict.set key value).sumBy weight + ((dict.get? key).map weight).getD 0 =
      dict.sumBy weight + weight value := by
  have entries := sumBy_setEntry weight dict.entries key value
  unfold sumBy values
  rw [map_map, map_map]
  exact entries

theorem sum_set (dict : Dict κ Int) (key : κ) (value : Int) :
    (dict.set key value).sum = dict.sum - dict.getD key 0 + value := by
  have replaced := dict.sumBy_set id key value
  simp only [sumBy, map_id, Option.map_id_fun, id_eq] at replaced
  simp only [sum, getD] at replaced ⊢
  omega

private theorem sumBy_eraseEntry [AddCommMonoid μ] {entries : List (κ × ν)}
    (nodup : (entries.map Prod.fst).Nodup) (key : κ) :
    ((entries.filter fun entry => !decide (entry.1 = key)).map fun entry =>
        weight entry.2).sum + ((findEntry entries key).map weight).getD 0 =
      (entries.map fun entry => weight entry.2).sum := by
  induction entries with
  | nil => simp [findEntry]
  | cons entry rest ih =>
    obtain ⟨head, old⟩ := entry
    simp only [map_cons, nodup_cons] at nodup
    have tail := ih nodup.2
    by_cases same : head = key
    · subst same
      rw [findEntry_eq_none_of_not_mem nodup.1] at tail
      simp only [Option.map_none, Option.getD_none, add_zero] at tail
      simp [findEntry, tail, add_comm]
    · simp only [filter_cons, same, decide_false, Bool.not_false,
        if_true, map_cons, sum_cons, findEntry, if_false]
      rw [add_assoc, tail]

/-- Erasing a key removes the weight of its value. -/
theorem sumBy_erase [AddCommMonoid μ] (weight : ν → μ) (key : κ) :
    (dict.erase key).sumBy weight + ((dict.get? key).map weight).getD 0 = dict.sumBy weight := by
  have entries := sumBy_eraseEntry weight dict.nodup key
  unfold sumBy values
  rw [map_map, map_map]
  exact entries

/-- The total size of the keys. -/
def load (dict : Dict κ ν) (size : κ → Nat) : Nat := (dict.keys.map size).sum

omit [DecidableEq κ] in
theorem load_eq {dict : Dict κ ν} (size : κ → Nat) {keys : List κ} (nodup : keys.Nodup)
    (same : ∀ key, key ∈ dict ↔ key ∈ keys) : dict.load size = (keys.map size).sum :=
  (((perm_ext_iff_of_nodup dict.nodup nodup).mpr same).map size).sum_eq

theorem load_set_of_mem {dict : Dict κ ν} {key : κ} (size : κ → Nat) (present : key ∈ dict)
    (value : ν) : (dict.set key value).load size = dict.load size :=
  load_eq size dict.nodup fun _ => mem_set.trans (or_iff_right_of_imp fun same => same ▸ present)

theorem load_set_of_not_mem {dict : Dict κ ν} {key : κ} (size : κ → Nat) (absent : key ∉ dict)
    (value : ν) : (dict.set key value).load size = size key + dict.load size :=
  load_eq size (dict.nodup.cons absent) fun _ => mem_set.trans mem_cons.symm

theorem load_erase {dict : Dict κ ν} {key : κ} (size : κ → Nat) (present : key ∈ dict) :
    dict.load size = size key + (dict.erase key).load size := by
  refine load_eq size ((nodup _).cons fun mem => (mem_erase.mp mem).1 rfl) fun other => ?_
  rw [mem_cons, ← mem_def, mem_erase]
  by_cases same : other = key
  · simp [same, present]
  · simp [same]

end Sum

end Dict

end TokenCake
