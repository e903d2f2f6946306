import Mathlib.Data.List.Basic

/-!
# Hash maps as ordered entry chains

The concurrent hash map used throughout the data path allows redundant keys:
adding a key that is already present keeps both nodes, and a lookup returns
the node that was added first.  An entry chain in insertion order records
exactly this behaviour.  Hashing and resizing are not represented.
-/

namespace NeuVector.Library

open List

structure RcuMap (κ ν : Type) where
  entries : List (κ × ν)
  deriving DecidableEq

namespace RcuMap

variable {κ ν : Type} [DecidableEq κ]

def empty : RcuMap κ ν := ⟨[]⟩

def lookup (map : RcuMap κ ν) (key : κ) : Option ν := map.entries.lookup key

def add (map : RcuMap κ ν) (key : κ) (value : ν) : RcuMap κ ν := ⟨map.entries ++ [(key, value)]⟩

/-- Update in place the first entry stored under a key. -/
def modifyFirst (key : κ) (change : ν → ν) : List (κ × ν) → List (κ × ν)
  | [] => []
  | (stored, value) :: rest =>
    if stored = key then (stored, change value) :: rest
    else (stored, value) :: modifyFirst key change rest

/-- Change the node a lookup returns; without such a node nothing changes. -/
def modify (map : RcuMap κ ν) (key : κ) (change : ν → ν) : RcuMap κ ν :=
  ⟨modifyFirst key change map.entries⟩

/-- Remove the node stored under a key that is not shared. -/
def del (map : RcuMap κ ν) (key : κ) : RcuMap κ ν := ⟨map.entries.filter fun entry => entry.1 ≠ key⟩

@[simp] theorem lookup_empty (key : κ) : (empty : RcuMap κ ν).lookup key = none := rfl

variable (map : RcuMap κ ν)

theorem lookup_add (key other : κ) (value : ν) :
    (map.add key value).lookup other =
      (map.lookup other).or (if other = key then some value else none) := by
  by_cases same : other = key
  · simp [lookup, add, lookup_append, same]
  · have distinct : (other == key) = false := beq_false_of_ne same
    simp [lookup, add, lookup_append, lookup_cons, distinct, same]

theorem lookup_add_of_ne {key other : κ} (value : ν) (different : other ≠ key) :
    (map.add key value).lookup other = map.lookup other := by simp [lookup_add, different]

private theorem lookup_modifyFirst (entries : List (κ × ν)) (key other : κ) (change : ν → ν) :
    (modifyFirst key change entries).lookup other =
      if other = key then (entries.lookup other).map change
      else entries.lookup other := by
  induction entries with
  | nil => simp [modifyFirst]
  | cons entry rest induction =>
    obtain ⟨stored, storedValue⟩ := entry
    by_cases target : stored = key
    · subst target
      by_cases same : other = stored
      · simp [modifyFirst, same]
      · simp [modifyFirst, lookup_cons, same, beq_eq_false_iff_ne.mpr same]
    · by_cases same : other = stored
      · subst same
        simp [modifyFirst, target]
      · simp [modifyFirst, lookup_cons, target, beq_eq_false_iff_ne.mpr same, induction]

theorem lookup_modify (key other : κ) (change : ν → ν) :
    (map.modify key change).lookup other =
      if other = key then (map.lookup other).map change
      else map.lookup other :=
  lookup_modifyFirst map.entries key other change

private theorem lookup_filter (entries : List (κ × ν)) (key other : κ) :
    (entries.filter fun entry => entry.1 ≠ key).lookup other =
      if other = key then none else entries.lookup other := by
  induction entries with
  | nil => simp
  | cons entry rest induction =>
    obtain ⟨stored, value⟩ := entry
    by_cases target : stored = key
    · rw [filter_cons_of_neg (by simpa using target), induction]
      split
      · rfl
      next different =>
        have distinct : (other == stored) = false :=
          beq_false_of_ne (fun same => different (same.trans target))
        rw [lookup_cons, distinct]
    · rw [filter_cons_of_pos (by simpa using target),
        lookup_cons, lookup_cons, induction]
      by_cases same : other = stored
      · subst same
        simp [target]
      · simp [beq_eq_false_iff_ne.mpr same]

theorem lookup_del (key other : κ) :
    (map.del key).lookup other =
      if other = key then none else map.lookup other :=
  lookup_filter map.entries key other

theorem lookup_of_del {map : RcuMap κ ν} {key other : κ} {value : ν}
    (found : (map.del key).lookup other = some value) : map.lookup other = some value := by
  rw [lookup_del] at found
  split at found
  · cases found
  · exact found

def keys (map : RcuMap κ ν) : List κ := map.entries.map Prod.fst

theorem lookup_eq_none_iff (key : κ) : map.lookup key = none ↔ key ∉ map.keys := by
  unfold lookup keys
  rw [List.lookup_eq_none_iff]
  constructor
  · intro absent member
    obtain ⟨entry, inside, same⟩ := mem_map.mp member
    exact absurd (absent entry inside) (by simp [same])
  · intro absent entry inside
    have different : key ≠ entry.1 := fun same => absent (same ▸ mem_map_of_mem inside)
    simpa using different

omit [DecidableEq κ] in
theorem keys_add (key : κ) (value : ν) : (map.add key value).keys = map.keys ++ [key] := by
  simp [keys, add]

theorem keys_modify (key : κ) (change : ν → ν) : (map.modify key change).keys = map.keys := by
  unfold keys modify
  induction map.entries with
  | nil => rfl
  | cons entry rest induction =>
    simp only [modifyFirst]
    split
    · rfl
    · exact congrArg (entry.1 :: ·) induction

/-- Changing or dropping every value changes or drops what lookups find, when
no key is stored twice. -/
theorem lookup_filterMap {entries : List (κ × ν)} {change : ν → Option ν}
    (distinct : (entries.map Prod.fst).Nodup) (key : κ) :
    (entries.filterMap fun entry =>
      (change entry.2).map (Prod.mk entry.1)).lookup key =
      (entries.lookup key).bind change := by
  induction entries with
  | nil => rfl
  | cons entry rest induction =>
    obtain ⟨stored, value⟩ := entry
    obtain ⟨fresh, restDistinct⟩ := nodup_cons.mp distinct
    have later := induction restDistinct
    by_cases same : key = stored
    · subst same
      have absent : rest.lookup key = none := (lookup_eq_none_iff ⟨rest⟩ key).mpr fresh
      rw [absent] at later
      rw [lookup_cons_self]
      cases changed : change value with
      | none =>
        rw [filterMap_cons]
        simp only [changed, Option.map_none, Option.bind_some]
        exact later
      | some result =>
        simp [changed]
    · have distinctKey : (key == stored) = false := beq_false_of_ne same
      rw [lookup_cons, distinctKey]
      cases changed : change value with
      | none => simpa [changed] using later
      | some result => simpa [changed, lookup_cons, distinctKey] using later

end RcuMap

end NeuVector.Library
