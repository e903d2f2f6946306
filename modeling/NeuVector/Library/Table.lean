import Mathlib.Data.Finset.Basic
import Mathlib.Data.List.AList

/-!
# Tables

Finite maps as lists of entries with different keys.  This module adds to the
library's association lists the updates that touch many entries at once, and a
rule for loops that visit the keys of a table one after the other and rewrite
or remove the entry of the key they are at.
-/

namespace NeuVector.Library

namespace Table

section Updates

variable {κ ν : Type}

def mapValues (rewrite : κ → ν → ν) (table : AList fun _ : κ => ν) : AList fun _ : κ => ν :=
  ⟨table.entries.map fun entry => ⟨entry.1, rewrite entry.1 entry.2⟩, by
    have keys : (table.entries.map fun entry =>
        (⟨entry.1, rewrite entry.1 entry.2⟩ : Sigma fun _ : κ => ν)).keys =
        table.entries.keys := by
      simp only [List.keys, List.map_map]
      rfl
    rw [List.NodupKeys, keys]
    exact table.nodupKeys⟩

def filterKeys (wanted : κ → Bool) (table : AList fun _ : κ => ν) : AList fun _ : κ => ν :=
  ⟨table.entries.filter fun entry => wanted entry.1, table.nodupKeys.sublist List.filter_sublist⟩

theorem keys_mapValues (rewrite : κ → ν → ν) (table : AList fun _ : κ => ν) :
    (mapValues rewrite table).keys = table.keys := by
  unfold mapValues AList.keys
  simp only [List.keys, List.map_map]
  rfl

variable [DecidableEq κ]

def modify (key : κ) (rewrite : ν → ν) (table : AList fun _ : κ => ν) : AList fun _ : κ => ν :=
  match table.lookup key with
  | some value => table.insert key (rewrite value)
  | none => table

variable {table : AList fun _ : κ => ν} {key other : κ}

@[simp]
theorem lookup_mapValues (rewrite : κ → ν → ν) :
    (mapValues rewrite table).lookup key = (table.lookup key).map (rewrite key) :=
  List.dlookup_map₂ key

theorem mem_pairs {pair : κ × ν} :
    pair ∈ table.entries.map (fun entry => (entry.1, entry.2)) ↔
      table.lookup pair.1 = some pair.2 := by
  rw [← Option.mem_def, AList.mem_lookup_iff, List.mem_map]
  constructor
  · rintro ⟨entry, member, rfl⟩
    exact member
  · intro member
    exact ⟨⟨pair.1, pair.2⟩, member, rfl⟩

theorem lookup_insert (value : ν) :
    (table.insert key value).lookup other =
      if other = key then some value else table.lookup other := by
  split
  next same => rw [same, AList.lookup_insert]
  next different => exact AList.lookup_insert_ne different

theorem lookup_erase :
    (table.erase key).lookup other = if other = key then none else table.lookup other := by
  split
  next same => rw [same, AList.lookup_erase]
  next different => exact AList.lookup_erase_ne different

theorem lookup_singleton {value found : ν}
    (lookup : (AList.singleton key value : AList fun _ : κ => ν).lookup other = some found) :
    other = key ∧ found = value := by
  have entry := AList.mem_lookup_iff.mp (Option.mem_def.mpr lookup)
  cases List.mem_singleton.mp entry
  exact ⟨rfl, rfl⟩

theorem lookup_filterKeys (wanted : κ → Bool) :
    (filterKeys wanted table).lookup key =
      if wanted key then table.lookup key else none := by
  apply Option.ext
  intro value
  have entry : value ∈ (filterKeys wanted table).lookup key ↔
      (⟨key, value⟩ : Sigma fun _ : κ => ν) ∈
        (filterKeys wanted table).entries := AList.mem_lookup_iff
  rw [filterKeys, List.mem_filter, ← AList.mem_lookup_iff] at entry
  refine entry.trans ?_
  cases wanted key with
  | true | false => simp

@[simp]
theorem lookup_modify_self (rewrite : ν → ν) :
    (modify key rewrite table).lookup key = (table.lookup key).map rewrite := by
  unfold modify
  cases found : table.lookup key with
  | none => exact found
  | some value => exact AList.lookup_insert table

theorem lookup_modify_ne (rewrite : ν → ν) (different : other ≠ key) :
    (modify key rewrite table).lookup other = table.lookup other := by
  unfold modify
  cases table.lookup key with
  | none => rfl
  | some value => exact AList.lookup_insert_ne different

end Updates

section Sweeps

variable {σ κ ν : Type}

/-- A loop body that, at each key, rewrites or removes the entry of this key
and no other one, as long as the state is as it was in some respect. -/
structure Sweep (lookup : σ → κ → Option ν) (kept : σ → Prop)
    (visit : σ → κ → σ) (rewrite : κ → ν → Option ν) : Prop where
  keeps : ∀ state key, kept state → kept (visit state key)
  own : ∀ state key, kept state →
    lookup (visit state key) key = (lookup state key).bind (rewrite key)
  others : ∀ state key other, kept state → other ≠ key →
    lookup (visit state key) other = lookup state other

variable {lookup : σ → κ → Option ν} {kept : σ → Prop} {visit : σ → κ → σ}
  {rewrite : κ → ν → Option ν}

section

variable (sweep : Sweep lookup kept visit rewrite)
include sweep

theorem Sweep.keeps_all (keys : List κ) {state : σ} (keep : kept state) :
    kept (keys.foldl visit state) := by
  induction keys generalizing state with
  | nil => exact keep
  | cons key rest induction => exact induction (sweep.keeps state key keep)

theorem Sweep.not_visited {keys : List κ} {key : κ} (absent : key ∉ keys)
    {state : σ} (keep : kept state) :
    lookup (keys.foldl visit state) key = lookup state key := by
  induction keys generalizing state with
  | nil => rfl
  | cons first rest induction =>
    have parts := not_or.mp (mt List.mem_cons.mpr absent)
    calc
      lookup (rest.foldl visit (visit state first)) key = lookup (visit state first) key :=
        induction parts.2 (sweep.keeps state first keep)
      _ = lookup state key := sweep.others state first key keep parts.1

theorem Sweep.visited {keys : List κ} (nodup : keys.Nodup) {key : κ}
    (member : key ∈ keys) {state : σ} (keep : kept state) :
    lookup (keys.foldl visit state) key = (lookup state key).bind (rewrite key) := by
  induction keys generalizing state with
  | nil => cases member
  | cons first rest induction =>
    obtain ⟨new, others⟩ := List.nodup_cons.mp nodup
    have keepFirst := sweep.keeps state first keep
    rcases List.mem_cons.mp member with rfl | later
    · calc
        lookup (rest.foldl visit (visit state key)) key = lookup (visit state key) key :=
          sweep.not_visited new keepFirst
        _ = (lookup state key).bind (rewrite key) := sweep.own state key keep
    · have different : key ≠ first := by
        rintro rfl
        exact new later
      calc
        lookup (rest.foldl visit (visit state first)) key =
            (lookup (visit state first) key).bind (rewrite key) :=
          induction others later keepFirst
        _ = (lookup state key).bind (rewrite key) := by
          rw [sweep.others state first key keep different]

end

end Sweeps

theorem mem_foldl_union {κ α : Type} [DecidableEq α] {sets : κ → Finset α} {value : α}
    (keys : List κ) (start : Finset α) :
    value ∈ keys.foldl (fun found key => found ∪ sets key) start ↔
      value ∈ start ∨ ∃ key ∈ keys, value ∈ sets key := by
  induction keys generalizing start with
  | nil => simp
  | cons first rest induction =>
    rw [List.foldl_cons, induction, Finset.mem_union]
    simp only [List.mem_cons, exists_eq_or_imp]
    exact or_assoc

end Table

end NeuVector.Library
