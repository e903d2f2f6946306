import NeuVector.Agent.FileProfileRules

/-!
# The rules that a computation visits

The cached rules by group and filter, the references that the computation of a
joined profile visits for a filter, and what reading the profile of the
service from the cluster does to the cache.
-/

namespace NeuVector.Agent

open Controller Library SharedMerge List

def refAt (store : FileStore) (group : String) (key : FilterKey) : Option Nat :=
  (store.groups.lookup group).bind fun data => data.access.rules.lookup key

def ruleAt (store : FileStore) (group : String) (key : FilterKey) : Option FileAccessFilterRule :=
  (refAt store group key).bind store.heap.cells

/-- Every entry of the cached profiles has a rule of its own. -/
structure FileStore.Owned (store : FileStore) : Prop where
  live : ∀ group key ref, refAt store group key = some ref →
    ∃ rule, store.heap.cells ref = some rule
  apart : ∀ group key other otherKey ref, refAt store group key = some ref →
    refAt store other otherKey = some ref → group = other ∧ key = otherKey

variable {store : FileStore} {orders : FileOrders} {id svc group : String} {key : FilterKey}

theorem FileStore.Owned.bound (owned : store.Owned) {ref : Nat}
    (found : refAt store group key = some ref) : ref < store.heap.next := by
  by_contra above
  obtain ⟨rule, cell⟩ := owned.live group key ref found
  rw [store.heap.fresh ref (Nat.le_of_not_lt above)] at cell
  cases cell

theorem FileStore.Owned.rule (owned : store.Owned) {ref : Nat}
    (found : refAt store group key = some ref) :
    ∃ rule, store.heap.cells ref = some rule ∧ ruleAt store group key = some rule := by
  obtain ⟨rule, cell⟩ := owned.live group key ref found
  refine ⟨rule, cell, ?_⟩
  unfold ruleAt
  rw [found]
  exact cell

def isMember (store : FileStore) (id group : String) : Bool :=
  match store.groups.lookup group with
  | none => false
  | some data => decide (id ∈ data.members)

def memberGroups (orders : FileOrders) (store : FileStore) (id : String) : List String :=
  (orders.groups.order store.groups.keys).filter (isMember store id)

def groupVisits (orders : FileOrders) (store : FileStore) (group : String) :
    List (FilterKey × Nat) :=
  match store.groups.lookup group with
  | none => []
  | some data => accessVisits (orders.rules group) data.access.rules

def memberVisits (orders : FileOrders) (store : FileStore) (id : String) : List (FilterKey × Nat) :=
  (memberGroups orders store id).flatMap (groupVisits orders store)

theorem mergeFileGroup_eq (loop : FileLoop) (group : String) :
    mergeFileGroup orders store id loop group =
      if isMember store id group then
        { filters := loop.filters ++ ((store.groups.lookup group).map (·.file.filters)).getD []
          filtersCRD :=
            loop.filtersCRD ++ ((store.groups.lookup group).map (·.file.filtersCRD)).getD []
          access := (groupVisits orders store group).foldl (visit mergeAccessRule) loop.access }
      else loop := by
  unfold mergeFileGroup isMember groupVisits
  cases store.groups.lookup group with
  | none => rfl
  | some data => simp [mergeFileAccessProfile]

theorem mergeFileGroups_access (groups : List String) (loop : FileLoop) :
    (groups.foldl (mergeFileGroup orders store id) loop).access =
      ((groups.filter (isMember store id)).flatMap (groupVisits orders store)).foldl
          (visit mergeAccessRule) loop.access := by
  induction groups generalizing loop with
  | nil => rfl
  | cons first rest induction =>
    rw [foldl_cons, induction, mergeFileGroup_eq, filter_cons]
    split
    · rw [flatMap_cons, foldl_append]
    · rfl

theorem refs_accessVisits (order : MapOrder (FilterKey × Nat)) (rules : GoMap FilterKey Nat) :
    refs key (accessVisits order rules) = (rules.lookup key).toList := by
  have reordered := order.order_perm (rules.entries.map fun item => (item.1, item.2))
  have members : ∀ ref, ref ∈ refs key (accessVisits order rules) ↔
      rules.lookup key = some ref := by
    intro ref
    rw [mem_refs]
    exact reordered.mem_iff.trans Table.mem_pairs
  have apart : (accessVisits order rules).Pairwise fun one two => one.1 ≠ two.1 := by
    apply (reordered.pairwise_iff fun different => different.symm).mpr
    exact pairwise_map.mpr (pairwise_map.mp rules.nodupKeys)
  have nodup : (refs key (accessVisits order rules)).Nodup := by
    apply pairwise_map.mpr
    refine List.Pairwise.imp_of_mem ?_ (apart.filter _)
    intro one two oneIn twoIn different
    have ofOne := of_decide_eq_true (mem_filter.mp oneIn).2
    have ofTwo := of_decide_eq_true (mem_filter.mp twoIn).2
    exact absurd (ofOne.trans ofTwo.symm) different
  have single : ((rules.lookup key).toList).Nodup := by
    cases rules.lookup key with
    | none => exact nodup_nil
    | some ref => exact nodup_singleton ref
  have same := (perm_ext_iff_of_nodup nodup single).mpr fun ref =>
    (members ref).trans Option.mem_toList.symm
  cases found : rules.lookup key with
  | none =>
    rw [found] at same
    exact same.eq_nil
  | some ref =>
    rw [found] at same
    exact perm_singleton.mp same

theorem refs_groupVisits :
    refs key (groupVisits orders store group) = (refAt store group key).toList := by
  unfold groupVisits refAt
  cases store.groups.lookup group with
  | none => rfl
  | some data => exact refs_accessVisits _ _

theorem refs_memberVisits :
    refs key (memberVisits orders store id) =
      (memberGroups orders store id).filterMap (refAt store · key) := by
  unfold memberVisits
  induction memberGroups orders store id with
  | nil => rfl
  | cons first rest induction =>
    rw [flatMap_cons, refs_append, induction, refs_groupVisits, filterMap_cons]
    cases refAt store first key with
    | none | some ref => rfl

theorem mem_memberVisits {ref : Nat} (member : (key, ref) ∈ memberVisits orders store id) :
    ∃ group ∈ memberGroups orders store id, refAt store group key = some ref := by
  rw [← mem_refs, refs_memberVisits] at member
  exact mem_filterMap.mp member

/-- What reading rules leaves: new references for the rules that are read. -/
structure RulesRead (heap : Heap FileAccessFilterRule) (rules : GoMap FilterKey Nat)
    (items : List (FilterKey × FileAccessFilterRule))
    (after : Heap FileAccessFilterRule × GoMap FilterKey Nat) : Prop where
  next : heap.next ≤ after.1.next
  cells : ∀ ref < heap.next, after.1.cells ref = heap.cells ref
  kept : ∀ key, (∀ rule, (key, rule) ∉ items) → after.2.lookup key = rules.lookup key
  read : ∀ key rule, (key, rule) ∈ items → ∃ ref,
    after.2.lookup key = some ref ∧ heap.next ≤ ref ∧ after.1.cells ref = some rule
  apart : ∀ key other ref, heap.next ≤ ref →
    after.2.lookup key = some ref → after.2.lookup other = some ref →
    key = other

theorem readRules (items : List (FilterKey × FileAccessFilterRule))
    (nodup : (items.map Prod.fst).Nodup) (heap : Heap FileAccessFilterRule)
    (rules : GoMap FilterKey Nat)
    (bound : ∀ key ref, rules.lookup key = some ref → ref < heap.next) :
    RulesRead heap rules items (items.foldl readRule (heap, rules)) := by
  induction items generalizing heap rules with
  | nil =>
    refine ⟨Nat.le_refl _, fun _ _ => rfl, fun _ _ => rfl, ?_, ?_⟩
    · intro key rule none
      cases none
    · intro key other ref above found
      exact absurd (bound key ref found) (Nat.not_lt.mpr above)
  | cons first rest induction =>
    obtain ⟨new, others⟩ := nodup_cons.mp nodup
    have boundNext : ∀ key ref, (rules.insert first.1 heap.next).lookup key = some ref →
        ref < heap.next + 1 := by
      intro key ref found
      rw [Table.lookup_insert] at found
      split at found
      · cases found
        omega
      · have below := bound key ref found
        omega
    have after := induction others (heap.alloc first.2) (rules.insert first.1 heap.next) boundNext
    have notRest : ∀ rule, (first.1, rule) ∉ rest := by
      intro rule member
      exact new (mem_map.mpr ⟨_, member, rfl⟩)
    have ofFirst : (rest.foldl readRule (heap.alloc first.2,
        rules.insert first.1 heap.next)).2.lookup first.1 = some heap.next :=
      (after.kept first.1 notRest).trans (AList.lookup_insert _)
    have onlyFirst : ∀ key, (rest.foldl readRule (heap.alloc first.2,
        rules.insert first.1 heap.next)).2.lookup key = some heap.next → key = first.1 := by
      intro key found
      by_contra different
      by_cases inRest : ∃ rule, (key, rule) ∈ rest
      · obtain ⟨rule, member⟩ := inRest
        obtain ⟨ref, isRef, above, _⟩ := after.read key rule member
        rw [found] at isRef
        cases isRef
        exact absurd above (Nat.not_succ_le_self heap.next)
      · rw [after.kept key fun rule member => inRest ⟨rule, member⟩,
          AList.lookup_insert_ne different] at found
        exact absurd (bound key _ found) (Nat.lt_irrefl _)
    constructor
    · exact Nat.le_of_succ_le after.next
    · intro ref below
      exact (after.cells ref (Nat.lt_succ_of_lt below)).trans
        (Heap.alloc_cells_of_ne heap _ (Nat.ne_of_lt below))
    · intro key free
      have different : key ≠ first.1 := by
        rintro rfl
        exact free first.2 mem_cons_self
      exact (after.kept key fun rule member =>
        free rule (mem_cons_of_mem _ member)).trans (AList.lookup_insert_ne different)
    · intro key rule member
      rcases mem_cons.mp member with isFirst | later
      · cases isFirst
        refine ⟨heap.next, ofFirst, Nat.le_refl _, ?_⟩
        exact (after.cells heap.next (Nat.lt_succ_self _)).trans (Heap.alloc_cells_next heap _)
      · obtain ⟨ref, found, above, cell⟩ := after.read key rule later
        exact ⟨ref, found, Nat.le_of_succ_le above, cell⟩
    · intro key other ref above found foundOther
      rcases Nat.lt_or_eq_of_le above with beyond | isNext
      · exact after.apart key other ref beyond found foundOther
      · subst isNext
        exact (onlyFirst key found).trans (onlyFirst other foundOther).symm

end NeuVector.Agent
