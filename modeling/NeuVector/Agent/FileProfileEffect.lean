import NeuVector.Agent.FileProfileVisits

/-!
# What computing a file profile leaves in the cache

The computation keeps the first rule of a filter by reference and merges the
later ones into it, so the cached rule of the first group that has the filter
is written.  This module follows every cached rule through a computation.
-/

namespace NeuVector.Agent

open Controller Library SharedMerge List

variable {cluster : FileCluster} {orders : FileOrders} {store : FileStore}
  {id svc group : String} {key : FilterKey}

def serviceFile (cluster : FileCluster) (store : FileStore) (svc : String) :
    Option FileMonitorProfile :=
  (getFileMonitorProfile cluster store svc).2

/-- The rules that are read from the cluster for the service. -/
def reload (cluster : FileCluster) (store : FileStore) (svc : String) : Option StoredAccessRule :=
  match store.groups.lookup svc with
  | none => none
  | some data =>
    if (serviceFile cluster store svc).isSome ∧ data.access.group = "" then cluster.access svc
    else none

/-- The rules of the service are merged at the end. -/
def serviceRead (cluster : FileCluster) (store : FileStore) (svc : String) : Bool :=
  match store.groups.lookup svc with
  | none => false
  | some data => (serviceFile cluster store svc).isSome &&
      (data.access.group ≠ "" || (cluster.access svc).isSome)

/-- The rule of the service for a filter once its profile was read. -/
def loadedRule (cluster : FileCluster) (store : FileStore) (svc : String)
    (key : FilterKey) : Option FileAccessFilterRule :=
  match reload cluster store svc with
  | none => ruleAt store svc key
  | some stored =>
    match stored.rules.lookup key with
    | some rule => some rule
    | none =>
      if stored.isNull key.1 then none else ruleAt store svc key

/-- The rules for a filter in the order in which they are merged. -/
def holderRules (cluster : FileCluster) (orders : FileOrders)
    (store : FileStore) (id svc : String) (key : FilterKey) :
    List FileAccessFilterRule :=
  (memberGroups orders store id).filterMap (ruleAt store · key) ++
    if serviceRead cluster store svc then (loadedRule cluster store svc key).toList
    else []

def firstHolder (orders : FileOrders) (store : FileStore) (id : String)
    (key : FilterKey) : Option String :=
  (memberGroups orders store id).find? fun group => (refAt store group key).isSome

theorem getFileMonitorProfile_spec (cluster : FileCluster) (store : FileStore) (svc : String) :
    (getFileMonitorProfile cluster store svc).1.heap = store.heap ∧
      (getFileMonitorProfile cluster store svc).1.groups.keys = store.groups.keys ∧
      ∀ group, (getFileMonitorProfile cluster store svc).1.groups.lookup group =
          (store.groups.lookup group).map fun data =>
            if group = svc then
              { data with file := (serviceFile cluster store svc).getD data.file }
            else data := by
  have kept : ∀ group, store.groups.lookup group = (store.groups.lookup group).map fun data =>
        if group = svc then { data with file := data.file } else data := by
    intro group
    simp
  unfold serviceFile getFileMonitorProfile
  cases found : store.groups.lookup svc with
  | none => exact ⟨rfl, rfl, kept⟩
  | some data =>
    simp only
    split
    · cases cluster.file svc data.file with
      | none => exact ⟨rfl, rfl, kept⟩
      | some file =>
        refine ⟨rfl, Table.keys_mapValues _ _, ?_⟩
        intro group
        exact Table.lookup_mapValues _
    · refine ⟨rfl, rfl, ?_⟩
      intro group
      by_cases same : group = svc
      · subst same
        rw [found]
        simp
      · simp [same]

/-- The cache after the profile of the service was read, where the rules of
the cache may have been written before. -/
structure ServiceLoaded (store : FileStore) (written : Heap FileAccessFilterRule) (svc : String)
    (stored : Option StoredAccessRule) (last : FileStore) : Prop where
  next : store.heap.next ≤ last.heap.next
  cells : ∀ ref < store.heap.next, last.heap.cells ref = written.cells ref
  others : ∀ group key, group ≠ svc → refAt last group key = refAt store group key
  own : stored = none → ∀ key, refAt last svc key = refAt store svc key
  kept : ∀ text, stored = some text → ∀ key, text.rules.lookup key = none → refAt last svc key =
      if text.isNull key.1 then none else refAt store svc key
  read : ∀ text, stored = some text → ∀ key rule, text.rules.lookup key = some rule → ∃ ref,
      refAt last svc key = some ref ∧ store.heap.next ≤ ref ∧ last.heap.cells ref = some rule
  apart : ∀ key other ref, store.heap.next ≤ ref →
    refAt last svc key = some ref → refAt last svc other = some ref →
    key = other

variable {ref : Nat}

theorem ServiceLoaded.origin {written : Heap FileAccessFilterRule}
    {stored : Option StoredAccessRule} {last : FileStore}
    (loaded : ServiceLoaded store written svc stored last)
    (owned : store.Owned) (found : refAt last group key = some ref) :
    ref < store.heap.next ∧ refAt store group key = some ref ∧
        (group = svc → ∀ text, stored = some text → text.rules.lookup key = none) ∨
      store.heap.next ≤ ref ∧ group = svc ∧ ∃ text rule,
        stored = some text ∧ text.rules.lookup key = some rule ∧
          last.heap.cells ref = some rule := by
  by_cases same : group = svc
  · subst same
    cases stored with
    | none =>
      rw [loaded.own rfl] at found
      left
      exact ⟨owned.bound found, found, fun _ _ none => nomatch none⟩
    | some text =>
      cases isRead : text.rules.lookup key with
      | none =>
        rw [loaded.kept text rfl key isRead] at found
        split at found
        · cases found
        · left
          refine ⟨owned.bound found, found, ?_⟩
          intro _ other isText
          cases isText
          exact isRead
      | some rule =>
        obtain ⟨new, isNew, above, cell⟩ := loaded.read text rfl key rule isRead
        rw [found] at isNew
        cases isNew
        exact Or.inr ⟨above, rfl, text, rule, rfl, isRead, cell⟩
  · rw [loaded.others group key same] at found
    left
    exact ⟨owned.bound found, found, fun equal => absurd equal same⟩

theorem ServiceLoaded.unread {written : Heap FileAccessFilterRule}
    {last : FileStore} (sameNext : store.heap.next = last.heap.next)
    (cells : ∀ ref, last.heap.cells ref = written.cells ref)
    (refs : ∀ group key, refAt last group key = refAt store group key)
    (owned : store.Owned) : ServiceLoaded store written svc none last where
  next := Nat.le_of_eq sameNext
  cells := fun ref _ => cells ref
  others := fun group key _ => refs group key
  own := fun _ key => refs svc key
  kept := fun _ none => nomatch none
  read := fun _ none => nomatch none
  apart := by
    intro key other ref above found _
    rw [refs] at found
    exact absurd (owned.bound found) (Nat.not_lt.mpr above)

section Merge

variable {written : Heap FileAccessFilterRule} {stored : Option StoredAccessRule} {last : FileStore}
  {current : GoMap FilterKey Nat} {more : List (FilterKey × Nat)}
  {read : Bool}

/-- The rules as they were, and those that were read from the cluster. -/
def rulesBefore (store last : FileStore) (ref : Nat) : Option FileAccessFilterRule :=
  if ref < store.heap.next then store.heap.cells ref
  else last.heap.cells ref

theorem rulesBefore_store (owned : store.Owned) (found : refAt store group key = some ref) :
    rulesBefore store last ref = store.heap.cells ref :=
  if_pos (owned.bound found)

theorem merged_loaded (owned : store.Owned) (loaded : ServiceLoaded store written svc stored last)
    (merged : SharedMerge.Merged mergeAccessRule store.heap.cells
      (memberVisits orders store id) ⟨written, current⟩) :
    SharedMerge.Merged mergeAccessRule (rulesBefore store last)
      (memberVisits orders store id) ⟨last.heap, current⟩ := by
  refine merged.transfer ?_ ?_
  · intro visit member
    obtain ⟨group, _, found⟩ := mem_memberVisits member
    exact ⟨rulesBefore_store owned found, loaded.cells visit.2 (owned.bound found)⟩
  · intro ref free
    unfold rulesBefore
    split
    case isTrue below =>
      refine (loaded.cells ref below).trans ?_
      apply merged.others
      intro key head
      exact free key (mem_of_head? head)
    case isFalse => rfl

/-- The service is visited last, if its rules are known. -/
def ServiceVisits (last : FileStore) (svc : String) (read : Bool)
    (more : List (FilterKey × Nat)) : Prop :=
  ∀ key, refs key more =
    if read then (refAt last svc key).toList else []

theorem ServiceVisits.mem (visits : ServiceVisits last svc read more)
    (member : (key, ref) ∈ more) : refAt last svc key = some ref := by
  rw [← mem_refs, visits key] at member
  split at member
  · exact Option.mem_toList.mp member
  · cases member

section

variable (owned : store.Owned) (loaded : ServiceLoaded store written svc stored last)
include owned loaded

theorem visited_located (visits : ServiceVisits last svc read more)
    (member : (key, ref) ∈ memberVisits orders store id ++ more) :
    ref < store.heap.next ∧ (∃ group, refAt store group key = some ref) ∨
      store.heap.next ≤ ref ∧ refAt last svc key = some ref := by
  rcases mem_append.mp member with early | late
  · obtain ⟨group, _, found⟩ := mem_memberVisits early
    exact Or.inl ⟨owned.bound found, group, found⟩
  · have found := visits.mem late
    rcases loaded.origin owned found with ⟨below, cached, _⟩ | ⟨above, _⟩
    · exact Or.inl ⟨below, svc, cached⟩
    · exact Or.inr ⟨above, found⟩

theorem visits_apart (visits : ServiceVisits last svc read more) :
    SharedMerge.Apart (memberVisits orders store id ++ more) := by
  rintro ⟨key, ref⟩ member ⟨other, same⟩ memberOther equal
  have isSame : ref = same := equal
  subst isSame
  rcases visited_located owned loaded visits member with
    ⟨below, group, found⟩ | ⟨above, found⟩
  · rcases visited_located owned loaded visits memberOther with
      ⟨_, group', found'⟩ | ⟨above', _⟩
    · exact (owned.apart group key group' other ref found found').2
    · exact absurd below (Nat.not_lt.mpr above')
  · rcases visited_located owned loaded visits memberOther with
      ⟨below', _⟩ | ⟨_, found'⟩
    · exact absurd below' (Nat.not_lt.mpr above)
    · exact loaded.apart key other ref above found found'

theorem loaded_live (found : refAt last group key = some ref) :
    ∃ rule, rulesBefore store last ref = some rule := by
  rcases loaded.origin owned found with
    ⟨_, cached, _⟩ | ⟨above, _, _, rule, _, _, cell⟩
  · obtain ⟨rule, cell, _⟩ := owned.rule cached
    exact ⟨rule, (rulesBefore_store owned cached).trans cell⟩
  · exact ⟨rule, (if_neg (Nat.not_lt.mpr above)).trans cell⟩

theorem merged_all
    (merged : SharedMerge.Merged mergeAccessRule store.heap.cells
      (memberVisits orders store id) ⟨written, current⟩)
    (visits : ServiceVisits last svc read more) :
    SharedMerge.Merged mergeAccessRule (rulesBefore store last)
      (memberVisits orders store id ++ more)
      (more.foldl (visit mergeAccessRule) ⟨last.heap, current⟩) := by
  apply (merged_loaded owned loaded merged).run mergeAccessRule_grows more
    (visits_apart owned loaded visits)
  rintro ⟨key, ref⟩ member
  exact loaded_live owned loaded (visits.mem member)

end

theorem refs_all (visits : ServiceVisits last svc read more) :
    refs key (memberVisits orders store id ++ more) =
      (memberGroups orders store id).filterMap (refAt store · key) ++
        if read then (refAt last svc key).toList else [] := by
  rw [refs_append, refs_memberVisits, visits key]

theorem loadedRule_eq (owned : store.Owned)
    (loaded : ServiceLoaded store written svc (reload cluster store svc) last) :
    (refAt last svc key).bind (rulesBefore store last) = loadedRule cluster store svc key := by
  have cached : (refAt store svc key).bind (rulesBefore store last) = ruleAt store svc key := by
    unfold ruleAt
    cases found : refAt store svc key with
    | none => rfl
    | some ref => exact rulesBefore_store owned found
  unfold loadedRule
  cases known : reload cluster store svc with
  | none => rw [loaded.own known, cached]
  | some text =>
    cases isRead : text.rules.lookup key with
    | none =>
      simp only [isRead]
      rw [loaded.kept text known key isRead]
      split
      · rfl
      · exact cached
    | some rule =>
      simp only [isRead]
      obtain ⟨ref, found, above, cell⟩ := loaded.read text known key rule isRead
      rw [found]
      exact (if_neg (Nat.not_lt.mpr above)).trans cell

theorem rules_all (owned : store.Owned)
    (loaded : ServiceLoaded store written svc (reload cluster store svc) last)
    (visits : ServiceVisits last svc (serviceRead cluster store svc) more) :
    (refs key (memberVisits orders store id ++ more)).filterMap (rulesBefore store last) =
      holderRules cluster orders store id svc key := by
  rw [refs_all visits, filterMap_append, filterMap_filterMap]
  congr 1
  · apply filterMap_congr
    intro group _
    unfold ruleAt
    cases found : refAt store group key with
    | none => rfl
    | some ref => exact rulesBefore_store owned found
  · split
    · rw [← loadedRule_eq owned loaded]
      cases refAt last svc key with
      | none => rfl
      | some ref =>
        cases found : rulesBefore store last ref with
        | none | some rule => simp [found]
    · rfl

theorem head_memberRefs :
    ((memberGroups orders store id).filterMap (refAt store · key)).head? =
      (firstHolder orders store id key).bind (refAt store · key) := by
  unfold firstHolder
  induction memberGroups orders store id with
  | nil => rfl
  | cons first rest induction =>
    rw [filterMap_cons, find?_cons]
    cases found : refAt store first key with
    | none => exact induction
    | some ref =>
      exact found.symm

theorem tail_filterMap {α β : Type} {f : α → Option β} {items : List α}
    (all : ∀ item ∈ items, ∃ value, f item = some value) :
    items.tail.filterMap f = (items.filterMap f).tail := by
  cases items with
  | nil => rfl
  | cons first rest =>
    obtain ⟨value, isValue⟩ := all first mem_cons_self
    rw [filterMap_cons, isValue]
    rfl

theorem refs_live (owned : store.Owned) (loaded : ServiceLoaded store written svc stored last)
    (visits : ServiceVisits last svc read more)
    (member : ref ∈ refs key (memberVisits orders store id ++ more)) :
    ∃ rule, rulesBefore store last ref = some rule := by
  rcases visited_located owned loaded visits
      (mem_refs.mp member) with ⟨_, group, found⟩ | ⟨_, found⟩
  · obtain ⟨rule, cell, _⟩ := owned.rule found
    exact ⟨rule, (rulesBefore_store owned found).trans cell⟩
  · exact loaded_live owned loaded found

theorem head_all (visits : ServiceVisits last svc read more)
    (head : (refs key (memberVisits orders store id ++ more)).head? = some ref) :
    (∃ first, firstHolder orders store id key = some first ∧ refAt store first key = some ref) ∨
      (refs key (memberVisits orders store id ++ more)).tail = [] := by
  have firsts : ((memberGroups orders store id).filterMap
      (refAt store · key)).head? = _ := head_memberRefs
  rw [refs_all visits] at head ⊢
  cases early : (memberGroups orders store id).filterMap (refAt store · key) with
  | nil =>
    right
    split
    · cases refAt last svc key with
      | none | some own => rfl
    · rfl
  | cons one rest =>
    left
    rw [early] at head firsts
    cases head
    obtain ⟨first, isFirst, found⟩ := Option.bind_eq_some_iff.mp firsts.symm
    exact ⟨first, isFirst, found⟩

variable {final : AccessMerging}

theorem final_read (owned : store.Owned) (visits : ServiceVisits last svc read more)
    (merged : SharedMerge.Merged mergeAccessRule (rulesBefore store last)
      (memberVisits orders store id ++ more) final)
    (above : store.heap.next ≤ ref) :
    final.heap.cells ref = last.heap.cells ref := by
  refine (merged.untouched ?_).trans (if_neg (Nat.not_lt.mpr above))
  intro other head
  rcases head_all visits head with ⟨first, _, found⟩ | single
  · exact absurd (owned.bound found) (Nat.not_lt.mpr above)
  · exact single

section

variable (owned : store.Owned)
  (loaded : ServiceLoaded store written svc (reload cluster store svc) last)
  (visits : ServiceVisits last svc (serviceRead cluster store svc) more)
  (merged : SharedMerge.Merged mergeAccessRule (rulesBefore store last)
    (memberVisits orders store id ++ more) final)
include owned loaded visits merged

/-- A rule that was in the cache: it is written if its group is the first one
that has the filter. -/
theorem final_cached (found : refAt store group key = some ref) :
    final.heap.cells ref = (ruleAt store group key).map fun rule =>
      if firstHolder orders store id key = some group then
        (holderRules cluster orders store id svc key).tail.foldl mergeAccessRule rule
      else rule := by
  obtain ⟨rule, cell, isRule⟩ := owned.rule found
  have before : rulesBefore store last ref = some rule := (rulesBefore_store owned found).trans cell
  rw [isRule, Option.map_some]
  split
  case isTrue first =>
    have head : (refs key (memberVisits orders store id ++ more)).head? = some ref := by
      have early := @head_memberRefs orders store id key
      rw [first, Option.bind_some, found] at early
      rw [refs_all visits, head?_append, early]
      rfl
    rw [merged.first key ref head, before,
      tail_filterMap fun _ member => refs_live owned loaded visits member,
      rules_all owned loaded visits]
    rfl
  case isFalse notFirst =>
    refine (merged.untouched ?_).trans before
    intro other head
    have same : key = other := by
      rcases visited_located owned loaded visits (mem_of_head? head) with
        ⟨_, holder, isHolder⟩ | ⟨above, _⟩
      · exact (owned.apart group key holder other ref found isHolder).2
      · exact absurd (owned.bound found) (Nat.not_lt.mpr above)
    rw [← same] at head ⊢
    rcases head_all visits head with ⟨first, isFirst, firstFound⟩ | single
    · rw [(owned.apart first key group key ref firstFound found).1] at isFirst
      exact absurd isFirst notFirst
    · exact single

theorem final_result :
    (final.current.lookup key).bind final.heap.cells =
      (holderRules cluster orders store id svc key).head?.map fun rule =>
        (holderRules cluster orders store id svc key).tail.foldl mergeAccessRule rule := by
  rw [merged.current key, ← rules_all owned loaded visits]
  cases known : refs key (memberVisits orders store id ++ more) with
  | nil => rfl
  | cons first rest =>
    have head : (refs key (memberVisits orders store id ++ more)).head? = some first := by
      rw [known]
      rfl
    obtain ⟨rule, before⟩ := refs_live owned loaded visits (mem_of_mem_head? head)
    have cell := merged.first key first head
    rw [known, before] at cell
    simp only [head?_cons, Option.bind_some, filterMap_cons,
      before, Option.map_some, tail_cons]
    exact cell

end

end Merge

end NeuVector.Agent
