import NeuVector.Agent.FileProfileFrame

/-!
# Runs of computations

Computations that leave the cached profiles as they are may come in any number
and order: each gives the profile that it would give at the start.
-/

namespace NeuVector.Agent

open Controller Library List

variable {cluster : FileCluster} {orders : FileOrders} {store : FileStore}
  {id svc group : String} {key : FilterKey}

/-- The cached profiles are the same, whatever the references are. -/
structure SameProfiles (before after : FileStore) : Prop where
  keys : after.groups.keys = before.groups.keys
  data : ∀ group, (after.groups.lookup group).map profileData =
    (before.groups.lookup group).map profileData
  rules : ∀ group key, ruleAt after group key = ruleAt before group key

theorem SameProfiles.refl (store : FileStore) : SameProfiles store store where
  keys := rfl
  data := fun _ => rfl
  rules := fun _ _ => rfl

/-- Reading the profile of the service brings nothing new, and every rule that
is kept by reference has what the later ones would add, unless it is replaced
by the one that is read. -/
structure Harmless (cluster : FileCluster) (orders : FileOrders)
    (store : FileStore) (id svc : String) : Prop where
  file : ∀ data file, store.groups.lookup svc = some data →
    serviceFile cluster store svc = some file → file = data.file
  name : ∀ text, reload cluster store svc = some text → text.group = ""
  read : ∀ text key rule, reload cluster store svc = some text →
    text.rules.lookup key = some rule → ruleAt store svc key = some rule
  emptied : ∀ text key, reload cluster store svc = some text →
    text.rules.lookup key = none → text.isNull key.1 = true →
    ruleAt store svc key = none
  merge : ∀ key first rule, firstHolder orders store id key = some first →
    ruleAt store first key = some rule →
    (first = svc → ∀ text, reload cluster store svc = some text → text.rules.lookup key = none) →
    ∀ later ∈ (holderRules cluster orders store id svc key).tail, Settled rule later

section Computation

variable {out : FileStore ×
    Option (FileMonitorProfile × Option (GoMap FilterKey Nat))}
  {last : FileStore} {more : List (FilterKey × Nat)} {final : AccessMerging}
  {text : StoredAccessRule}

theorem reload_cached (known : reload cluster store svc = some text) :
    ∃ data, store.groups.lookup svc = some data ∧ data.access.group = "" := by
  unfold reload at known
  cases cached : store.groups.lookup svc with
  | none =>
    rw [cached] at known
    cases known
  | some data =>
    rw [cached] at known
    simp only at known
    split at known
    case isTrue both => exact ⟨data, rfl, both.2⟩
    case isFalse => cases known

variable (computed : Computed cluster orders store id svc out last more final)
include computed

theorem Computed.rule_after (group : String) (key : FilterKey) :
    ruleAt out.1 group key = (refAt last group key).bind final.heap.cells := by
  rw [computed.after]
  rfl

theorem Computed.rule_kept (owned : store.Owned)
    (same : refAt last group key = refAt store group key) :
    ruleAt out.1 group key = (ruleAt store group key).map fun rule =>
        if firstHolder orders store id key = some group then
          (holderRules cluster orders store id svc key).tail.foldl mergeAccessRule rule
        else rule := by
  rw [computed.rule_after, same]
  cases found : refAt store group key with
  | none =>
    unfold ruleAt
    rw [found]
    rfl
  | some ref => exact final_cached owned computed.loaded computed.visits computed.merged found

theorem Computed.refs_kept
    (kept : group = svc → ∀ text, reload cluster store svc = some text →
      text.rules.lookup key = none ∧ text.isNull key.1 = false) :
    refAt last group key = refAt store group key := by
  by_cases same : group = svc
  · subst same
    cases known : reload cluster store group with
    | none => exact computed.loaded.own known key
    | some text =>
      obtain ⟨absent, filled⟩ := kept rfl text known
      rw [computed.loaded.kept text known key absent, filled]
      rfl
  · exact computed.loaded.others group key same

theorem Computed.rule_read (owned : store.Owned) (known : reload cluster store svc = some text)
    {rule : FileAccessFilterRule} (isRead : text.rules.lookup key = some rule) :
    ruleAt out.1 svc key = some rule := by
  obtain ⟨ref, found, above, cell⟩ := computed.loaded.read text known key rule isRead
  rw [computed.rule_after, found]
  exact (final_read owned computed.visits computed.merged above).trans cell

theorem Computed.rule_emptied (known : reload cluster store svc = some text)
    (absent : text.rules.lookup key = none)
    (emptied : text.isNull key.1 = true) : ruleAt out.1 svc key = none := by
  rw [computed.rule_after, computed.loaded.kept text known key absent, emptied]
  rfl

theorem Computed.owned (owned : store.Owned) : out.1.Owned := by
  have refs : ∀ group key, refAt out.1 group key = refAt last group key := by
    intro group key
    rw [computed.after]
    rfl
  have heap : out.1.heap = final.heap := by rw [computed.after]
  constructor
  · intro group key ref found
    rw [refs] at found
    rw [heap]
    rcases computed.loaded.origin owned found with
      ⟨_, cached, _⟩ | ⟨above, _, _, rule, _, _, cell⟩
    · obtain ⟨rule, _, isRule⟩ := owned.rule cached
      have after := final_cached owned computed.loaded computed.visits computed.merged cached
      rw [isRule] at after
      exact ⟨_, after⟩
    · exact ⟨rule, (final_read owned computed.visits computed.merged above).trans cell⟩
  · intro group key other otherKey ref found foundOther
    rw [refs] at found foundOther
    rcases computed.loaded.origin owned found with
      ⟨below, cached, _⟩ | ⟨above, isSvc, _⟩
    · rcases computed.loaded.origin owned foundOther with
        ⟨_, cached', _⟩ | ⟨above', _⟩
      · exact owned.apart group key other otherKey ref cached cached'
      · exact absurd below (Nat.not_lt.mpr above')
    · rcases computed.loaded.origin owned foundOther with
        ⟨below', _⟩ | ⟨_, isSvc', _⟩
      · exact absurd below' (Nat.not_lt.mpr above)
      · rw [isSvc] at found
        rw [isSvc'] at foundOther
        exact ⟨isSvc.trans isSvc'.symm,
          computed.loaded.apart key otherKey ref above found foundOther⟩

theorem Computed.data_after (group : String) :
    (out.1.groups.lookup group).map profileData = (store.groups.lookup group).map fun data =>
        if group = svc then
          (data.members, (serviceFile cluster store svc).getD data.file,
            ((reload cluster store svc).map StoredAccessRule.group).getD data.access.group)
        else profileData data := by
  rw [computed.after]
  exact computed.data group

theorem Computed.harmless (owned : store.Owned) (same : SameProfiles store out.1) :
    Harmless cluster orders store id svc := by
  have atService : ∀ data, store.groups.lookup svc = some data →
      (serviceFile cluster store svc).getD data.file = data.file ∧
        ((reload cluster store svc).map StoredAccessRule.group).getD
          data.access.group = data.access.group := by
    intro data cached
    have both := (computed.data_after svc).symm.trans (same.data svc)
    rw [cached, Option.map_some, if_pos rfl] at both
    have parts := Option.some.inj both
    exact ⟨congrArg (fun part => part.2.1) parts, congrArg (fun part => part.2.2) parts⟩
  constructor
  · intro data file cached isFile
    have stays := (atService data cached).1
    rw [isFile] at stays
    exact stays
  · intro text known
    obtain ⟨data, cached, unnamed⟩ := reload_cached known
    have stays := (atService data cached).2
    rw [known, unnamed] at stays
    exact stays
  · intro text key rule known isRead
    rw [← same.rules]
    exact computed.rule_read owned known isRead
  · intro text key known absent emptied
    rw [← same.rules]
    exact computed.rule_emptied known absent emptied
  · intro key first rule isFirst isRule notRead
    have kept : first = svc → ∀ text, reload cluster store svc = some text →
        text.rules.lookup key = none ∧ text.isNull key.1 = false := by
      intro isSvc text known
      refine ⟨notRead isSvc text known, ?_⟩
      apply Bool.eq_false_iff.mpr
      intro emptied
      have gone := computed.rule_emptied known (notRead isSvc text known) emptied
      rw [same.rules, ← isSvc, isRule] at gone
      cases gone
    have after := computed.rule_kept owned (computed.refs_kept kept)
    rw [same.rules, isRule, Option.map_some, if_pos isFirst] at after
    exact (foldl_eq_self_iff _).mp (Option.some.inj after).symm

theorem Computed.unchanged (owned : store.Owned) (harmless : Harmless cluster orders store id svc) :
    SameProfiles store out.1 := by
  constructor
  · rw [computed.after]
    exact computed.keys
  · intro group
    rw [computed.data_after]
    apply Option.map_congr
    intro data cached
    split
    case isFalse => rfl
    case isTrue isSvc =>
      subst isSvc
      have file : (serviceFile cluster store group).getD data.file = data.file := by
        cases known : serviceFile cluster store group with
        | none => rfl
        | some file => exact harmless.file data file cached known
      have name : ((reload cluster store group).map StoredAccessRule.group).getD data.access.group =
            data.access.group := by
        cases known : reload cluster store group with
        | none => rfl
        | some text =>
          obtain ⟨own, isOwn, unnamed⟩ := reload_cached known
          rw [isOwn] at cached
          cases cached
          rw [unnamed]
          exact harmless.name text known
      rw [file, name]
      rfl
  · intro group key
    have stays : (group = svc → ∀ text, reload cluster store svc = some text →
        text.rules.lookup key = none ∧ text.isNull key.1 = false) →
        ruleAt out.1 group key = ruleAt store group key := by
      intro kept
      rw [computed.rule_kept owned (computed.refs_kept kept)]
      cases isRule : ruleAt store group key with
      | none => rfl
      | some rule =>
        apply congrArg some
        split
        case isFalse => rfl
        case isTrue isFirst =>
          apply (foldl_eq_self_iff _).mpr
          exact harmless.merge key group rule isFirst isRule fun isSvc text known =>
            (kept isSvc text known).1
    by_cases isSvc : group = svc
    · subst isSvc
      cases known : reload cluster store group with
      | none => exact stays (by simp [known])
      | some text =>
        cases found : text.rules.lookup key with
        | some rule =>
          rw [computed.rule_read owned known found, harmless.read text key rule known found]
        | none =>
          cases isNull : text.isNull key.1 with
          | true =>
            rw [computed.rule_emptied known found isNull,
              harmless.emptied text key known found isNull]
          | false => exact stays (by simp [known, found, isNull])
    · exact stays fun same => absurd same isSvc

end Computation

section Views

variable {other : FileStore}

theorem serviceFile_view :
    serviceFile cluster store svc = ((store.groups.lookup svc).map profileData).bind fun data =>
        if data.2.1.group = "" then cluster.file svc data.2.1
        else some data.2.1 := by
  unfold serviceFile getFileMonitorProfile
  cases store.groups.lookup svc with
  | none => rfl
  | some data =>
    simp only [Option.map_some, Option.bind_some, profileData]
    split
    · cases cluster.file svc data.file with
      | none | some file => rfl
    · rfl

theorem reload_view :
    reload cluster store svc = ((store.groups.lookup svc).map profileData).bind fun data =>
        if (serviceFile cluster store svc).isSome ∧ data.2.2 = "" then cluster.access svc
        else none := by
  unfold reload
  cases store.groups.lookup svc with
  | none | some data => rfl

theorem serviceRead_view :
    serviceRead cluster store svc = (((store.groups.lookup svc).map profileData).map fun data =>
        (serviceFile cluster store svc).isSome &&
          (data.2.2 ≠ "" || (cluster.access svc).isSome)).getD false := by
  unfold serviceRead
  cases store.groups.lookup svc with
  | none | some data => rfl

theorem isMember_view :
    isMember store id group = (((store.groups.lookup group).map profileData).map fun data =>
        decide (id ∈ data.1)).getD false := by
  unfold isMember
  cases store.groups.lookup group with
  | none | some data => rfl

def groupFilters (store : FileStore) (table : FileMonitorProfile →
    List FileMonitorFilter) (group : String) : List FileMonitorFilter :=
  (((store.groups.lookup group).map profileData).map fun data => table data.2.1).getD []

theorem mergeFileGroups_filters (groups : List String) (loop : FileLoop) :
    (groups.foldl (mergeFileGroup orders store id) loop).filters =
        loop.filters ++ (groups.filter (isMember store id)).flatMap
          (groupFilters store FileMonitorProfile.filters) ∧
      (groups.foldl (mergeFileGroup orders store id) loop).filtersCRD =
        loop.filtersCRD ++ (groups.filter (isMember store id)).flatMap
          (groupFilters store FileMonitorProfile.filtersCRD) := by
  induction groups generalizing loop with
  | nil => simp
  | cons first rest induction =>
    rw [foldl_cons, (induction _).1, (induction _).2, mergeFileGroup_eq, filter_cons]
    split
    · simp [groupFilters, profileData, Function.comp_def]
    · exact ⟨rfl, rfl⟩

namespace SameProfiles

variable (same : SameProfiles store other)
include same

theorem serviceFile_eq : serviceFile cluster other svc = serviceFile cluster store svc := by
  rw [serviceFile_view, same.data, ← serviceFile_view]

theorem reload_eq : reload cluster other svc = reload cluster store svc := by
  rw [reload_view, same.data, same.serviceFile_eq, ← reload_view]

theorem serviceRead_eq : serviceRead cluster other svc = serviceRead cluster store svc := by
  rw [serviceRead_view, same.data, same.serviceFile_eq, ← serviceRead_view]

theorem memberGroups_eq : memberGroups orders other id = memberGroups orders store id := by
  unfold memberGroups
  rw [same.keys]
  apply filter_congr
  intro group _
  rw [isMember_view, same.data, ← isMember_view]

theorem loadedRule_same : loadedRule cluster other svc key = loadedRule cluster store svc key := by
  unfold loadedRule
  rw [same.reload_eq, same.rules]

theorem holderRules_eq :
    holderRules cluster orders other id svc key = holderRules cluster orders store id svc key := by
  unfold holderRules
  rw [same.memberGroups_eq, same.serviceRead_eq, same.loadedRule_same]
  congr 1
  apply filterMap_congr
  intro group _
  exact same.rules group key

theorem firstHolder_eq (owned : store.Owned) (ownedOther : other.Owned) :
    firstHolder orders other id key = firstHolder orders store id key := by
  have known : ∀ {own : FileStore}, own.Owned → ∀ group,
      (refAt own group key).isSome = (ruleAt own group key).isSome := by
    intro own isOwned group
    cases found : refAt own group key with
    | none =>
      unfold ruleAt
      rw [found]
      rfl
    | some ref =>
      obtain ⟨rule, _, isRule⟩ := isOwned.rule found
      rw [isRule]
      rfl
  unfold firstHolder
  rw [same.memberGroups_eq]
  congr 1
  funext group
  rw [known ownedOther, known owned, same.rules]

theorem filters_eq :
    (mergeFileGroups orders other id).filters = (mergeFileGroups orders store id).filters ∧
      (mergeFileGroups orders other id).filtersCRD =
        (mergeFileGroups orders store id).filtersCRD := by
  have tables : ∀ table group, groupFilters other table group = groupFilters store table group := by
    intro table group
    unfold groupFilters
    rw [same.data]
  have groups : memberGroups orders other id = memberGroups orders store id := same.memberGroups_eq
  unfold memberGroups at groups
  unfold mergeFileGroups
  simp only [mergeFileGroups_filters, groups, funext (tables _), and_self]

theorem harmless (owned : store.Owned) (ownedOther : other.Owned)
    (before : Harmless cluster orders store id svc) :
    Harmless cluster orders other id svc := by
  constructor
  · intro data file cached isFile
    rw [same.serviceFile_eq] at isFile
    have view := same.data svc
    rw [cached] at view
    obtain ⟨own, isOwn, equal⟩ := Option.map_eq_some_iff.mp view.symm
    rw [before.file own file isOwn isFile]
    exact congrArg (fun part => part.2.1) equal
  · intro text known
    rw [same.reload_eq] at known
    exact before.name text known
  · intro text key rule known isRead
    rw [same.reload_eq] at known
    rw [same.rules]
    exact before.read text key rule known isRead
  · intro text key known absent emptied
    rw [same.reload_eq] at known
    rw [same.rules]
    exact before.emptied text key known absent emptied
  · intro key first rule isFirst isRule notRead
    rw [same.firstHolder_eq owned ownedOther] at isFirst
    rw [same.rules] at isRule
    rw [same.reload_eq] at notRead
    rw [same.holderRules_eq]
    exact before.merge key first rule isFirst isRule notRead

theorem trans {third : FileStore} (next : SameProfiles other third) : SameProfiles store third where
  keys := next.keys.trans same.keys
  data := fun group => (next.data group).trans (same.data group)
  rules := fun group key => (next.rules group key).trans (same.rules group key)

end SameProfiles

end Views

structure Computation where
  cluster : FileCluster
  orders : FileOrders
  id : String
  svc : String

variable (computation : Computation)

def Computation.run (store : FileStore) : FileStore :=
  (calculateFileGroupProfile computation.cluster computation.orders store
    computation.id computation.svc).1

/-- The joined profiles as they are read when the computation is done. -/
def Computation.joined (store : FileStore) :
    Option (FileMonitorProfile × Option (FilterKey → Option FileAccessFilterRule)) :=
  let out := calculateFileGroupProfile computation.cluster computation.orders
    store computation.id computation.svc
  out.2.map fun result =>
    (result.1, result.2.map fun access key => (access.lookup key).bind out.1.heap.cells)

def Computation.Harmless (store : FileStore) : Prop :=
  NeuVector.Agent.Harmless computation.cluster computation.orders store
    computation.id computation.svc

def runComputations (store : FileStore) (run : List Computation) : FileStore :=
  run.foldl (fun store computation => computation.run store) store

theorem Computation.run_owned (owned : store.Owned) : (computation.run store).Owned := by
  obtain ⟨last, more, final, computed⟩ := calculate_computed
    computation.cluster computation.orders computation.id computation.svc
    owned
  exact computed.owned owned

theorem Computation.unchanged_iff (owned : store.Owned) :
    SameProfiles store (computation.run store) ↔ computation.Harmless store := by
  obtain ⟨last, more, final, computed⟩ := calculate_computed
    computation.cluster computation.orders computation.id computation.svc owned
  exact ⟨computed.harmless owned, computed.unchanged owned⟩

theorem Computation.joined_eq (owned : store.Owned) :
    computation.joined store =
      (serviceFile computation.cluster store computation.svc).map fun file =>
        (joinedFile computation.orders
            (mergeFileGroups computation.orders store computation.id) file,
          if serviceRead computation.cluster store computation.svc then
            some fun key =>
              let holders := holderRules computation.cluster computation.orders store
                computation.id computation.svc key
              holders.head?.map fun rule => holders.tail.foldl mergeAccessRule rule
          else none) := by
  obtain ⟨last, more, final, computed⟩ := calculate_computed
    computation.cluster computation.orders computation.id computation.svc owned
  have heap := congrArg FileStore.heap computed.after
  unfold Computation.joined
  simp only [computed.result, heap, Option.map_map]
  apply Option.map_congr
  intro file _
  simp only [Function.comp_apply]
  split
  · rw [Option.map_some]
    congr 2
    funext key
    exact final_result owned computed.loaded computed.visits computed.merged
  · rfl

theorem Computation.joined_same {other : FileStore} (owned : store.Owned)
    (ownedOther : other.Owned) (same : SameProfiles store other) :
    computation.joined other = computation.joined store := by
  rw [computation.joined_eq owned, computation.joined_eq ownedOther,
    same.serviceFile_eq, same.serviceRead_eq]
  have filters := @SameProfiles.filters_eq computation.orders store computation.id other same
  simp only [joinedFile, filters.1, filters.2, same.holderRules_eq]

theorem runComputations_unchanged (run : List Computation) (owned : store.Owned)
    (harmless : ∀ computation ∈ run, computation.Harmless store) :
    SameProfiles store (runComputations store run) ∧ (runComputations store run).Owned := by
  induction run generalizing store with
  | nil => exact ⟨SameProfiles.refl store, owned⟩
  | cons first rest induction =>
    have same := (first.unchanged_iff owned).mpr (harmless first mem_cons_self)
    have ownedNext := first.run_owned owned
    obtain ⟨sameRest, ownedRest⟩ := induction ownedNext fun later member =>
      same.harmless owned ownedNext (harmless later (mem_cons_of_mem _ member))
    exact ⟨same.trans sameRest, ownedRest⟩

/-- A computation leaves the cached profiles unchanged exactly if it is
harmless, and after computations that are harmless in the cache at the start,
every computation gives what it gives there. -/
theorem calculateFileGroupProfile_unchanged_iff (store : FileStore) (owned : store.Owned) :
    (∀ (cluster : FileCluster) (orders : FileOrders) (id svc : String), SameProfiles store
          (calculateFileGroupProfile cluster orders store id svc).1 ↔
        Harmless cluster orders store id svc) ∧
    ∀ run : List Computation, (∀ computation ∈ run, computation.Harmless store) →
      ∀ computation : Computation, computation.joined (runComputations store run) =
          computation.joined store := by
  constructor
  · intro cluster orders id svc
    exact Computation.unchanged_iff ⟨cluster, orders, id, svc⟩ owned
  · intro run harmless computation
    obtain ⟨same, ownedAfter⟩ := runComputations_unchanged run owned harmless
    exact computation.joined_same owned ownedAfter same

def locations (store : FileStore) : List ((String × FilterKey) × Nat) :=
  store.groups.entries.flatMap fun group =>
    group.2.access.rules.entries.map fun item => ((group.1, item.1), item.2)

theorem refAt_locations {ref : Nat} (found : refAt store group key = some ref) :
    ((group, key), ref) ∈ locations store := by
  obtain ⟨data, cached, isRef⟩ := Option.bind_eq_some_iff.mp found
  apply mem_flatMap.mpr
  refine ⟨⟨group, data⟩, AList.mem_lookup_iff.mp cached, ?_⟩
  exact mem_map.mpr ⟨⟨key, ref⟩, AList.mem_lookup_iff.mp isRef, rfl⟩

theorem FileStore.Owned.of_locations (nodup : ((locations store).map Prod.snd).Nodup)
    (live : ∀ location ∈ locations store, (store.heap.cells location.2).isSome) : store.Owned where
  live := by
    intro group key ref found
    exact Option.isSome_iff_exists.mp (live _ (refAt_locations found))
  apart := by
    intro group key other otherKey ref found foundOther
    have same := inj_on_of_nodup_map nodup (refAt_locations found)
      (refAt_locations foundOther) rfl
    have parts := congrArg Prod.fst same
    exact ⟨congrArg Prod.fst parts, congrArg Prod.snd parts⟩

theorem Harmless.of_locations {data : FileGroupData} (cached : store.groups.lookup svc = some data)
    (file : data.file.group ≠ "") (access : data.access.group ≠ "")
    (settled : ∀ location ∈ locations store,
      firstHolder orders store id location.1.2 = some location.1.1 →
      ∀ rule ∈ (ruleAt store location.1.1 location.1.2).toList,
      ∀ later ∈ (holderRules cluster orders store id svc
        location.1.2).tail, mergeAccessRule rule later = rule) :
    Harmless cluster orders store id svc := by
  have unread : reload cluster store svc = none := by
    unfold reload
    rw [cached]
    exact if_neg fun both => access both.2
  constructor
  · intro own known isOwn isFile
    rw [cached] at isOwn
    cases isOwn
    rw [serviceFile_view, cached, Option.map_some, Option.bind_some,
      if_neg (show ¬ (profileData data).2.1.group = "" from file)] at isFile
    exact (Option.some.inj isFile).symm
  · intro text known
    rw [unread] at known
    cases known
  · intro text key rule known
    rw [unread] at known
    cases known
  · intro text key known
    rw [unread] at known
    cases known
  · intro key first rule isFirst isRule _ later member
    obtain ⟨ref, found, _⟩ := Option.bind_eq_some_iff.mp isRule
    have same := settled _ (refAt_locations found) isFirst rule
      (Option.mem_toList.mpr isRule) later member
    exact (foldl_eq_self_iff [later]).mp same later mem_cons_self

def FileStore.withGroup (store : FileStore) (name : String)
    (members : Finset String) (rule : FileAccessFilterRule) : FileStore :=
  { heap := store.heap.alloc rule
    groups := store.groups.insert name
      { members := members
        file := ⟨name, "Protect", [], []⟩
        access := ⟨name, (∅ : GoMap FilterKey Nat).insert
          (.filters, "/etc/shop") store.heap.next⟩ } }

def serviceStore : FileStore :=
  { heap := Heap.empty
    groups := (∅ : GoMap String FileGroupData).insert "nv.web"
      { members := {"web-0", "web-1"}
        file := ⟨"nv.web", "Protect", [], []⟩
        access := ⟨"nv.web", ∅⟩ } }

def storedFileOrders : FileOrders :=
  { groups := ⟨fun keys => keys, List.Perm.refl⟩
    rules := fun _ => ⟨fun keys => keys, List.Perm.refl⟩
    serviceRules := ⟨fun keys => keys, List.Perm.refl⟩
    monitors := fun _ => ⟨fun keys => keys, List.Perm.refl⟩ }

def computeWeb (container : String) : Computation :=
  { cluster := ⟨fun _ _ => none, fun _ => none⟩
    orders := storedFileOrders
    id := container
    svc := "nv.web" }

/-- The later group adds nothing to the rule of the first one. -/
def settledStore : FileStore :=
  (serviceStore.withGroup "shop" {"web-0"}
    ⟨["cat"], .monitor, false⟩).withGroup "all" {"web-0", "web-1"} ⟨["cat", "vi"], .monitor, true⟩

theorem calculateFileGroupProfile_unchanged_settled :
    settledStore.Owned ∧ (computeWeb "web-0").Harmless settledStore ∧ (computeWeb "web-1").joined
          (runComputations settledStore [computeWeb "web-0"]) =
        (computeWeb "web-1").joined settledStore := by
  have owned : settledStore.Owned := FileStore.Owned.of_locations (by decide) (by decide)
  have harmless : (computeWeb "web-0").Harmless settledStore := by
    apply Harmless.of_locations rfl
    · decide
    · decide
    · decide
  refine ⟨owned, harmless, ?_⟩
  apply (calculateFileGroupProfile_unchanged_iff settledStore owned).2
  intro computation member
  rw [mem_singleton.mp member]
  exact harmless

def leakingStore : FileStore :=
  (serviceStore.withGroup "shop" {"web-0"}
    ⟨["vi"], .block, false⟩).withGroup "all" {"web-0", "web-1"} ⟨["cat"], .monitor, false⟩

theorem group_rule_leaks_through_container :
    ruleAt leakingStore "all" (.filters, "/etc/shop") = some ⟨["cat"], .monitor, false⟩ ∧
      ruleAt ((computeWeb "web-0").run leakingStore) "all"
          (.filters, "/etc/shop") = some ⟨["cat", "vi"], .block, true⟩ ∧
      ((computeWeb "web-1").joined leakingStore).map (fun result =>
          result.2.map fun access => access (.filters, "/etc/shop")) =
        some (some (some ⟨["cat"], .monitor, false⟩)) ∧
      ((computeWeb "web-1").joined ((computeWeb "web-0").run leakingStore)).map (fun result =>
            result.2.map fun access => access (.filters, "/etc/shop")) =
        some (some (some ⟨["cat", "vi"], .block, true⟩)) := by decide

end NeuVector.Agent
