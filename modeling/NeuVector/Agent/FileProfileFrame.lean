import NeuVector.Agent.FileProfileEffect

/-!
# When computing a file profile leaves the cache as it is

A computation leaves the cached profiles unchanged exactly if reading the
profile of the service brings nothing new and each rule that is kept by
reference already has what the later rules of its filter would add.
-/

namespace NeuVector.Agent

open Controller Library SharedMerge

variable {cluster : FileCluster} {orders : FileOrders} {store : FileStore}
  {id svc group : String} {key : FilterKey}

/-- What is cached of a group besides its rules. -/
def profileData (data : FileGroupData) : Finset String × FileMonitorProfile × String :=
  (data.members, data.file, data.access.group)

/-- The parts of a computation: the cache once the service was read, the
visits of its rules, and the joined rules. -/
structure Computed (cluster : FileCluster) (orders : FileOrders)
    (store : FileStore) (id svc : String)
    (out : FileStore × Option (FileMonitorProfile × Option (GoMap FilterKey Nat)))
    (last : FileStore) (more : List (FilterKey × Nat))
    (final : AccessMerging) : Prop where
  loaded : ServiceLoaded store (mergeFileGroups orders store id).access.heap
    svc (reload cluster store svc) last
  visits : ServiceVisits last svc (serviceRead cluster store svc) more
  merged : SharedMerge.Merged mergeAccessRule (rulesBefore store last)
    (memberVisits orders store id ++ more) final
  after : out.1 = { last with heap := final.heap }
  keys : last.groups.keys = store.groups.keys
  data : ∀ group, (last.groups.lookup group).map profileData =
    (store.groups.lookup group).map fun data =>
      if group = svc then
        (data.members, (serviceFile cluster store svc).getD data.file,
          ((reload cluster store svc).map StoredAccessRule.group).getD data.access.group)
      else profileData data
  result : out.2 = (serviceFile cluster store svc).map fun file =>
    (joinedFile orders (mergeFileGroups orders store id) file,
      if serviceRead cluster store svc then some final.current else none)

theorem serviceFile_heap (heap : Heap FileAccessFilterRule) :
    serviceFile cluster { store with heap := heap } svc = serviceFile cluster store svc := by
  unfold serviceFile getFileMonitorProfile
  cases store.groups.lookup svc with
  | none => rfl
  | some data =>
    simp only
    split
    · cases cluster.file svc data.file with
      | none | some file => rfl
    · rfl

structure MonitorRead (cluster : FileCluster) (orders : FileOrders)
    (store : FileStore) (id svc : String) (mid : FileStore) : Prop where
  heap : mid.heap = (mergeFileGroups orders store id).access.heap
  keys : mid.groups.keys = store.groups.keys
  lookup : ∀ group, mid.groups.lookup group = (store.groups.lookup group).map fun data =>
      if group = svc then { data with file := (serviceFile cluster store svc).getD data.file }
      else data

theorem getFileMonitorProfile_read (cluster : FileCluster)
    (orders : FileOrders) (store : FileStore) (id svc : String) :
    MonitorRead cluster orders store id svc
      (getFileMonitorProfile cluster { store with
        heap := (mergeFileGroups orders store id).access.heap } svc).1 := by
  obtain ⟨heap, keys, lookup⟩ := getFileMonitorProfile_spec cluster
    { store with heap := (mergeFileGroups orders store id).access.heap } svc
  rw [serviceFile_heap] at lookup
  exact ⟨heap, keys, lookup⟩

theorem mergeFileGroups_next :
    (mergeFileGroups orders store id).access.heap.next = store.heap.next := by
  unfold mergeFileGroups
  rw [mergeFileGroups_access]
  exact visits_next _ _ _

theorem mergeFileGroups_merged (owned : store.Owned) :
    SharedMerge.Merged mergeAccessRule store.heap.cells (memberVisits orders store id)
      (mergeFileGroups orders store id).access := by
  have start := SharedMerge.Merged.start (κ := FilterKey) mergeAccessRule store.heap
  have all := start.run mergeAccessRule_grows (memberVisits orders store id) ?_ ?_
  · unfold mergeFileGroups
    rw [mergeFileGroups_access]
    exact all
  · rintro ⟨key, ref⟩ member ⟨other, same⟩ memberOther equal
    have isSame : ref = same := equal
    subst isSame
    obtain ⟨group, _, found⟩ := mem_memberVisits member
    obtain ⟨group', _, found'⟩ := mem_memberVisits memberOther
    exact (owned.apart group key group' other ref found found').2
  · rintro ⟨key, ref⟩ member
    obtain ⟨group, _, found⟩ := mem_memberVisits member
    exact owned.live group key ref found

section Cases

variable {mid : FileStore}

section

variable (read : MonitorRead cluster orders store id svc mid)
include read

theorem MonitorRead.refs (group : String) (key : FilterKey) :
    refAt mid group key = refAt store group key := by
  unfold refAt
  rw [read.lookup]
  cases store.groups.lookup group with
  | none => rfl
  | some data =>
    split
    · rfl
    · rfl

theorem MonitorRead.data (group : String) :
    (mid.groups.lookup group).map profileData = (store.groups.lookup group).map fun data =>
        if group = svc then
          (data.members, (serviceFile cluster store svc).getD data.file, data.access.group)
        else profileData data := by
  simp only [read.lookup, Option.map_map, Function.comp_def, apply_ite profileData]
  rfl

theorem MonitorRead.next : mid.heap.next = store.heap.next := by
  rw [read.heap]
  exact mergeFileGroups_next

end

theorem MonitorRead.unread (owned : store.Owned)
    (read : MonitorRead cluster orders store id svc mid)
    (unread : reload cluster store svc = none) :
    ServiceLoaded store (mergeFileGroups orders store id).access.heap svc
      (reload cluster store svc) mid := by
  rw [unread]
  apply ServiceLoaded.unread read.next.symm
  · intro ref
    rw [read.heap]
  · exact read.refs
  · exact owned

theorem computed_without (owned : store.Owned) (read : MonitorRead cluster orders store id svc mid)
    (unread : reload cluster store svc = none) (skipped : serviceRead cluster store svc = false) :
    Computed cluster orders store id svc (mid, (serviceFile cluster store svc).map fun file =>
        (joinedFile orders (mergeFileGroups orders store id) file, none))
      mid [] ⟨mid.heap, (mergeFileGroups orders store id).access.current⟩ where
  loaded := read.unread owned unread
  visits := by
    intro key
    rw [skipped]
    rfl
  merged := by
    rw [List.append_nil]
    exact merged_loaded owned (read.unread owned unread) (mergeFileGroups_merged owned)
  after := rfl
  keys := read.keys
  data := by
    intro group
    rw [read.data, unread]
    rfl
  result := by
    rw [skipped]
    rfl

theorem computed_with {last : FileStore} {access : FileAccessRule} (owned : store.Owned)
    (loaded : ServiceLoaded store (mergeFileGroups orders store id).access.heap svc
      (reload cluster store svc) last)
    (used : serviceRead cluster store svc = true) (keys : last.groups.keys = store.groups.keys)
    (data : ∀ group, (last.groups.lookup group).map profileData =
      (store.groups.lookup group).map fun data =>
        if group = svc then
          (data.members, (serviceFile cluster store svc).getD data.file,
            ((reload cluster store svc).map StoredAccessRule.group).getD data.access.group)
        else profileData data)
    (own : ∀ key, access.rules.lookup key = refAt last svc key)
    {file : FileMonitorProfile} (known : serviceFile cluster store svc = some file) :
    ∃ more final, Computed cluster orders store id svc
      ({ last with heap := (mergeFileAccessProfile orders.serviceRules
          ⟨last.heap, (mergeFileGroups orders store id).access.current⟩
          access.rules).heap },
        some (joinedFile orders (mergeFileGroups orders store id) file,
          some (mergeFileAccessProfile orders.serviceRules
            ⟨last.heap, (mergeFileGroups orders store id).access.current⟩
            access.rules).current)) last more final := by
  have visits : ServiceVisits last svc (serviceRead cluster store svc)
      (accessVisits orders.serviceRules access.rules) := by
    intro key
    rw [refs_accessVisits, used, own]
    rfl
  refine ⟨accessVisits orders.serviceRules access.rules, _, loaded, visits,
    merged_all owned loaded (mergeFileGroups_merged owned) visits, rfl, keys, data, ?_⟩
  rw [known, used]
  rfl

/-- The cache once a text was read into the rules of the service. -/
def reloadedStore (mid : FileStore) (svc : String)
    (rules : GoMap FilterKey Nat) (text : StoredAccessRule) : FileStore :=
  let read := unmarshalAccess mid.heap rules text
  let filled : FileStore := { mid with heap := read.1 }
  filled.update svc fun own => { own with access := ⟨text.group, read.2⟩ }

theorem reloadedStore_refs_self {data : FileGroupData}
    (found : mid.groups.lookup svc = some data) (text : StoredAccessRule) (key : FilterKey) :
    refAt (reloadedStore mid svc data.access.rules text) svc key =
      (unmarshalAccess mid.heap data.access.rules text).2.lookup key := by
  unfold refAt reloadedStore
  simp only [FileStore.update, Table.lookup_mapValues, found, Option.map_some, if_true,
    Option.bind_some]

theorem reloadedStore_refs_ne (rules : GoMap FilterKey Nat)
    (text : StoredAccessRule) (key : FilterKey) (different : group ≠ svc) :
    refAt (reloadedStore mid svc rules text) group key = refAt mid group key := by
  unfold refAt reloadedStore
  simp only [FileStore.update, Table.lookup_mapValues, if_neg different, Option.map_id']

section

variable (read : MonitorRead cluster orders store id svc mid)
include read

theorem MonitorRead.found {data : FileGroupData} (cached : store.groups.lookup svc = some data) :
    mid.groups.lookup svc = some { data with
      file := (serviceFile cluster store svc).getD data.file } := by
  rw [read.lookup, cached, Option.map_some, if_pos rfl]

theorem MonitorRead.reloaded (owned : store.Owned) {data : FileGroupData}
    (cached : store.groups.lookup svc = some data) (text : StoredAccessRule) :
    ServiceLoaded store (mergeFileGroups orders store id).access.heap svc
      (some text) (reloadedStore mid svc data.access.rules text) := by
  have own : ∀ key, refAt store svc key = data.access.rules.lookup key := by
    intro key
    unfold refAt
    rw [cached]
    rfl
  have nodup : ((text.rules.entries.map fun item =>
      (item.1, item.2)).map Prod.fst).Nodup := by
    rw [List.map_map]
    exact text.rules.nodupKeys
  have bound : ∀ key ref, (Table.filterKeys (fun key : FilterKey =>
      !text.isNull key.1) data.access.rules).lookup key = some ref → ref < mid.heap.next := by
    intro key ref found
    rw [Table.lookup_filterKeys] at found
    split at found
    · rw [← own] at found
      rw [read.next]
      exact owned.bound found
    · cases found
  have rulesRead := readRules _ nodup mid.heap _ bound
  have refs := reloadedStore_refs_self (read.found cached) text
  have above : store.heap.next = mid.heap.next := read.next.symm
  constructor
  · rw [above]
    exact rulesRead.next
  · intro ref below
    rw [above] at below
    rw [← read.heap]
    exact rulesRead.cells ref below
  · intro group key different
    rw [reloadedStore_refs_ne _ _ _ different]
    exact read.refs group key
  · intro none
    cases none
  · intro other isText key absent
    cases isText
    have kept := rulesRead.kept key fun rule member => by
      rw [Table.mem_pairs.mp member] at absent
      cases absent
    rw [Table.lookup_filterKeys, ← own] at kept
    refine (refs key).trans (kept.trans ?_)
    cases text.isNull key.1 with
    | true | false => rfl
  · intro other isText key rule found
    cases isText
    obtain ⟨ref, isRef, bottom, cell⟩ := rulesRead.read key rule (Table.mem_pairs.mpr found)
    rw [above]
    exact ⟨ref, (refs key).trans isRef, bottom, cell⟩
  · intro key other ref bottom found foundOther
    rw [above] at bottom
    exact rulesRead.apart key other ref bottom
      ((refs key).symm.trans found) ((refs other).symm.trans foundOther)

theorem MonitorRead.reloaded_data (rules : GoMap FilterKey Nat)
    (text : StoredAccessRule) (group : String) :
    ((reloadedStore mid svc rules text).groups.lookup group).map profileData =
      (store.groups.lookup group).map fun data =>
        if group = svc then
          (data.members, (serviceFile cluster store svc).getD data.file, text.group)
        else profileData data := by
  unfold reloadedStore
  simp only [FileStore.update, Table.lookup_mapValues, read.lookup, Option.map_map]
  apply Option.map_congr
  intro data _
  split
  · rfl
  · rfl

end

theorem joinAccess_computed (owned : store.Owned)
    (read : MonitorRead cluster orders store id svc mid)
    {file : FileMonitorProfile} (isFile : serviceFile cluster store svc = some file) :
    ∃ last more final, Computed cluster orders store id svc
      (joinAccess cluster orders (mergeFileGroups orders store id).access.current
        (joinedFile orders (mergeFileGroups orders store id) file) mid svc)
      last more final := by
  have found := read.lookup svc
  unfold joinAccess getFileAccessProfile
  cases cached : store.groups.lookup svc with
  | none =>
    have unread : reload cluster store svc = none := by
      unfold reload
      rw [cached]
    have skipped : serviceRead cluster store svc = false := by
      unfold serviceRead
      rw [cached]
    have computed := computed_without owned read unread skipped
    rw [cached] at found
    rw [isFile] at computed
    simp only [found]
    exact ⟨mid, _, _, computed⟩
  | some data =>
    rw [cached, Option.map_some, if_pos rfl] at found
    have unfolded : reload cluster store svc =
        if data.access.group = "" then cluster.access svc else none := by
      unfold reload
      rw [cached, isFile]
      simp
    have used : serviceRead cluster store svc =
        (data.access.group ≠ "" || (cluster.access svc).isSome) := by
      unfold serviceRead
      rw [cached, isFile]
      simp
    simp only [found]
    by_cases unnamed : data.access.group = ""
    · rw [if_pos unnamed] at unfolded
      simp only [if_pos unnamed]
      cases text : cluster.access svc with
      | none =>
        rw [text] at unfolded used
        have skipped : serviceRead cluster store svc = false := by
          rw [used]
          simp [unnamed]
        have computed := computed_without owned read unfolded skipped
        rw [isFile] at computed
        exact ⟨mid, _, _, computed⟩
      | some stored =>
        rw [text] at unfolded used
        have loaded := read.reloaded owned cached stored
        rw [← unfolded] at loaded
        refine ⟨reloadedStore mid svc data.access.rules stored, ?_⟩
        apply computed_with owned loaded
        · rw [used]
          simp
        · exact (Table.keys_mapValues _ _).trans read.keys
        · intro group
          rw [unfolded]
          exact read.reloaded_data data.access.rules stored group
        · intro key
          exact (reloadedStore_refs_self (read.found cached) stored key).symm
        · exact isFile
    · rw [if_neg unnamed] at unfolded
      simp only [if_neg unnamed]
      refine ⟨mid, ?_⟩
      apply computed_with owned (read.unread owned unfolded)
      · rw [used]
        simp [unnamed]
      · exact read.keys
      · intro group
        rw [read.data, unfolded]
        rfl
      · intro key
        unfold refAt
        rw [found]
        rfl
      · exact isFile

theorem calculate_computed (cluster : FileCluster) (orders : FileOrders)
    (id svc : String) (owned : store.Owned) :
    ∃ last more final, Computed cluster orders store id svc
      (calculateFileGroupProfile cluster orders store id svc)
      last more final := by
  have read := getFileMonitorProfile_read cluster orders store id svc
  have known : (getFileMonitorProfile cluster { store with
      heap := (mergeFileGroups orders store id).access.heap } svc).2 =
        serviceFile cluster store svc := serviceFile_heap _
  unfold calculateFileGroupProfile
  simp only [known]
  cases isFile : serviceFile cluster store svc with
  | none =>
    have unread : reload cluster store svc = none := by
      unfold reload
      rw [isFile]
      cases store.groups.lookup svc with
      | none => rfl
      | some data => simp
    have skipped : serviceRead cluster store svc = false := by
      unfold serviceRead
      rw [isFile]
      cases store.groups.lookup svc with
      | none | some data => rfl
    have computed := computed_without owned read unread skipped
    rw [isFile] at computed
    exact ⟨_, _, _, computed⟩
  | some file => exact joinAccess_computed owned read isFile

end Cases

end NeuVector.Agent
