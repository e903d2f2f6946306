import Mathlib.Data.Finset.Basic
import Mathlib.Data.List.Sort
import Mathlib.Data.String.Basic
import NeuVector.Controller.PolicyStore
import NeuVector.Library.SharedMerge
import NeuVector.Library.Table

/-!
# File profiles

The agent joins the file profiles of the groups of a container with that of
its service (`agent/group_profile.go`).  Monitor filters are values, but the
rules on applications are reached by pointers from the cached profiles, so the
cache is a heap of rules with maps of references.  A profile that has no group
name is read from the cluster when it is asked for, into the cached one: maps
keep the entries that the text does not have, an entry that it has gets a new
rule, and a map that is null there is emptied.  The two maps of a profile are
one map here, by table and filter name.
-/

namespace NeuVector.Agent

open Controller Library

inductive FileBehavior where
  | monitor
  | block
  | other (name : String)
  deriving DecidableEq

structure FileMonitorFilter where
  filter : String
  path : String
  regex : String
  recursive : Bool
  customerAdd : Bool
  behavior : FileBehavior
  derivedGroup : String
  deriving DecidableEq

structure FileMonitorProfile where
  group : String
  mode : String
  filters : List FileMonitorFilter
  filtersCRD : List FileMonitorFilter
  deriving DecidableEq

structure FileAccessFilterRule where
  apps : List String
  behavior : FileBehavior
  customerAdd : Bool
  deriving DecidableEq

inductive FilterTable where
  | filters
  | filtersCRD
  deriving DecidableEq

abbrev FilterKey := FilterTable × String

/-- A cached profile: references to rules. -/
structure FileAccessRule where
  group : String
  rules : GoMap FilterKey Nat

structure StoredAccessRule where
  group : String
  isNull : FilterTable → Bool
  rules : GoMap FilterKey FileAccessFilterRule

def getPathRegexString (path regex : String) (recursive : Bool) : String :=
  let text := if recursive then path ++ "/" ++ regex else path
  "^" ++ text ++ "$"

def mergeMonitorFilter (m : GoMap String FileMonitorFilter)
    (ff : FileMonitorFilter) : GoMap String FileMonitorFilter :=
  let key := getPathRegexString ff.path ff.regex ff.recursive
  match m.lookup key with
  | none => m.insert key ff
  | some v =>
    m.insert key
      { ff with
        behavior := if v.behavior = .block then .block else ff.behavior
        derivedGroup :=
          if v.behavior = .block ∧ v.derivedGroup ≠ "" then v.derivedGroup
          else ff.derivedGroup
        recursive := v.recursive || ff.recursive
        customerAdd := v.customerAdd || ff.customerAdd }

def filterLE (first second : FileMonitorFilter) : Prop :=
  if first.filter = second.filter then first.path ≤ second.path
  else first.filter ≤ second.filter

instance : DecidableRel filterLE := fun first second =>
  inferInstanceAs (Decidable (if first.filter = second.filter then
    first.path ≤ second.path else first.filter ≤ second.filter))

def mergeFileMonitorProfile (order : MapOrder FileMonitorFilter)
    (filters : List FileMonitorFilter) : List FileMonitorFilter :=
  let m := filters.foldl mergeMonitorFilter ∅
  (order.order (m.entries.map fun item => item.2)).insertionSort filterLE

/-- The sorted form, which is the only one that is asked for. -/
def mergeStringSlices (s1 s2 : List String) : List String := (s1 ++ s2).dedup.insertionSort (· ≤ ·)

def mergeAccessRule (ffp profile : FileAccessFilterRule) : FileAccessFilterRule :=
  { customerAdd := true
    apps := mergeStringSlices ffp.apps profile.apps
    behavior := if profile.behavior = .block then .block else ffp.behavior }

abbrev AccessMerging := SharedMerge.Merging FileAccessFilterRule FilterKey

def accessVisits (order : MapOrder (FilterKey × Nat))
    (rules : GoMap FilterKey Nat) : List (FilterKey × Nat) :=
  order.order (rules.entries.map fun item => (item.1, item.2))

/-- The first rule of a filter is kept by reference; later ones are merged
into it. -/
def mergeFileAccessProfile (order : MapOrder (FilterKey × Nat))
    (cur : AccessMerging) (add : GoMap FilterKey Nat) : AccessMerging :=
  (accessVisits order add).foldl (SharedMerge.visit mergeAccessRule) cur

structure FileGroupData where
  members : Finset String
  file : FileMonitorProfile
  access : FileAccessRule

structure FileStore where
  heap : Heap FileAccessFilterRule
  groups : GoMap String FileGroupData

structure FileCluster where
  file : String → FileMonitorProfile → Option FileMonitorProfile
  access : String → Option StoredAccessRule

variable (cluster : FileCluster) (orders : FileOrders) (store : FileStore)

def FileStore.update (name : String) (rewrite : FileGroupData → FileGroupData) : FileStore :=
  let own := fun group data => if group = name then rewrite data else data
  { store with groups := Table.mapValues own store.groups }

def getFileMonitorProfile (name : String) : FileStore × Option FileMonitorProfile :=
  match store.groups.lookup name with
  | none => (store, none)
  | some grpCache =>
    if grpCache.file.group = "" then
      match cluster.file name grpCache.file with
      | none => (store, none)
      | some file => (store.update name fun data => { data with file := file }, some file)
    else (store, some grpCache.file)

/-- A rule that is read from the cluster is a new one. -/
def readRule (state : Heap FileAccessFilterRule × GoMap FilterKey Nat)
    (item : FilterKey × FileAccessFilterRule) :
    Heap FileAccessFilterRule × GoMap FilterKey Nat :=
  (state.1.alloc item.2, state.2.insert item.1 state.1.next)

def unmarshalAccess (heap : Heap FileAccessFilterRule)
    (rules : GoMap FilterKey Nat) (stored : StoredAccessRule) :
    Heap FileAccessFilterRule × GoMap FilterKey Nat :=
  (stored.rules.entries.map fun item => (item.1, item.2)).foldl readRule
    (heap, Table.filterKeys (fun key => !stored.isNull key.1) rules)

def getFileAccessProfile (name : String) : FileStore × Option FileAccessRule :=
  match store.groups.lookup name with
  | none => (store, none)
  | some grpCache =>
    if grpCache.access.group = "" then
      match cluster.access name with
      | none => (store, none)
      | some stored =>
        let read := unmarshalAccess store.heap grpCache.access.rules stored
        let access : FileAccessRule := { group := stored.group, rules := read.2 }
        let filled : FileStore := { store with heap := read.1 }
        (filled.update name fun data => { data with access := access }, some access)
    else (store, some grpCache.access)

structure FileOrders where
  groups : MapOrder String
  rules : String → MapOrder (FilterKey × Nat)
  serviceRules : MapOrder (FilterKey × Nat)
  monitors : FilterTable → MapOrder FileMonitorFilter

structure FileLoop where
  filters : List FileMonitorFilter
  filtersCRD : List FileMonitorFilter
  access : AccessMerging

def mergeFileGroup (id : String) (loop : FileLoop) (grpName : String) : FileLoop :=
  match store.groups.lookup grpName with
  | none => loop
  | some grpCache =>
    if id ∈ grpCache.members then
      { filters := loop.filters ++ grpCache.file.filters
        filtersCRD := loop.filtersCRD ++ grpCache.file.filtersCRD
        access := mergeFileAccessProfile (orders.rules grpName) loop.access grpCache.access.rules }
    else loop

def mergeFileGroups (id : String) : FileLoop :=
  (orders.groups.order store.groups.keys).foldl (mergeFileGroup orders store id)
    { filters := [], filtersCRD := [], access := ⟨store.heap, ∅⟩ }

def joinedFile (loop : FileLoop) (svcFile : FileMonitorProfile) : FileMonitorProfile :=
  { group := svcFile.group
    mode := svcFile.mode
    filters := mergeFileMonitorProfile (orders.monitors .filters) (loop.filters ++ svcFile.filters)
    filtersCRD := mergeFileMonitorProfile (orders.monitors .filtersCRD)
      (loop.filtersCRD ++ svcFile.filtersCRD) }

def joinAccess (current : GoMap FilterKey Nat) (file : FileMonitorProfile)
    (loaded : FileStore) (svc : String) :
    FileStore × Option (FileMonitorProfile × Option (GoMap FilterKey Nat)) :=
  let answer := getFileAccessProfile cluster loaded svc
  match answer.2 with
  | none => (answer.1, some (file, none))
  | some svcAccess =>
    let access := mergeFileAccessProfile orders.serviceRules
      ⟨answer.1.heap, current⟩ svcAccess.rules
    ({ answer.1 with heap := access.heap }, some (file, some access.current))

/-- The computation gives the cache that it leaves, and the joined profiles,
the one on applications by reference. -/
def calculateFileGroupProfile (id svc : String) :
    FileStore × Option (FileMonitorProfile × Option (GoMap FilterKey Nat)) :=
  let loop := mergeFileGroups orders store id
  let answer := getFileMonitorProfile cluster { store with heap := loop.access.heap } svc
  match answer.2 with
  | none => (answer.1, none)
  | some svcFile =>
    joinAccess cluster orders loop.access.current (joinedFile orders loop svcFile) answer.1 svc

end NeuVector.Agent
