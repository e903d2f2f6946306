import Mathlib.Data.Finset.Basic
import Mathlib.Data.List.Sort
import Mathlib.Data.String.Basic
import NeuVector.Controller.PolicyStore

/-!
# Process profiles

The agent joins the process profiles of the groups of a container with that of
its service (`agent/group_profile.go`) and looks up a process by the first
entry that matches it (`agent/policy/process.go`).  Users and times of entries
are read by no function here.
-/

namespace NeuVector.Agent

open Controller

inductive ProcessAction where
  | allow
  | deny
  | learn
  | violate
  | other (name : String)
  deriving DecidableEq

structure ProcessProfileEntry where
  name : String
  path : String
  hash : List Nat
  action : ProcessAction
  cfgType : CfgType
  uuid : String
  derivedGroup : String
  allowFileUpdate : Bool
  deriving DecidableEq

structure ProcessProfile where
  group : String
  alertDisable : Bool
  hashEnable : Bool
  mode : String
  baseline : String
  process : List ProcessProfileEntry

variable (path : String)

def isRecursivePath : Bool := ['/', '*'].isSuffixOf path.toList

def splitPath : Option (List Char × List Char) :=
  if path.toList.contains '/' then
    let bin := (path.toList.reverse.takeWhile (· ≠ '/')).reverse
    some (path.toList.take (path.toList.length - bin.length - 1), bin)
  else none

/-- The directory of the process is below the one of a recursive path. -/
def isBelow (dir : List Char) : Bool := (path.toList.take (path.toList.length - 2)).isPrefixOf dir

variable (entry : ProcessProfileEntry)

def matchProfileProcess (proc : ProcessProfileEntry) : Bool :=
  if entry.name = "*" ∧ (entry.path = "*" ∨ entry.path = "/*") then true
  else
    match splitPath proc.path with
    | none => false
    | some (dir, bin) =>
      let anyPath := entry.path = "*" || entry.path = "" || entry.path = "/*"
      if bin = entry.name.toList ∧ anyPath = true then true
      else if bin = entry.name.toList ∧ isRecursivePath entry.path = true ∧
          entry.name ≠ "*" then isBelow entry.path dir
      else if entry.name = "*" then
        if isRecursivePath entry.path then isBelow entry.path dir
        else proc.path = entry.path
      else if isRecursivePath entry.path then isBelow entry.path dir && entry.name = proc.name
      else (anyPath || proc.path = entry.path) && proc.name = entry.name

def matchedEntry (process : List ProcessProfileEntry)
    (proc : ProcessProfileEntry) : Option ProcessProfileEntry :=
  process.find? fun entry => matchProfileProcess entry proc

def profileKey : String := entry.name ++ ":" ++ entry.path

/-- The map that an entry goes into; an entry that denies all is dropped. -/
def priorityOf : Option Nat :=
  if entry.action = .deny then
    if entry.name = "*" ∧ entry.path = "*" then none
    else if entry.name = "*" then some 3
    else if isRecursivePath entry.path then some 2
    else some 1
  else
    if entry.name = "*" ∧ entry.path = "*" then some 0
    else if entry.name = "*" then some 6
    else if isRecursivePath entry.path then some 5
    else some 4

/-- One of the seven maps after all entries were put in. -/
def priorityMap (cur : List ProcessProfileEntry) (priority : Nat) :
    GoMap String ProcessProfileEntry :=
  (cur.filter fun entry => priorityOf entry = some priority).foldl
    (fun m entry => m.insert (profileKey entry) entry) ∅

def entryLE (first second : ProcessProfileEntry) : Prop :=
  if first.name = second.name then first.path ≤ second.path
  else first.name ≤ second.name

instance : DecidableRel entryLE := fun first second =>
  inferInstanceAs (Decidable (if first.name = second.name then
    first.path ≤ second.path else first.name ≤ second.name))

def mapProcToSortedSlices (order : MapOrder ProcessProfileEntry)
    (m : GoMap String ProcessProfileEntry) : List ProcessProfileEntry :=
  (order.order (m.entries.map fun item => item.2)).insertionSort entryLE

/-- The seven maps are enumerated in orders of their own. -/
def mergeProcessProfiles (orders : Nat → MapOrder ProcessProfileEntry)
    (cur : List ProcessProfileEntry) : List ProcessProfileEntry :=
  (List.range 7).flatMap fun priority =>
    mapProcToSortedSlices (orders priority) (priorityMap cur priority)

structure GroupProfileData where
  members : Finset String
  proc : ProcessProfile

structure ProfileCache where
  groups : GoMap String GroupProfileData
  /-- The profile of a group that is read from the cluster into a cached one. -/
  loadGroupProfile : String → ProcessProfile → Option ProcessProfile

variable (cache : ProfileCache)

def getProcessProfile (name : String) : Option ProcessProfile :=
  match cache.groups.lookup name with
  | none => none
  | some grpCache =>
    if grpCache.proc.group = "" then cache.loadGroupProfile name grpCache.proc
    else some grpCache.proc

def isFederalGroup (name : String) : Bool := "fed.".toList.isPrefixOf name.toList

inductive ProfilePart where
  | federal
  | crd
  | other
  deriving DecidableEq

def groupPart (grpName : String) (entry : ProcessProfileEntry) : ProfilePart :=
  if isFederalGroup grpName then .federal
  else if entry.cfgType = .ground then .crd
  else .other

def servicePart : ProfilePart :=
  if entry.cfgType = .ground then .crd else .other

variable (orders : ProfileOrders) (id : String) (svcProc : ProcessProfile) (part : ProfilePart)

def groupEntries (grpName : String) : List ProcessProfileEntry :=
  match cache.groups.lookup grpName with
  | none => []
  | some grpCache =>
    if id ∈ grpCache.members then
      grpCache.proc.process.filter fun entry => groupPart grpName entry = part
    else []

def serviceEntries : List ProcessProfileEntry :=
  svcProc.process.filter fun entry => servicePart entry = part

structure ProfileOrders where
  groups : MapOrder String
  priorities : ProfilePart → Nat → MapOrder ProcessProfileEntry

def partEntries : List ProcessProfileEntry :=
  (orders.groups.order cache.groups.keys).flatMap
    (groupEntries cache id part) ++ serviceEntries svcProc part

def mergedPart : List ProcessProfileEntry :=
  mergeProcessProfiles (orders.priorities part) (partEntries cache orders id svcProc part)

def calculateProcGroupProfile (svc : String) : Option ProcessProfile :=
  match getProcessProfile cache svc with
  | none => none
  | some svcProc =>
    let merged := mergedPart cache orders id svcProc
    some
      { group := svcProc.group
        alertDisable := svcProc.alertDisable
        hashEnable := svcProc.hashEnable
        mode := svcProc.mode
        baseline := ""
        process := merged .federal ++ (merged .crd ++ merged .other) }

/-- The action and the flag that a process gets from the entry that decides
on it. -/
def profileVerdict (profile : ProcessProfile) (proc : ProcessProfileEntry) :
    Option (ProcessAction × Bool) :=
  (matchedEntry profile.process proc).map fun entry => (entry.action, entry.allowFileUpdate)

end NeuVector.Agent
