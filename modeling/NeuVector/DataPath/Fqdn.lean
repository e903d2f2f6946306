import NeuVector.Library.RcuMap
import NeuVector.Library.Heap
import NeuVector.Library.Loop
import NeuVector.Library.Bitmap

/-!
# Domain names of the policy

This module embeds the FQDN tables of `dpi_policy.c`.  A record of a domain
name has a code, which stands for the name in policy rules, and the list of
its addresses; an address has the list of the records it belongs to.  Records
are created by the configuration, extended by snooped DNS answers, and deleted
in batches once they have been marked.
-/

namespace NeuVector.DataPath

open Library

/-- The bytes of a C string. -/
abbrev FqdnName := List UInt8

structure FqdnRecord where
  name : FqdnName
  code : UInt32
  toDelete : Bool
  deleted : Bool
  wildcard : Bool
  ipCnt : UInt32
  recordUpdated : Bool
  iplist : List UInt32
  deriving DecidableEq

/-- An entry of the name map: the key it was added under, and its record. -/
structure FqdnNameEntry where
  key : FqdnName
  r : Nat
  deriving DecidableEq

/-- The addresses of freed records are not used again.  The two queues of the
deletion are empty between its calls. -/
structure FqdnHdl where
  records : Heap FqdnRecord
  fqdnNameMap : List FqdnNameEntry
  fqdnIpv4Map : RcuMap UInt32 (List Nat)
  bm : Bitmap
  codeCnt : Int

def maxFqdnLen : Nat := 256
def dpiFqdnMaxEntries : Nat := 2048
def dpiFqdnDeleteQlen : Nat := 32

def dpiFqdnHdlInit : FqdnHdl :=
  { records := Heap.empty
    fqdnNameMap := []
    fqdnIpv4Map := RcuMap.empty
    bm := Bitmap.allocate dpiFqdnMaxEntries
    codeCnt := 0 }

def dot : UInt8 := 46
def star : UInt8 := 42

variable (hdl : FqdnHdl) (name : FqdnName)

def sdbmHash : UInt32 :=
  name.foldl (fun hash byte => byte.toUInt32 + (hash <<< 6) + (hash <<< 16) - hash) 0

def lowerByte (byte : UInt8) : UInt8 :=
  if 65 ≤ byte ∧ byte ≤ 90 then byte + 32 else byte

def lowerString : FqdnName := name.map lowerByte

/-- `strcasecmp` finds no difference. -/
def sameName (other : FqdnName) : Bool := lowerString name = lowerString other

def strlcpy (size : Nat) : FqdnName := name.take (size - 1)

/-- The first label, as `strtok_r` finds it, is a star. -/
def isFqdnNameWildcard : Bool := (name.dropWhile (· = dot)).takeWhile (· ≠ dot) = [star]

/-- The hash map compares the hashes of the keys before it asks
`fqdn_name_match`. -/
def fqdnNameMatch (entry : FqdnNameEntry) : Bool :=
  match hdl.records.cells entry.r with
  | none => false
  | some r => sdbmHash entry.key = sdbmHash name && sameName r.name name

def lookupFqdnName : Option FqdnNameEntry := hdl.fqdnNameMap.find? (fqdnNameMatch hdl name)

def htonl (value : UInt32) : UInt32 :=
  let number := value.toNat
  UInt32.ofNat (number % 256 * 16777216 + number / 256 % 256 * 65536 +
    number / 65536 % 256 * 256 + number / 16777216)

def allocFqdnCode : FqdnHdl × Option UInt32 :=
  match hdl.bm.nextZero hdl.codeCnt with
  | none => ({ hdl with codeCnt := -1 }, none)
  | some position =>
    ({ hdl with bm := hdl.bm.set position, codeCnt := position + 1 },
      some (htonl (UInt32.ofNat (position + 1))))

def freeFqdnCode (bm : Bitmap) (code : UInt32) : Bitmap := bm.clear ((htonl code).toNat - 1)

variable (records : Heap FqdnRecord) (record : Nat)

def addRecord (rlist : List Nat) : List Nat :=
  if record ∈ rlist then rlist else rlist ++ [record]

variable (ip : UInt32)

def addIp (r : FqdnRecord) : FqdnRecord :=
  if ip ∈ r.iplist then r
  else { r with iplist := r.iplist ++ [ip], ipCnt := r.ipCnt + 1 }

/-- Find or create the entry of an address and link it with a record. -/
def linkIp : FqdnHdl :=
  { hdl with
    records := hdl.records.modify record (addIp ip)
    fqdnIpv4Map :=
      match hdl.fqdnIpv4Map.lookup ip with
      | some _ => hdl.fqdnIpv4Map.modify ip (addRecord record)
      | none => hdl.fqdnIpv4Map.add ip [record] }

def isNewIp (r : FqdnRecord) (ip : UInt32) : Bool :=
  (hdl.fqdnIpv4Map.lookup ip).isNone || ip ∉ r.iplist

def newFqdnRecord (code : UInt32) : FqdnRecord :=
  { name := strlcpy name maxFqdnLen
    code := code
    toDelete := false
    deleted := false
    wildcard := isFqdnNameWildcard (strlcpy name maxFqdnLen)
    ipCnt := 0
    recordUpdated := false
    iplist := [] }

/-- Find or create the record of a name; a record that was marked is kept. -/
def configFqdnRecord : FqdnHdl × Option Nat :=
  match lookupFqdnName hdl name with
  | some entry =>
    ({ hdl with
        records := hdl.records.modify entry.r fun r =>
          { r with toDelete := false, deleted := false } },
      some entry.r)
  | none =>
    match allocFqdnCode hdl with
    | (hdl, none) => (hdl, none)
    | (hdl, some code) =>
      ({ hdl with
          records := hdl.records.alloc (newFqdnRecord name code)
          fqdnNameMap := hdl.fqdnNameMap ++ [{ key := name, r := hdl.records.next }] },
        some hdl.records.next)

def codeOf : Option UInt32 := (hdl.records.cells record).map FqdnRecord.code

/-- Without a free code there is no result. -/
def configFqdnIpv4Mapping : FqdnHdl × Option UInt32 :=
  match configFqdnRecord hdl name with
  | (hdl, none) => (hdl, none)
  | (hdl, some record) =>
    if ip = 0 then (hdl, codeOf hdl record)
    else (linkIp hdl record ip, codeOf hdl record)

def associateIpRecord (ips : List UInt32) : FqdnHdl :=
  let (hdl, newIp) := ips.foldl (fun (hdl, newIp) ip =>
      let new :=
        match hdl.records.cells record with
        | none => false
        | some r => isNewIp hdl r ip && r.wildcard
      (linkIp hdl record ip, newIp || new))
    (hdl, false)
  if newIp then
    { hdl with records := hdl.records.modify record fun r => { r with recordUpdated := true } }
  else hdl

/-- Link the addresses with the record of a name, unless it is marked. -/
def snoopName (ips : List UInt32) (hdl : FqdnHdl) (name : FqdnName) : FqdnHdl :=
  match lookupFqdnName hdl name with
  | none => hdl
  | some entry =>
    match hdl.records.cells entry.r with
    | none => hdl
    | some r =>
      if r.toDelete || r.deleted then hdl
      else associateIpRecord hdl entry.r ips

/-- The place of the last dot before the last byte, or zero. -/
def lastDot : Nat :=
  ((List.range (name.length - 1)).filter fun position =>
    0 < position ∧ name[position]? = some dot).getLastD 0

/-- The names with a star for the labels in front, the longest first. -/
def wildcardNames : List FqdnName :=
  (List.range (lastDot name - 1)).filterMap fun position =>
    if name[position + 1]? = some dot then some (star :: name.drop (position + 1))
    else none

def snoopedFqdnIpv4Mapping (ips : List UInt32) : FqdnHdl :=
  let name := lowerString name
  (name :: wildcardNames (strlcpy name maxFqdnLen)).foldl (snoopName ips) hdl

def dpiFqdnEntryMarkDelete : FqdnHdl :=
  match lookupFqdnName hdl name with
  | none => hdl
  | some entry =>
    { hdl with records := hdl.records.modify entry.r fun r => { r with toDelete := true } }

def isMarked : Bool :=
  match records.cells record with
  | none => false
  | some r => r.toDelete

def isDeleted : Bool :=
  match records.cells record with
  | none => false
  | some r => r.deleted

/-- One pass over the name map: the entries that stay, the queue of the
removed ones, and whether the queue was full. -/
def checkFqdnNames (records : Heap FqdnRecord) :
    List FqdnNameEntry → List FqdnNameEntry → List FqdnNameEntry × List FqdnNameEntry × Bool
  | [], queue => ([], queue, false)
  | entry :: rest, queue =>
    if isMarked records entry.r then
      if queue.length = dpiFqdnDeleteQlen then (entry :: rest, queue, true)
      else checkFqdnNames records rest (queue ++ [entry])
    else
      let (kept, queue, more) := checkFqdnNames records rest queue
      (entry :: kept, queue, more)

/-- One pass over the address map: deleted records leave the lists, and
entries with an empty list are removed until their queue is full. -/
def checkFqdnIpv4s (records : Heap FqdnRecord) :
    List (UInt32 × List Nat) → Nat → List (UInt32 × List Nat) × Bool
  | [], _ => ([], false)
  | (ip, rlist) :: rest, queued =>
    let rlist := rlist.filter fun record => !isDeleted records record
    if rlist = [] then
      if queued = dpiFqdnDeleteQlen then ((ip, []) :: rest, true)
      else checkFqdnIpv4s records rest (queued + 1)
    else
      let (kept, more) := checkFqdnIpv4s records rest queued
      ((ip, rlist) :: kept, more)

def ipv4Round (entries : List (UInt32 × List Nat)) : Step (List (UInt32 × List Nat)) :=
  match checkFqdnIpv4s records entries 0 with
  | (kept, true) => .next kept
  | (kept, false) => .stop kept

def sweepIpv4s (entries : List (UInt32 × List Nat)) : List (UInt32 × List Nat) :=
  Loop.run (ipv4Round records) List.length entries

def markDeleted (queue : List FqdnNameEntry) (records : Heap FqdnRecord) : Heap FqdnRecord :=
  queue.foldl (fun records entry => records.modify entry.r fun r => { r with deleted := true })
    records

def freeFqdnName (entry : FqdnNameEntry) : FqdnHdl :=
  { hdl with
    bm :=
      match hdl.records.cells entry.r with
      | none => hdl.bm
      | some r => freeFqdnCode hdl.bm r.code
    records := hdl.records.free entry.r }

def nameRound : Step FqdnHdl :=
  match checkFqdnNames hdl.records hdl.fqdnNameMap [] with
  | (kept, queue, more) =>
    let records := markDeleted queue hdl.records
    let hdl := { hdl with records := records, fqdnNameMap := kept }
    let hdl :=
      if queue.isEmpty then hdl
      else
        queue.foldl freeFqdnName
          { hdl with fqdnIpv4Map := ⟨sweepIpv4s records hdl.fqdnIpv4Map.entries⟩ }
    if more then .next hdl else .stop hdl

def dpiFqdnEntryDeleteMarked : FqdnHdl := Loop.run nameRound (fun hdl => hdl.fqdnNameMap.length) hdl

inductive FqdnEvent where
  | config (name : FqdnName) (ip : UInt32)
  | snooped (name : FqdnName) (ips : List UInt32)
  | mark (name : FqdnName)
  | deleteMarked

def fqdnStep : FqdnEvent → FqdnHdl
  | .config name ip => (configFqdnIpv4Mapping hdl name ip).1
  | .snooped name ips => snoopedFqdnIpv4Mapping hdl name ips
  | .mark name => dpiFqdnEntryMarkDelete hdl name
  | .deleteMarked => dpiFqdnEntryDeleteMarked hdl

def fqdnRun (events : List FqdnEvent) : FqdnHdl := events.foldl fqdnStep hdl

end NeuVector.DataPath
