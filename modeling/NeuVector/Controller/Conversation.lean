import Mathlib.Data.List.Induction
import Mathlib.Data.List.Perm.Basic
import Mathlib.Data.UInt
import NeuVector.Library.Runs

/-!
# Conversations of the workload graph

A conversation link between two nodes has entries by key and, beside them,
totals over the entries.  A connection report adds to both; the ageing and the
deletions recompute the totals.  `addConnectToGraph` also drops the entry of a
connection that was blocked before its application was checked, and then
recomputes the action only.

The order in which a map is enumerated is given with each event.  A report
has the policy id and the action that the learning part leaves it with.
-/

namespace NeuVector.Controller.Conversation

open NeuVector.Library.Runs List

def dpPolicyActionCheckApp : Nat := 3
def dpPolicyActionDeny : Nat := 5
def dpiAppNotChecked : Nat := 1

structure ActionKey where
  port : Nat
  ipproto : Nat
  application : Nat
  deriving DecidableEq

structure GraphKey extends ActionKey where
  cip : Nat
  sip : Nat
  deriving DecidableEq

structure GraphEntry where
  bytes : UInt64
  sessions : UInt32
  severity : Nat
  dlpSeverity : Nat
  wafSeverity : Nat
  policyAction : Nat
  policyID : Nat
  last : Nat

abbrev GraphEntries := List (GraphKey × GraphEntry)

structure GraphTotals where
  bytes : UInt64
  sessions : UInt32
  severity : Nat
  deriving DecidableEq

structure GraphAttr extends GraphTotals where
  policyAction : Nat
  entries : GraphEntries

structure Conn where
  clientWL : String
  serverWL : String
  gkey : GraphKey
  bytes : UInt64
  sessions : UInt32
  threatID : Nat
  severity : UInt8
  policyAction : UInt8
  policyId : Nat
  lastSeenAt : Nat

def isWafThreatID (id : Nat) : Bool := 40000 ≤ id && id < 50000

def isDlpThreatID (id : Nat) : Bool := 20000 ≤ id && id < 40000

structure Enumeration where
  order : GraphEntries → GraphEntries
  perm : ∀ entries, (order entries).Perm entries

def noteAction : List (ActionKey × Nat × Nat) → GraphKey × GraphEntry →
    List (ActionKey × Nat × Nat)
  | [], (gkey, ge) => [(gkey.toActionKey, ge.policyAction, ge.last)]
  | (k, action, last) :: rest, (gkey, ge) =>
    if k = gkey.toActionKey then
      if last < ge.last then (k, ge.policyAction, ge.last) :: rest else (k, action, last) :: rest
    else (k, action, last) :: noteAction rest (gkey, ge)

def getAggregatedAction (entries : GraphEntries) : Nat :=
  (entries.foldl noteAction []).foldr (fun e act => max e.2.1 act) 0

def GraphTotals.zero : GraphTotals := ⟨0, 0, 0⟩

def GraphTotals.add (totals : GraphTotals) (bytes : UInt64) (sessions : UInt32)
    (severity : Nat) : GraphTotals :=
  ⟨totals.bytes + bytes, totals.sessions + sessions, max severity totals.severity⟩

def GraphEntry.worst (ge : GraphEntry) : Nat := max ge.severity (max ge.dlpSeverity ge.wafSeverity)

def totalsOf (entries : GraphEntries) : GraphTotals :=
  entries.foldr (fun e totals => totals.add e.2.bytes e.2.sessions e.2.worst) .zero

def recalcConversation (enum : Enumeration) (entries : GraphEntries) : GraphAttr :=
  { totalsOf entries with policyAction := getAggregatedAction (enum.order entries), entries }

/-- The keys are distinct, so that the entries left are those behind the
`count` oldest ones. -/
def removeOldEntries (enum : Enumeration) (a : GraphAttr) (limit count : Nat) : Option GraphAttr :=
  let total := a.entries.length
  if total ≤ limit ∨ total ≤ count then none
  else
    let sorted := (enum.order a.entries).mergeSort fun e e' => e.2.last ≤ e'.2.last
    some (recalcConversation enum (sorted.drop count))

def GraphEntry.new : GraphEntry := ⟨0, 0, 0, 0, 0, 0, 0, 0⟩

def GraphEntry.raise (ge : GraphEntry) (conn : Conn) : GraphEntry :=
  let severity := conn.severity.toNat
  if isDlpThreatID conn.threatID then { ge with dlpSeverity := max severity ge.dlpSeverity }
  else if isWafThreatID conn.threatID then { ge with wafSeverity := max severity ge.wafSeverity }
  else { ge with severity := max severity ge.severity }

def GraphEntry.report (ge : GraphEntry) (conn : Conn) : GraphEntry :=
  let ge := { ge with bytes := ge.bytes + conn.bytes, sessions := ge.sessions + conn.sessions }
  let ge := ge.raise conn
  if ge.last ≤ conn.lastSeenAt then
    { ge with
      policyAction := conn.policyAction.toNat
      policyID := conn.policyId
      last := conn.lastSeenAt }
  else ge

def putEntry (conn : Conn) : GraphEntries → GraphEntries
  | [] => [(conn.gkey, GraphEntry.new.report conn)]
  | (gkey, ge) :: rest =>
    if gkey = conn.gkey then (gkey, ge.report conn) :: rest else (gkey, ge) :: putEntry conn rest

/-- The action of the link after the entry is saved, and whether it has to be
recomputed. -/
def noteLinkAction (attr : GraphAttr) (conn : Conn) : Nat × Bool :=
  let action := conn.policyAction.toNat
  match attr.entries.lookup conn.gkey with
  | some ge =>
    if ge.last ≤ conn.lastSeenAt then
      if attr.policyAction ≤ action then (action, false)
      else (attr.policyAction, action < ge.policyAction)
    else (attr.policyAction, false)
  | none => if attr.policyAction ≤ action then (action, false) else (attr.policyAction, true)

def Conn.notChecked (conn : Conn) : GraphKey := { conn.gkey with application := dpiAppNotChecked }

/-- The report passes while the link is denied, and the link has the entry
without application. -/
def unblocks (attr : GraphAttr) (conn : Conn) : Bool :=
  conn.policyAction.toNat ≠ dpPolicyActionDeny ∧
    (noteLinkAction attr conn).1 = dpPolicyActionDeny ∧
      (putEntry conn attr.entries).any (·.1 = conn.notChecked)

def reportEntries (attr : GraphAttr) (conn : Conn) : GraphEntries :=
  let entries := putEntry conn attr.entries
  if unblocks attr conn then entries.filter (·.1 ≠ conn.notChecked) else entries

def reportToLink (enum : Enumeration) (conn : Conn) (attr : GraphAttr) : GraphAttr :=
  let noted := noteLinkAction attr conn
  let reported : GraphAttr :=
    { attr.add conn.bytes conn.sessions conn.severity.toNat with
      policyAction := noted.1
      entries := reportEntries attr conn }
  match removeOldEntries enum reported 1000 100 with
  | some left => left
  | none =>
    if noted.2 || unblocks attr conn then
      { reported with policyAction := getAggregatedAction (enum.order reported.entries) }
    else reported

abbrev WlGraph := String × String → Option GraphAttr

def WlGraph.set (graph : WlGraph) (link : String × String) (attr : Option GraphAttr) : WlGraph :=
  fun other => if other = link then attr else graph other

def addConnectToGraph (enum : Enumeration) (graph : WlGraph) (conn : Conn) : WlGraph :=
  if conn.clientWL = "" ∨ conn.serverWL = "" then graph
  else
    let link := (conn.clientWL, conn.serverWL)
    let attr := (graph link).getD { GraphTotals.zero with policyAction := 0, entries := [] }
    graph.set link (some (reportToLink enum conn attr))

def deleteEntries (enum : Enumeration) (graph : WlGraph) (link : String × String)
    (gone : GraphKey × GraphEntry → Bool) : WlGraph :=
  graph.set link ((graph link).bind fun attr =>
    let entries := attr.entries.filter fun e => !gone e
    if attr.entries.any gone then
      if entries = [] then none else some (recalcConversation enum entries)
    else some attr)

def deleteConversationByKeyIfViolation (enum : Enumeration) (graph : WlGraph)
    (link : String × String) (key : GraphKey) : WlGraph :=
  deleteEntries enum graph link fun e => e.1 = key ∧ dpPolicyActionCheckApp < e.2.policyAction

def deleteConversationByKey (enum : Enumeration) (graph : WlGraph) (link : String × String)
    (key : GraphKey) : WlGraph :=
  deleteEntries enum graph link fun e => e.1 = key

def deleteConversationByPolicyId (enum : Enumeration) (graph : WlGraph) (link : String × String)
    (id : Nat) : WlGraph :=
  deleteEntries enum graph link fun e => e.2.policyID = id

def deleteConversationByNode (graph : WlGraph) (node : String) : WlGraph :=
  fun link => if link.1 = node ∨ link.2 = node then none else graph link

inductive GraphEvent where
  | report (conn : Conn)
  | deleteByKeyIfViolation (link : String × String) (key : GraphKey)
  | deleteByKey (link : String × String) (key : GraphKey)
  | deleteByPolicyId (link : String × String) (id : Nat)
  | deleteByNode (node : String)

def graphStep (graph : WlGraph) : GraphEvent × Enumeration → WlGraph
  | (.report conn, enum) => addConnectToGraph enum graph conn
  | (.deleteByKeyIfViolation link key, enum) =>
    deleteConversationByKeyIfViolation enum graph link key
  | (.deleteByKey link key, enum) => deleteConversationByKey enum graph link key
  | (.deleteByPolicyId link id, enum) => deleteConversationByPolicyId enum graph link id
  | (.deleteByNode node, _) => deleteConversationByNode graph node

def graphRun (events : List (GraphEvent × Enumeration)) : WlGraph :=
  events.foldl graphStep fun _ => none

def AllLinks (Holds : GraphAttr → Prop) (graph : WlGraph) : Prop :=
  ∀ link attr, graph link = some attr → Holds attr

section Steps

variable {graph : WlGraph} {enum : Enumeration} {attr : GraphAttr} {conn : Conn}
  {entries : GraphEntries}

/-- A step keeps what holds of every link if it holds of the links that are
reported or recomputed. -/
theorem AllLinks.step {Holds : GraphAttr → Prop} {event : GraphEvent}
    (holds : AllLinks Holds graph)
    (report : ∀ conn, event = .report conn → ∀ attr,
      graph (conn.clientWL, conn.serverWL) = some attr ∨
        attr = { GraphTotals.zero with policyAction := 0, entries := [] } →
          Holds (reportToLink enum conn attr))
    (recalc : ∀ attr kept, Holds attr → Sublist kept attr.entries → kept ≠ [] →
      Holds (recalcConversation enum kept)) :
    AllLinks Holds (graphStep graph (event, enum)) := by
  have set : ∀ asked added, (∀ attr, added = some attr → Holds attr) →
      AllLinks Holds (graph.set asked added) := by
    intro asked added new link attr found
    simp only [WlGraph.set] at found
    split at found
    · exact new attr found
    · exact holds link attr found
  have deleted : ∀ asked gone, AllLinks Holds (deleteEntries enum graph asked gone) := by
    intro asked gone
    apply set
    intro attr found
    obtain ⟨old, known, left⟩ := Option.bind_eq_some_iff.mp found
    have before := holds asked old known
    simp only at left
    split at left
    · split at left
      · simp at left
      next remain =>
        cases left
        exact recalc old _ before filter_sublist remain
    · cases left
      exact before
  cases event with
  | report conn =>
    simp only [graphStep, addConnectToGraph]
    split
    · exact holds
    · apply set
      intro attr found
      cases found
      apply report conn rfl
      cases graph (conn.clientWL, conn.serverWL) <;> simp
  | deleteByKeyIfViolation link key => exact deleted link _
  | deleteByKey link key => exact deleted link _
  | deleteByPolicyId link id => exact deleted link _
  | deleteByNode node =>
    intro link attr found
    simp only [graphStep, deleteConversationByNode] at found
    split at found
    · simp at found
    · exact holds link attr found

theorem removeOldEntries_eq {left : GraphAttr} {limit count : Nat}
    (removed : removeOldEntries enum attr limit count = some left) :
    ∃ sorted : GraphEntries, sorted.Perm attr.entries ∧ sorted.drop count ≠ [] ∧
      left = recalcConversation enum (sorted.drop count) := by
  simp only [removeOldEntries] at removed
  split at removed
  · simp at removed
  next long =>
    refine ⟨_, (mergeSort_perm _ _).trans (enum.perm attr.entries), ?_,
      (Option.some.inj removed).symm⟩
    apply ne_nil_of_length_pos
    simp only [length_drop, length_mergeSort, (enum.perm attr.entries).length_eq]
    omega

theorem putEntry_keys : (putEntry conn entries).map Prod.fst =
    if conn.gkey ∈ entries.map Prod.fst then entries.map Prod.fst
    else entries.map Prod.fst ++ [conn.gkey] := by
  induction entries with
  | nil => rfl
  | cons first rest induction =>
    by_cases same : first.1 = conn.gkey
    · simp [putEntry, same]
    · by_cases known : conn.gkey ∈ rest.map Prod.fst <;> simp_all [putEntry, Ne.symm same]

end Steps

section Totals

variable {attr : GraphAttr} {conn : Conn}

structure TotalsHold (attr : GraphAttr) : Prop where
  totals : attr.toGraphTotals = totalsOf attr.entries
  entries : attr.entries ≠ []

/-- No entry is dropped as blocked before its application was checked: the
link is not denied, or the report is a denial, or no entry has that key. -/
def DropsNoBlocked (graph : WlGraph) : GraphEvent × Enumeration → Prop
  | (.report conn, _) => ∀ attr, graph (conn.clientWL, conn.serverWL) = some attr →
      attr.policyAction = dpPolicyActionDeny → conn.policyAction.toNat ≠ dpPolicyActionDeny →
        ∀ gkey ∈ conn.gkey :: attr.entries.map Prod.fst, gkey ≠ conn.notChecked
  | _ => True

theorem GraphEntry.add_report (totals : GraphTotals) (ge : GraphEntry) (conn : Conn) :
    totals.add (ge.report conn).bytes (ge.report conn).sessions (ge.report conn).worst =
      (totals.add ge.bytes ge.sessions ge.worst).add conn.bytes conn.sessions
        conn.severity.toNat := by
  have worst : (ge.report conn).worst = max conn.severity.toNat ge.worst := by
    simp only [GraphEntry.report, GraphEntry.raise, GraphEntry.worst]
    grind
  grind [GraphTotals.add, GraphEntry.report, GraphEntry.raise]

theorem totalsOf_putEntry (conn : Conn) (entries : GraphEntries) :
    totalsOf (putEntry conn entries) =
      (totalsOf entries).add conn.bytes conn.sessions conn.severity.toNat := by
  induction entries with
  | nil => exact GraphEntry.add_report .zero .new conn
  | cons first rest induction =>
    simp only [putEntry, totalsOf, foldr_cons] at induction ⊢
    split
    · simp only [foldr_cons, GraphEntry.add_report]
    · grind [GraphTotals.add]

theorem reportToLink_totals {enum : Enumeration}
    (totals : attr.toGraphTotals = totalsOf attr.entries)
    (keeps : attr.policyAction = dpPolicyActionDeny →
      conn.policyAction.toNat ≠ dpPolicyActionDeny →
        ∀ gkey ∈ conn.gkey :: attr.entries.map Prod.fst, gkey ≠ conn.notChecked) :
    TotalsHold (reportToLink enum conn attr) := by
  have noneDropped : reportEntries attr conn = putEntry conn attr.entries := by
    apply if_neg
    intro blocked
    obtain ⟨passed, denied, known⟩ := of_decide_eq_true blocked
    obtain ⟨e, member, same⟩ := any_eq_true.mp known
    have others := keeps (by grind [noteLinkAction]) passed
    have found : conn.notChecked ∈ (putEntry conn attr.entries).map Prod.fst :=
      of_decide_eq_true same ▸ mem_map_of_mem member
    rw [putEntry_keys] at found
    apply others conn.notChecked _ rfl
    split at found
    · exact .tail _ found
    · rcases mem_append.mp found with old | new
      · exact .tail _ old
      · rw [mem_singleton.mp new]
        exact .head _
  have held : ∀ action, TotalsHold
      { attr.add conn.bytes conn.sessions conn.severity.toNat with
        policyAction := action
        entries := putEntry conn attr.entries } := by
    intro action
    constructor
    · simp [totalsOf_putEntry, totals]
    · cases attr.entries <;> grind [putEntry]
  simp only [reportToLink, noneDropped]
  split
  next removed =>
    obtain ⟨sorted, _, remain, rfl⟩ := removeOldEntries_eq removed
    exact ⟨rfl, remain⟩
  · split
    · exact held _
    · exact held _

/-- The totals of every conversation are those of its entries, and no
conversation is without entries. -/
theorem conversation_totals_hold (events : List (GraphEvent × Enumeration))
    (keeps : All graphStep DropsNoBlocked (fun _ => none) events) :
    AllLinks TotalsHold (graphRun events) := by
  refine foldl_holds ?_ (by simp [AllLinks]) keeps
  rintro graph ⟨event, enum⟩ holds dropsNone
  apply holds.step
  · rintro conn rfl attr (known | rfl)
    · exact reportToLink_totals (holds _ attr known).totals (dropsNone attr known)
    · exact reportToLink_totals rfl (by simp [dpPolicyActionDeny])
  · intro attr kept _ _ remain
    exact ⟨rfl, remain⟩

def mapOrder : Enumeration := ⟨id, fun _ => .rfl⟩

def connTo (application cip : Nat) (policyAction : UInt8) (lastSeenAt : Nat) : Conn where
  clientWL := "client"
  serverWL := "server"
  gkey := { port := 80, ipproto := 6, application, cip, sip := 2 }
  bytes := 10
  sessions := 1
  threatID := 0
  severity := 0
  policyAction
  policyId := 0
  lastSeenAt

/-- A denied connection, another one that passes, and the deletion of the first
one's entry. -/
theorem conversation_totals_of_denied :
    AllLinks TotalsHold (graphRun [(.report (connTo 1001 1 5 7), mapOrder),
      (.report (connTo 1002 1 2 8), mapOrder),
      (.deleteByKey ("client", "server") (connTo 1001 1 5 7).gkey, mapOrder)]) := by
  apply conversation_totals_hold
  refine ⟨?_, ?_, trivial, trivial⟩
  · rintro attr ⟨⟩
  · rintro attr ⟨⟩ _ _
    decide

/-- A passed connection drops the blocked entry and keeps its bytes. -/
theorem conversation_keeps_dropped_bytes :
    (graphRun [(.report (connTo 1 1 5 7), mapOrder), (.report (connTo 1001 1 2 7), mapOrder)]
      ("client", "server")).map (fun attr => (attr.toGraphTotals, totalsOf attr.entries)) =
        some (⟨20, 2, 0⟩, ⟨10, 1, 0⟩) := by
  decide

end Totals

end NeuVector.Controller.Conversation
