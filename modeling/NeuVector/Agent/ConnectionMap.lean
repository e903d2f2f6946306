import NeuVector.Agent.ProfileMerge
import NeuVector.Library.Runs

/-!
# Connections that wait for their report

The agent gathers connections by key and sends a part of them in each round;
when the controller does not take a list, it is put back (`agent/timer.go`).
Each round runs by itself, so that updates and other rounds come between the
sending of a list and its answer.  The workloads, the scope and the peer that
are entered into a new connection are read by no function here.
-/

namespace NeuVector.Agent

open Controller Library

def connectionMapMax : Nat := 2048 * 16
def connectionListMax : Nat := 2048 * 4
def networkProxyMesh : String := "ProxyMeshLo"
def policyActionCheckApp : UInt8 := 3

/-- Addresses are given by their text. -/
structure Connection where
  clientIP : String
  serverIP : String
  serverPort : UInt16
  ipProto : UInt8
  application : UInt32
  ingress : Bool
  policyId : UInt32
  policyAction : UInt8
  network : String
  bytes : UInt64
  sessions : UInt32
  violates : UInt32
  lastSeenAt : UInt32
  severity : UInt8
  threatID : UInt32

/-- The parts of a key; only TCP and UDP give a port and a protocol. -/
structure ConnectionKey where
  clientIP : String
  serverIP : String
  service : Option (UInt16 × UInt8)
  ingress : Bool
  policyId : UInt32
  application : UInt32
  deriving DecidableEq

def Connection.key (conn : Connection) : ConnectionKey :=
  { clientIP := conn.clientIP, serverIP := conn.serverIP
    service :=
      if conn.ipProto = 6 ∨ conn.ipProto = 17 then some (conn.serverPort, conn.ipProto) else none
    ingress := conn.ingress, policyId := conn.policyId, application := conn.application }

abbrev ConnectionList := List (ConnectionKey × Connection)

/-- The map, and the lists whose reports are not answered yet. -/
structure ConnectionState where
  connectionMap : GoMap ConnectionKey Connection
  lists : List ConnectionList

def realSameConn (entry : Connection) (proxyMeshMac : Bool) : Bool :=
  (entry.network == networkProxyMesh) == proxyMeshMac

def Connection.add (entry conn : Connection) : Connection :=
  let entry := { entry with
    bytes := entry.bytes + conn.bytes
    sessions := entry.sessions + conn.sessions
    violates := entry.violates + conn.violates }
  if entry.lastSeenAt ≤ conn.lastSeenAt then
    { entry with
      lastSeenAt := conn.lastSeenAt, policyAction := conn.policyAction, policyId := conn.policyId }
  else entry

def Connection.raise (entry conn : Connection) : Connection :=
  if entry.severity < conn.severity then
    { entry with severity := conn.severity, threatID := conn.threatID }
  else entry

section Steps

variable (s : ConnectionState)

def ConnectionState.size : Nat := s.connectionMap.keys.length

def ConnectionState.put (item : ConnectionKey × Connection) : ConnectionState :=
  { s with connectionMap := s.connectionMap.insert item.1 item.2 }

/-- The network of a new connection is looked up by its address. -/
def updateConnectionMap (conn : Connection) (proxyMeshMac : Bool) (network : String) :
    ConnectionState :=
  match (s.connectionMap.lookup conn.key).filter (realSameConn · proxyMeshMac) with
  | some entry => s.put (conn.key, (entry.add conn).raise conn)
  | none =>
    if s.size < connectionMapMax ∨ policyActionCheckApp < conn.policyAction then
      s.put (conn.key,
        { conn with network := if proxyMeshMac then networkProxyMesh else network })
    else s

def updateHostConnection (conn : Connection) : ConnectionState :=
  match s.connectionMap.lookup conn.key with
  | some entry => s.put (conn.key, entry.add conn)
  | none => if s.size < connectionMapMax then s.put (conn.key, conn) else s

def collectConnections (order : MapOrder ConnectionKey) : ConnectionState :=
  let keys := (order.order s.connectionMap.keys).take connectionListMax
  let list := keys.filterMap fun key => (s.connectionMap.lookup key).map (key, ·)
  { connectionMap := keys.foldl (fun map key => map.erase key) s.connectionMap
    lists := if list = [] then s.lists else s.lists ++ [list] }

def ConnectionState.keep (list : ConnectionList) : Int :=
  if s.size + list.length ≤ connectionMapMax then list.length
  else (connectionMapMax : Int) - s.size

def ConnectionState.putBack (list : ConnectionList) : ConnectionState :=
  (list.take (s.keep list).toNat).foldl ConnectionState.put s

end Steps

inductive ConnectionEvent where
  | update (conn : Connection) (proxyMeshMac : Bool) (network : String)
  | updateHost (conn : Connection)
  | collect (order : MapOrder ConnectionKey)
  | answer (index : Nat) (resend : Bool)

def KeepInRange (s : ConnectionState) (list : ConnectionList) : Prop :=
  0 ≤ s.keep list ∧ s.keep list ≤ list.length

instance (s : ConnectionState) (list : ConnectionList) : Decidable (KeepInRange s list) :=
  inferInstanceAs (Decidable (_ ∧ _))

/-- Without a state the agent has panicked, for a slice out of range. -/
def connectionStep : Option ConnectionState → ConnectionEvent → Option ConnectionState
  | none, _ => none
  | some s, .update conn proxyMeshMac network =>
    some (updateConnectionMap s conn proxyMeshMac network)
  | some s, .updateHost conn => some (updateHostConnection s conn)
  | some s, .collect order => some (collectConnections s order)
  | some s, .answer index resend =>
    let rest := { s with lists := s.lists.eraseIdx index }
    match s.lists[index]? with
    | some list =>
      if resend then if KeepInRange s list then some (rest.putBack list) else none else some rest
    | none => some s

def ConnectionState.init : ConnectionState := { connectionMap := ∅, lists := [] }

/-- The condition on the state in which a list comes back. -/
def Resending (Holds : ConnectionState → ConnectionList → Prop) :
    Option ConnectionState → ConnectionEvent → Prop
  | some s, .answer index true => ∀ list, s.lists[index]? = some list → Holds s list
  | _, _ => True

/-- The number put back is in range, and the map stays within its capacity. -/
def BackInRange (s : ConnectionState) (list : ConnectionList) : Prop :=
  KeepInRange s list ∧ (s.putBack list).size ≤ connectionMapMax

theorem size_foldl_put (s : ConnectionState) (list : ConnectionList) :
    (list.foldl ConnectionState.put s).size ≤ s.size + list.length := by
  induction list generalizing s with
  | nil => exact Nat.le_refl _
  | cons item rest induction =>
    have grown : (s.put item).size ≤ s.size + 1 := by
      simp [ConnectionState.size, ConnectionState.put, AList.keys_insert, List.length_erase_le]
    have after := induction (s.put item)
    simp only [List.foldl_cons, List.length_cons]
    omega

theorem backInRange_iff (s : ConnectionState) (list : ConnectionList) :
    BackInRange s list ↔ s.size ≤ connectionMapMax := by
  have back : (s.putBack list).size ≤ s.size + (list.take (s.keep list).toNat).length :=
    size_foldl_put s _
  simp only [List.length_take] at back
  unfold BackInRange KeepInRange ConnectionState.keep at *
  split at back <;> omega

/-- What the map may hold: the part that one round takes may be above the
capacity as long as no list is on its way. -/
def ConnectionState.room (s : ConnectionState) : Nat :=
  connectionMapMax + if s.lists = [] then connectionListMax else 0

/-- A violating connection that is new finds room in the map. -/
def StoresWithin : Option ConnectionState → ConnectionEvent → Prop
  | some s, .update conn _ _ =>
    policyActionCheckApp < conn.policyAction → conn.key ∉ s.connectionMap → s.size < s.room
  | _, _ => True

def WithinRoom (state : Option ConnectionState) : Prop := ∃ s, state = some s ∧ s.size ≤ s.room

section Room

variable {s : ConnectionState} {item : ConnectionKey × Connection}

theorem size_put_new (absent : item.1 ∉ s.connectionMap) : (s.put item).size = s.size + 1 := by
  have missing : item.1 ∉ s.connectionMap.keys := absent
  simp [ConnectionState.size, ConnectionState.put, AList.keys_insert, List.erase_of_not_mem missing]

theorem size_put_known (member : item.1 ∈ s.connectionMap) : (s.put item).size = s.size := by
  have listed : item.1 ∈ s.connectionMap.keys := member
  have positive := List.length_pos_of_mem listed
  simp only [ConnectionState.size, ConnectionState.put, AList.keys_insert, List.length_cons,
    List.length_erase_of_mem listed]
  omega

theorem put_withinRoom (within : s.size ≤ s.room)
    (fits : item.1 ∉ s.connectionMap → s.size < s.room) : (s.put item).size ≤ s.room := by
  by_cases member : item.1 ∈ s.connectionMap
  · rw [size_put_known member]
    exact within
  · rw [size_put_new member]
    exact fits member

theorem room_ge (s : ConnectionState) : connectionMapMax ≤ s.room := Nat.le_add_right _ _

theorem length_keys_erase {map : GoMap ConnectionKey Connection} {taken : List ConnectionKey}
    (nodup : taken.Nodup) (known : ∀ key ∈ taken, key ∈ map.keys) :
    (taken.foldl (fun map key => map.erase key) map).keys.length + taken.length =
      map.keys.length := by
  induction taken generalizing map with
  | nil => rfl
  | cons key rest induction =>
    obtain ⟨apart, nodup⟩ := List.nodup_cons.mp nodup
    have listed := known key List.mem_cons_self
    have positive := List.length_pos_of_mem listed
    have left : ∀ other ∈ rest, other ∈ (map.erase key).keys := by
      intro other member
      have different : other ≠ key := fun same => apart (same ▸ member)
      rw [AList.keys_erase]
      exact (List.mem_erase_of_ne different).mpr (known other (List.mem_cons_of_mem _ member))
    have after := induction nodup left
    rw [AList.keys_erase, List.length_erase_of_mem listed] at after
    simp only [List.foldl_cons, List.length_cons]
    omega

/-- A round takes what it can and sends it, if there is something. -/
theorem collectConnections_size (s : ConnectionState) (order : MapOrder ConnectionKey) :
    (collectConnections s order).size = s.size - connectionListMax ∧
      ((collectConnections s order).lists = [] → s.size = 0) := by
  have perm := order.order_perm s.connectionMap.keys
  have known : ∀ key ∈ (order.order s.connectionMap.keys).take connectionListMax,
      key ∈ s.connectionMap.keys := fun key member =>
    perm.mem_iff.mp (List.mem_of_mem_take member)
  have nodup : ((order.order s.connectionMap.keys).take connectionListMax).Nodup :=
    (perm.nodup_iff.mpr s.connectionMap.nodupKeys).sublist (List.take_sublist _ _)
  have erased := length_keys_erase nodup known
  rw [List.length_take, perm.length_eq] at erased
  refine ⟨?_, ?_⟩
  · unfold ConnectionState.size collectConnections
    dsimp only
    omega
  · intro none
    unfold collectConnections at none
    dsimp only at none
    split at none
    next empty =>
      by_contra filled
      obtain ⟨key, member⟩ := List.exists_mem_of_length_pos (Nat.pos_of_ne_zero filled)
      have first : ((order.order s.connectionMap.keys).take connectionListMax) ≠ [] := by
        intro nothing
        rcases List.take_eq_nil_iff.mp nothing with zero | nothing
        · cases zero
        · rw [nothing, List.nil_perm] at perm
          rw [perm] at member
          cases member
      obtain ⟨key, chosen⟩ := List.exists_mem_of_ne_nil _ first
      obtain ⟨conn, found⟩ :=
        Option.isSome_iff_exists.mp (AList.lookup_isSome.mpr (known key chosen))
      have sent := List.filterMap_eq_nil_iff.mp empty key chosen
      simp [found] at sent
    · simp at none

theorem updateConnectionMap_withinRoom {conn : Connection} {proxyMeshMac : Bool} {network : String}
    (within : s.size ≤ s.room)
    (meets : StoresWithin (some s) (.update conn proxyMeshMac network)) :
    WithinRoom (some (updateConnectionMap s conn proxyMeshMac network)) := by
  refine ⟨_, rfl, ?_⟩
  unfold updateConnectionMap
  split
  next entry found =>
    apply put_withinRoom within
    intro absent
    simp [AList.lookup_eq_none.mpr absent] at found
  · split
    next enters =>
      apply put_withinRoom within
      intro absent
      rcases enters with free | violates
      · exact Nat.lt_of_lt_of_le free (room_ge s)
      · exact meets violates absent
    · exact within

theorem updateHostConnection_withinRoom {conn : Connection} (within : s.size ≤ s.room) :
    WithinRoom (some (updateHostConnection s conn)) := by
  refine ⟨_, rfl, ?_⟩
  unfold updateHostConnection
  split
  next entry found =>
    apply put_withinRoom within
    intro absent
    simp [AList.lookup_eq_none.mpr absent] at found
  · split
    next free => exact put_withinRoom within fun _ => Nat.lt_of_lt_of_le free (room_ge s)
    · exact within

/-- A list can only come back while it is on its way, so that the map is not
above its capacity. -/
theorem answer_within {index : Nat} {resend : Bool} (within : s.size ≤ s.room) :
    WithinRoom (connectionStep (some s) (.answer index resend)) ∧
      Resending BackInRange (some s) (.answer index resend) := by
  cases found : s.lists[index]? with
  | none =>
    refine ⟨⟨s, by simp [connectionStep, found], within⟩, ?_⟩
    cases resend with
    | false => trivial
    | true => exact fun list same => absurd (found.symm.trans same) nofun
  | some list =>
    have full : s.size ≤ connectionMapMax := by
      have busy : s.lists ≠ [] := by
        intro none
        simp [none] at found
      simpa [ConnectionState.room, busy] using within
    have back := (backInRange_iff s list).mpr full
    cases resend with
    | false =>
      refine ⟨⟨_, by simp [connectionStep, found]; rfl, ?_⟩, trivial⟩
      exact Nat.le_trans full (room_ge _)
    | true =>
      refine ⟨⟨_, by simp [connectionStep, found, back.1]; rfl, ?_⟩, ?_⟩
      · have left := (backInRange_iff { s with lists := s.lists.eraseIdx index } list).mpr full
        exact Nat.le_trans left.2 (room_ge _)
      · intro other same
        cases found.symm.trans same
        exact back

theorem connectionStep_within {state : Option ConnectionState} {event : ConnectionEvent}
    (within : WithinRoom state) (meets : StoresWithin state event) :
    WithinRoom (connectionStep state event) ∧ Resending BackInRange state event := by
  obtain ⟨s, rfl, within⟩ := within
  cases event with
  | update conn proxyMeshMac network =>
    exact ⟨updateConnectionMap_withinRoom within meets, trivial⟩
  | updateHost conn => exact ⟨updateHostConnection_withinRoom within, trivial⟩
  | collect order =>
    refine ⟨⟨_, rfl, ?_⟩, trivial⟩
    have size := (collectConnections_size s order).1
    have limit : s.room ≤ connectionMapMax + connectionListMax := by
      unfold ConnectionState.room
      split <;> omega
    have above := room_ge (collectConnections s order)
    omega
  | answer index resend => exact answer_within within

end Room

/-- In a run that stores new violating connections only while there is room,
every list that comes back is put back within range and capacity. -/
theorem resending_in_range (events : List ConnectionEvent)
    (meets : Runs.All connectionStep StoresWithin (some .init) events) :
    Runs.All connectionStep (Resending BackInRange) (some .init) events := by
  have start : WithinRoom (some .init) := ⟨.init, rfl, Nat.zero_le _⟩
  generalize some ConnectionState.init = state at start meets ⊢
  induction events generalizing state with
  | nil => trivial
  | cons event rest induction =>
    obtain ⟨within, back⟩ := connectionStep_within start meets.1
    exact ⟨back, induction _ within meets.2⟩

section Overflow

def violating (rule : Nat) : Connection :=
  { clientIP := "10.0.0.1", serverIP := "10.0.0.2", serverPort := 80, ipProto := 6
    application := 0, ingress := true, policyId := .ofNat rule, policyAction := 4, network := ""
    bytes := 0, sessions := 1, violates := 1, lastSeenAt := 0, severity := 0, threatID := 0 }

def violation (rule : Nat) : ConnectionEvent := .update (violating rule) false ""

theorem foldl_violation (s : ConnectionState) (empty : s.connectionMap = ∅) (count : Nat)
    (few : count < 4294967296) :
    ∃ after, ((List.range count).map violation).foldl connectionStep (some s) = some after ∧
      after.lists = s.lists ∧ after.size = count ∧
      ∀ key ∈ after.connectionMap, key.policyId.toNat < count := by
  induction count with
  | zero => exact ⟨s, rfl, rfl, by simp [ConnectionState.size, empty], by simp [empty]⟩
  | succ count induction =>
    obtain ⟨after, run, lists, size, below⟩ := induction (by omega)
    have number : (violating count).key.policyId.toNat = count := Nat.mod_eq_of_lt (by omega)
    have absent : (violating count).key ∉ after.connectionMap := by
      intro member
      have smaller := below _ member
      omega
    have entered : updateConnectionMap after (violating count) false "" =
        after.put ((violating count).key, violating count) := by
      simp only [updateConnectionMap, AList.lookup_eq_none.mpr absent]
      exact if_pos (Or.inr (show (3 : UInt8) < 4 by decide))
    refine ⟨after.put ((violating count).key, violating count), ?_, lists, ?_, ?_⟩
    · simp [List.range_succ, run, violation, connectionStep, entered]
    · rw [size_put_new absent, size]
    · intro key member
      rcases (AList.mem_insert _).mp member with rfl | old
      · exact Nat.lt_succ_of_le (Nat.le_of_eq number)
      · have smaller := below key old
        omega

theorem resending_in_range_violations :
    Runs.All connectionStep (Resending BackInRange) (some .init)
        [violation 0, .collect (storedOrder _), violation 1, .answer 0 true] ∧
      (([violation 0, .collect (storedOrder _), violation 1, .answer 0 true].foldl
        connectionStep (some .init)).map ConnectionState.size) = some 2 := by
  refine ⟨resending_in_range _ ⟨?_, trivial, ?_, trivial, trivial⟩, by decide⟩
  · exact fun _ _ => by decide
  · exact fun _ _ => by decide

/-- While a list is sent, as many violations come in. -/
def overflow (count : Nat) : List ConnectionEvent :=
  violation 0 :: .collect (storedOrder _) ::
    ((List.range count).map violation ++ [.answer 0 true])

theorem overflow_unsafe {count : Nat} (many : connectionMapMax < count)
    (few : count < 4294967296) :
    ¬ Runs.All connectionStep (Resending BackInRange) (some .init) (overflow count) := by
  intro safe
  obtain ⟨after, run, lists, size, -⟩ := foldl_violation
    { connectionMap := ∅, lists := [[((violating 0).key, violating 0)]] } rfl count few
  have last := Runs.All.drop safe.2.2
  have start : connectionStep (connectionStep (some .init) (violation 0))
      (.collect (storedOrder _)) =
        some { connectionMap := ∅, lists := [[((violating 0).key, violating 0)]] } := rfl
  rw [start, run] at last
  have fits := (backInRange_iff after _).mp (last.1 _ (by rw [lists]; rfl))
  omega

theorem resending_out_of_range :
    ¬ Runs.All connectionStep (Resending BackInRange) (some .init) (overflow 32769) :=
  overflow_unsafe (by decide) (by decide)

end Overflow

end NeuVector.Agent
