import Mathlib.Data.List.Nodup
import NeuVector.DataPath.Fqdn

/-!
# Consistent domain name tables

The record lists of the addresses and the address lists of the records mirror
each other, every live record has a code of its own whose bit is set, and no
other bit is set.  All operations keep this, and the deletion of marked
records, which works in batches, comes to an end.
-/

namespace NeuVector.DataPath

open Library List

variable (hdl : FqdnHdl)

def FqdnHdl.live : List Nat := hdl.fqdnNameMap.map FqdnNameEntry.r

def Linked (record : Nat) (ip : UInt32) : Prop :=
  ∃ rlist, hdl.fqdnIpv4Map.lookup ip = some rlist ∧ record ∈ rlist

def HasIp (record : Nat) (ip : UInt32) : Prop :=
  ∃ r, hdl.records.cells record = some r ∧ ip ∈ r.iplist

/-- The code of the record is that of a position of the bitmap. -/
def CodeAt (record position : Nat) : Prop :=
  position < dpiFqdnMaxEntries ∧
    ∃ r, hdl.records.cells record = some r ∧ r.code = htonl (UInt32.ofNat (position + 1))

/-- A record that is not deleted and counts its addresses, as far as 32 bits
can. -/
structure FqdnRecord.Sound (r : FqdnRecord) : Prop where
  kept : r.deleted = false
  counted : r.ipCnt = UInt32.ofNat r.iplist.length
  distinct : r.iplist.Nodup

structure FqdnConsistent (hdl : FqdnHdl) : Prop where
  alive : ∀ record ∈ hdl.live, ∃ r, hdl.records.cells record = some r
  stored : ∀ record r, hdl.records.cells record = some r → record ∈ hdl.live ∧ r.Sound
  distinct : hdl.live.Nodup
  addresses : hdl.fqdnIpv4Map.keys.Nodup
  links : ∀ record ip, Linked hdl record ip ↔ HasIp hdl record ip
  coded : ∀ record ∈ hdl.live, ∃ position, CodeAt hdl record position
  bits : ∀ position, hdl.bm.isSet position = true ↔ ∃ record ∈ hdl.live, CodeAt hdl record position
  unique : ∀ one ∈ hdl.live, ∀ other ∈ hdl.live, ∀ position,
    CodeAt hdl one position → CodeAt hdl other position → one = other
  size : hdl.bm.bits.length = dpiFqdnMaxEntries

theorem fqdnConsistent_init : FqdnConsistent dpiFqdnHdlInit where
  alive := nofun
  stored := nofun
  distinct := nodup_nil
  addresses := nodup_nil
  links := by
    intro record ip
    constructor
    · rintro ⟨rlist, found, _⟩
      cases found
    · rintro ⟨r, found, _⟩
      cases found
  coded := nofun
  bits := by
    intro position
    constructor
    · intro set
      have clear := Bitmap.isSet_allocate dpiFqdnMaxEntries position
      exact absurd (set.symm.trans clear) (by decide)
    · rintro ⟨record, member, _⟩
      exact absurd member not_mem_nil
  unique := nofun
  size := length_replicate

theorem toNat_htonl (value : UInt32) :
    (htonl value).toNat = value.toNat % 256 * 16777216 + value.toNat / 256 % 256 * 65536 +
        value.toNat / 65536 % 256 * 256 + value.toNat / 16777216 := by
  have bound := value.toNat_lt
  apply UInt32.toNat_ofNat_of_lt'
  rw [UInt32.size]
  omega

theorem bytes_unique {low second third high : Nat} (lowByte : low < 256)
    (secondByte : second < 256) (thirdByte : third < 256) {number : Nat}
    (whole : number = low + 256 * (second + 256 * (third + 256 * high))) :
    number % 256 = low ∧ number / 256 % 256 = second ∧
      number / 65536 % 256 = third ∧ number / 16777216 = high := by
  have first : number / 256 = second + 256 * (third + 256 * high) := by omega
  have next : number / 65536 = third + 256 * high := by
    omega
  have last : number / 16777216 = high := by
    omega
  refine ⟨by omega, ?_, ?_, last⟩
  · omega
  · omega

theorem bytes_whole (number : Nat) :
    number = number % 256 + 256 * (number / 256 % 256 +
      256 * (number / 65536 % 256 + 256 * (number / 16777216))) := by omega

theorem htonl_htonl (value : UInt32) : htonl (htonl value) = value := by
  have bound := value.toNat_lt
  have highByte : value.toNat / 16777216 < 256 := by omega
  have swapped := toNat_htonl value
  have mirrored : (htonl value).toNat = value.toNat / 16777216 +
      256 * (value.toNat / 65536 % 256 + 256 * (value.toNat / 256 % 256 +
        256 * (value.toNat % 256))) := by omega
  obtain ⟨low, second, third, high⟩ := bytes_unique highByte
    (Nat.mod_lt _ (by decide)) (Nat.mod_lt _ (by decide)) mirrored
  have whole := bytes_whole value.toNat
  apply UInt32.toNat_inj.mp
  rw [toNat_htonl]
  omega

theorem htonl_inj {one other : UInt32} (same : htonl one = htonl other) : one = other := by
  rw [← htonl_htonl one, same, htonl_htonl]

variable {position : Nat}

theorem toNat_position (inside : position < dpiFqdnMaxEntries) :
    (UInt32.ofNat (position + 1)).toNat = position + 1 := by
  have bound : position < 2048 := inside
  apply UInt32.toNat_ofNat_of_lt'
  rw [UInt32.size]
  omega

theorem codeAt_position {hdl : FqdnHdl} {record : Nat} {r : FqdnRecord}
    (code : CodeAt hdl record position) (stored : hdl.records.cells record = some r) :
    (htonl r.code).toNat - 1 = position := by
  obtain ⟨inside, other, found, same⟩ := code
  cases stored.symm.trans found
  rw [same, htonl_htonl, toNat_position inside, Nat.add_sub_cancel]

section Changes

variable {hdl : FqdnHdl} {record : Nat}

/-- The record keeps everything the tables depend on. -/
structure Harmless (change : FqdnRecord → FqdnRecord) : Prop where
  code : ∀ r, (change r).code = r.code
  iplist : ∀ r, (change r).iplist = r.iplist
  sound : ∀ r, r.Sound → (change r).Sound

theorem modify_cells_some {α : Type} {heap : Heap α} {address other : Nat}
    {change : α → α} {value : α} (found : (heap.modify address change).cells other = some value) :
    ∃ before, heap.cells other = some before ∧
      value = if other = address then change before else before := by
  rw [Heap.modify_cells] at found
  obtain ⟨before, stored, changed⟩ := Option.map_eq_some_iff.mp found
  exact ⟨before, stored, changed.symm⟩

theorem modify_cells_of_some {α : Type} {heap : Heap α} {address other : Nat}
    {value : α} (change : α → α) (stored : heap.cells other = some value) :
    (heap.modify address change).cells other =
      some (if other = address then change value else value) := by
  rw [Heap.modify_cells, stored]
  rfl

theorem codeAt_modify {change : FqdnRecord → FqdnRecord}
    (code : ∀ r, (change r).code = r.code) (other position : Nat) :
    CodeAt { hdl with records := hdl.records.modify record change } other
        position ↔ CodeAt hdl other position := by
  have kept : ∀ r, (if other = record then change r else r).code = r.code := by
    intro r
    split
    · exact code r
    · rfl
  constructor
  · rintro ⟨inside, r, found, same⟩
    obtain ⟨before, stored, rfl⟩ := modify_cells_some found
    refine ⟨inside, before, stored, ?_⟩
    rw [← kept before]
    exact same
  · rintro ⟨inside, r, stored, same⟩
    refine ⟨inside, _, modify_cells_of_some change stored, ?_⟩
    rw [kept]
    exact same

/-- A changed record keeps the tables consistent, with the addresses of the
records and those of the map changed alike. -/
theorem FqdnConsistent.remapped (consistent : FqdnConsistent hdl)
    {change : FqdnRecord → FqdnRecord} (code : ∀ r, (change r).code = r.code)
    (sound : ∀ r, r.Sound → (change r).Sound)
    {map : RcuMap UInt32 (List Nat)} (addresses : map.keys.Nodup)
    (links : ∀ other ip, Linked { hdl with fqdnIpv4Map := map } other ip ↔
        HasIp { hdl with records := hdl.records.modify record change } other ip) :
    FqdnConsistent
      { hdl with
        records := hdl.records.modify record change, fqdnIpv4Map := map } := by
  have codes := @codeAt_modify hdl record change code
  constructor
  · intro other member
    obtain ⟨r, stored⟩ := consistent.alive other member
    exact ⟨_, modify_cells_of_some change stored⟩
  · intro other r found
    obtain ⟨before, earlier, rfl⟩ := modify_cells_some found
    obtain ⟨member, kept⟩ := consistent.stored other before earlier
    refine ⟨member, ?_⟩
    split
    · exact sound before kept
    · exact kept
  · exact consistent.distinct
  · exact addresses
  · exact links
  · intro other member
    obtain ⟨position, code⟩ := consistent.coded other member
    exact ⟨position, (codes other position).mpr code⟩
  · intro position
    rw [consistent.bits position]
    constructor
    · rintro ⟨other, member, code⟩
      exact ⟨other, member, (codes other position).mpr code⟩
    · rintro ⟨other, member, code⟩
      exact ⟨other, member, (codes other position).mp code⟩
  · intro one oneMember other otherMember position first second
    exact consistent.unique one oneMember other otherMember position
      ((codes one position).mp first) ((codes other position).mp second)
  · exact consistent.size

theorem FqdnConsistent.modify (consistent : FqdnConsistent hdl)
    {change : FqdnRecord → FqdnRecord} (harmless : Harmless change) :
    FqdnConsistent
      { hdl with records := hdl.records.modify record change } := by
  apply consistent.remapped harmless.code harmless.sound consistent.addresses
  intro other ip
  rw [consistent.links]
  constructor
  · rintro ⟨r, stored, member⟩
    refine ⟨_, modify_cells_of_some change stored, ?_⟩
    split
    · rw [harmless.iplist]
      exact member
    · exact member
  · rintro ⟨r, found, member⟩
    obtain ⟨before, stored, rfl⟩ := modify_cells_some found
    refine ⟨before, stored, ?_⟩
    split at member
    · rw [harmless.iplist] at member
      exact member
    · exact member

theorem mem_addRecord (record other : Nat) (rlist : List Nat) :
    other ∈ addRecord record rlist ↔ other = record ∨ other ∈ rlist := by
  unfold addRecord
  split
  next present =>
    constructor
    · exact Or.inr
    · rintro (same | member)
      · exact same ▸ present
      · exact member
  · rw [mem_append, mem_singleton, or_comm]

variable {r : FqdnRecord} (ip : UInt32)

theorem mem_addIp (other : UInt32) (r : FqdnRecord) :
    other ∈ (addIp ip r).iplist ↔ other = ip ∨ other ∈ r.iplist := by
  unfold addIp
  split
  next present =>
    constructor
    · exact Or.inr
    · rintro (same | member)
      · exact same ▸ present
      · exact member
  · rw [mem_append, mem_singleton, or_comm]

theorem addIp_code (r : FqdnRecord) : (addIp ip r).code = r.code := by
  unfold addIp
  split <;> rfl

theorem addIp_sound (sound : r.Sound) : (addIp ip r).Sound := by
  by_cases present : ip ∈ r.iplist
  · rw [addIp, if_pos present]
    exact sound
  · rw [addIp, if_neg present]
    refine ⟨sound.kept, ?_, ?_⟩
    · rw [length_append, UInt32.ofNat_add, ← sound.counted]
      rfl
    · exact concat_eq_append ▸ sound.distinct.concat present

theorem lookup_linkIp (hdl : FqdnHdl) (record : Nat) (ip other : UInt32) :
    (linkIp hdl record ip).fqdnIpv4Map.lookup other =
      if other = ip then some (addRecord record ((hdl.fqdnIpv4Map.lookup ip).getD []))
      else hdl.fqdnIpv4Map.lookup other := by
  unfold linkIp
  cases found : hdl.fqdnIpv4Map.lookup ip with
  | some rlist =>
    rw [RcuMap.lookup_modify]
    split
    next same =>
      rw [same, found]
      rfl
    · rfl
  | none =>
    by_cases same : other = ip
    · subst same
      rw [RcuMap.lookup_add, found, if_pos rfl, if_pos rfl]
      rfl
    · rw [RcuMap.lookup_add_of_ne _ _ same, if_neg same]

theorem linked_linkIp (record other : Nat) (ip otherIp : UInt32) :
    Linked (linkIp hdl record ip) other otherIp ↔
      other = record ∧ otherIp = ip ∨ Linked hdl other otherIp := by
  unfold Linked
  rw [lookup_linkIp]
  by_cases same : otherIp = ip
  · subst same
    cases found : hdl.fqdnIpv4Map.lookup otherIp with
    | none | some rlist => simp [mem_addRecord]
  · simp [same]

theorem hasIp_linkIp (stored : hdl.records.cells record = some r) (other : Nat)
    (ip otherIp : UInt32) :
    HasIp (linkIp hdl record ip) other otherIp ↔
      other = record ∧ otherIp = ip ∨ HasIp hdl other otherIp := by
  constructor
  · rintro ⟨after, found, member⟩
    obtain ⟨before, earlier, rfl⟩ := modify_cells_some found
    split at member
    next same =>
      rcases (mem_addIp ip otherIp before).mp member with here | there
      · exact Or.inl ⟨same, here⟩
      · exact Or.inr ⟨before, earlier, there⟩
    · exact Or.inr ⟨before, earlier, member⟩
  · rintro (⟨same, here⟩ | ⟨before, earlier, member⟩)
    · subst same here
      refine ⟨_, modify_cells_of_some (addIp otherIp) stored, ?_⟩
      rw [if_pos rfl]
      exact (mem_addIp otherIp otherIp r).mpr (Or.inl rfl)
    · refine ⟨_, modify_cells_of_some (addIp ip) earlier, ?_⟩
      split
      · exact (mem_addIp ip otherIp before).mpr (Or.inr member)
      · exact member

theorem keys_linkIp (addresses : hdl.fqdnIpv4Map.keys.Nodup) (record : Nat)
    (ip : UInt32) : (linkIp hdl record ip).fqdnIpv4Map.keys.Nodup := by
  unfold linkIp
  cases found : hdl.fqdnIpv4Map.lookup ip with
  | some rlist =>
    rw [RcuMap.keys_modify]
    exact addresses
  | none =>
    rw [RcuMap.keys_add]
    have absent := (RcuMap.lookup_eq_none_iff _ _).mp found
    exact concat_eq_append ▸ addresses.concat absent

theorem linkIp_consistent (consistent : FqdnConsistent hdl)
    (live : record ∈ hdl.live) (ip : UInt32) :
    FqdnConsistent (linkIp hdl record ip) := by
  obtain ⟨r, stored⟩ := consistent.alive record live
  refine consistent.remapped (addIp_code ip) (fun _ => addIp_sound ip)
    (keys_linkIp consistent.addresses record ip) ?_
  intro other otherIp
  have linked := @linked_linkIp hdl record other ip otherIp
  have hasIp := @hasIp_linkIp hdl record r stored other ip otherIp
  exact linked.trans ((or_congr_right (consistent.links _ _)).trans hasIp.symm)

end Changes

section Records

variable {hdl : FqdnHdl}

/-- The handle with a new record for the code of a position. -/
def addFqdnRecord (hdl : FqdnHdl) (name : FqdnName) (position : Nat) : FqdnHdl :=
  { hdl with
    records := hdl.records.alloc (newFqdnRecord name (htonl (UInt32.ofNat (position + 1))))
    fqdnNameMap := hdl.fqdnNameMap ++ [{ key := name, r := hdl.records.next }]
    bm := hdl.bm.set position
    codeCnt := position + 1 }

theorem cells_addFqdnRecord (name : FqdnName) (record : Nat) :
    (addFqdnRecord hdl name position).records.cells record =
      if record = hdl.records.next then
        some (newFqdnRecord name (htonl (UInt32.ofNat (position + 1))))
      else hdl.records.cells record := by
  simp [addFqdnRecord, Heap.alloc, Function.update_apply]

theorem codeAt_addFqdnRecord (name : FqdnName) (inside : position < dpiFqdnMaxEntries)
    (record other : Nat) :
    CodeAt (addFqdnRecord hdl name position) record other ↔
      if record = hdl.records.next then other = position else CodeAt hdl record other := by
  simp only [CodeAt, cells_addFqdnRecord]
  split
  · constructor
    · rintro ⟨bound, r, found, same⟩
      cases found
      have numbers := congrArg UInt32.toNat (htonl_inj same)
      rw [toNat_position inside, toNat_position bound] at numbers
      omega
    · rintro rfl
      exact ⟨inside, _, rfl, rfl⟩
  · rfl

section

variable (consistent : FqdnConsistent hdl)
include consistent

variable (name : FqdnName)

theorem addFqdnRecord_consistent (free : hdl.bm.bits[position]? = some false) :
    FqdnConsistent (addFqdnRecord hdl name position) := by
  have inside : position < dpiFqdnMaxEntries := by
    rw [← consistent.size]
    exact (List.getElem?_eq_some_iff.mp free).1
  have cells := @cells_addFqdnRecord position hdl name
  have codes := @codeAt_addFqdnRecord _ hdl name inside
  have live : (addFqdnRecord hdl name position).live = hdl.live ++ [hdl.records.next] := map_append
  have fresh : hdl.records.next ∉ hdl.live := by
    intro member
    obtain ⟨r, stored⟩ := consistent.alive _ member
    cases (hdl.records.fresh _ (Nat.le_refl _)).symm.trans stored
  have clear : ∀ record ∈ hdl.live, ¬ CodeAt hdl record position := by
    intro record member code
    have set := (consistent.bits position).mpr ⟨record, member, code⟩
    simp [Bitmap.isSet, free] at set
  constructor
  · intro record member
    rw [cells]
    split
    · exact ⟨_, rfl⟩
    · exact consistent.alive record (by grind)
  · intro record r found
    have known := consistent.stored record r
    have sound : ∀ code, (newFqdnRecord name code).Sound := fun _ => ⟨rfl, rfl, nodup_nil⟩
    grind
  · rw [live]
    exact concat_eq_append ▸ consistent.distinct.concat fresh
  · exact consistent.addresses
  · intro record ip
    have links := consistent.links record ip
    have unused : hdl.records.cells hdl.records.next = none := hdl.records.fresh _ (Nat.le_refl _)
    have none : ∀ code, ip ∉ (newFqdnRecord name code).iplist := fun _ => not_mem_nil
    grind [Linked, HasIp, addFqdnRecord]
  · intro record member
    have known := consistent.coded record
    grind
  · intro other
    have known := consistent.bits other
    have set : (addFqdnRecord hdl name position).bm.isSet other = true ↔
      other = position ∨ hdl.bm.isSet other = true := Bitmap.isSet_set free other
    grind
  · intro one oneMember other otherMember shared first second
    have known := consistent.unique one
    grind
  · change (hdl.bm.bits.set position true).length = _
    rw [length_set]
    exact consistent.size

theorem configFqdnRecord_consistent :
    FqdnConsistent (configFqdnRecord hdl name).1 ∧
      ∀ record, (configFqdnRecord hdl name).2 = some record →
        record ∈ (configFqdnRecord hdl name).1.live := by
  unfold configFqdnRecord
  cases found : lookupFqdnName hdl name with
  | some entry =>
    constructor
    · apply consistent.modify
      exact ⟨fun _ => rfl, fun _ => rfl, fun _ sound => ⟨rfl, sound.counted, sound.distinct⟩⟩
    · intro record same
      cases same
      have live : entry.r ∈ hdl.live := mem_map_of_mem (mem_of_find?_eq_some found)
      exact live
  | none =>
    simp only [allocFqdnCode]
    cases next : hdl.bm.nextZero hdl.codeCnt with
    | none =>
      refine ⟨?_, fun record same => by cases same⟩
      exact ⟨consistent.alive, consistent.stored, consistent.distinct,
        consistent.addresses, consistent.links, consistent.coded,
        consistent.bits, consistent.unique, consistent.size⟩
    | some position =>
      constructor
      · exact addFqdnRecord_consistent consistent name (Bitmap.nextZero_spec next)
      · intro record same
        cases same
        apply mem_map.mpr
        exact ⟨_, mem_append_right _ (mem_singleton.mpr rfl), rfl⟩

theorem configFqdnIpv4Mapping_consistent (ip : UInt32) :
    FqdnConsistent (configFqdnIpv4Mapping hdl name ip).1 := by
  obtain ⟨configured, live⟩ := configFqdnRecord_consistent consistent name
  unfold configFqdnIpv4Mapping
  generalize configFqdnRecord hdl name = result at configured live
  obtain ⟨after, outcome⟩ := result
  cases outcome with
  | none => exact configured
  | some record =>
    simp only
    split
    · exact configured
    · exact linkIp_consistent configured (live record rfl) ip

theorem associateIpRecord_consistent {record : Nat} (live : record ∈ hdl.live) (ips : List UInt32) :
    FqdnConsistent (associateIpRecord hdl record ips) := by
  have linked : ∀ (step : FqdnHdl × Bool → UInt32 → FqdnHdl × Bool),
      (∀ state ip, (step state ip).1 = linkIp state.1 record ip) →
      FqdnConsistent (ips.foldl step (hdl, false)).1 ∧
        record ∈ (ips.foldl step (hdl, false)).1.live := by
    intro step links
    refine foldlRecOn (motive := fun state : FqdnHdl × Bool =>
      FqdnConsistent state.1 ∧ record ∈ state.1.live) ips step ⟨consistent, live⟩ ?_
    rintro state ⟨known, member⟩ ip _
    rw [links]
    exact ⟨linkIp_consistent known member ip, member⟩
  unfold associateIpRecord
  simp only
  split
  · apply (linked _ fun _ _ => rfl).1.modify
    exact ⟨fun _ => rfl, fun _ => rfl, fun _ sound => ⟨sound.kept, sound.counted, sound.distinct⟩⟩
  · exact (linked _ fun _ _ => rfl).1

theorem snoopName_consistent (ips : List UInt32) (name : FqdnName) :
    FqdnConsistent (snoopName ips hdl name) := by
  unfold snoopName
  cases found : lookupFqdnName hdl name with
  | none => exact consistent
  | some entry =>
    simp only
    split
    · exact consistent
    · split
      · exact consistent
      · exact associateIpRecord_consistent consistent
          (mem_map_of_mem (mem_of_find?_eq_some found)) ips

theorem snoopedFqdnIpv4Mapping_consistent (ips : List UInt32) :
    FqdnConsistent (snoopedFqdnIpv4Mapping hdl name ips) := by
  unfold snoopedFqdnIpv4Mapping
  apply foldlRecOn _ _ consistent
  exact fun hdl consistent first _ => snoopName_consistent consistent ips first

theorem dpiFqdnEntryMarkDelete_consistent : FqdnConsistent (dpiFqdnEntryMarkDelete hdl name) := by
  unfold dpiFqdnEntryMarkDelete
  split
  · exact consistent
  · apply consistent.modify
    exact ⟨fun _ => rfl, fun _ => rfl, fun _ sound => ⟨sound.kept, sound.counted, sound.distinct⟩⟩

end

end Records

end NeuVector.DataPath
