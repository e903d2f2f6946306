import Mathlib.Data.List.Perm.Basic
import NeuVector.DataPath.FqdnTables

/-!
# Deletion of marked domain names

A batch takes up to 32 marked records out of the name map, removes them from
the record lists of all addresses, and frees them with their codes.  Each
batch keeps the tables consistent, and every further batch finds fewer names.
-/

namespace NeuVector.DataPath

open Library List

structure Batch (records : Heap FqdnRecord)
    (entries kept taken : List FqdnNameEntry) (more : Bool) : Prop where
  perm : (kept ++ taken).Perm entries
  rest : more = false → ∀ entry ∈ kept, isMarked records entry.r = false

theorem checkFqdnNames_batch (records : Heap FqdnRecord) (entries queue : List FqdnNameEntry) :
    let pass := checkFqdnNames records entries queue
    ∃ taken, pass.2.1 = queue ++ taken ∧ Batch records entries pass.1 taken pass.2.2 ∧
      (pass.2.2 = true → (queue ++ taken).length = dpiFqdnDeleteQlen) := by
  induction entries generalizing queue with
  | nil =>
    refine ⟨[], (append_nil queue).symm, ⟨List.Perm.nil, ?_⟩, ?_⟩
    · exact fun _ _ member => absurd member not_mem_nil
    · intro more
      cases more
  | cons entry rest induction =>
    unfold checkFqdnNames
    by_cases marked : isMarked records entry.r = true
    · by_cases full : queue.length = dpiFqdnDeleteQlen
      · simp only [if_pos marked, if_pos full]
        refine ⟨[], (append_nil queue).symm, ⟨?_, ?_⟩, ?_⟩
        · rw [append_nil]
        · intro more
          cases more
        · intro _
          rw [append_nil]
          exact full
      · simp only [if_pos marked, if_neg full]
        obtain ⟨taken, queued, batch, limit⟩ := induction (queue ++ [entry])
        have split : queue ++ [entry] ++ taken = queue ++ (entry :: taken) := by simp
        rw [split] at queued limit
        refine ⟨entry :: taken, queued, ⟨?_, batch.rest⟩, limit⟩
        exact perm_middle.trans (batch.perm.cons entry)
    · simp only [if_neg marked]
      obtain ⟨taken, queued, batch, limit⟩ := induction queue
      refine ⟨taken, queued, ⟨batch.perm.cons entry, ?_⟩, limit⟩
      intro finished other member
      rcases mem_cons.mp member with rfl | later
      · exact Bool.eq_false_iff.mpr marked
      · exact batch.rest finished other later

section Sweep

variable {records : Heap FqdnRecord}

/-- The list of an address without the deleted records, if any are left. -/
def survivors (records : Heap FqdnRecord) (rlist : List Nat) : Option (List Nat) :=
  let rlist := rlist.filter fun record => !isDeleted records record
  if rlist = [] then none else some rlist

def swept (records : Heap FqdnRecord) (entries : List (UInt32 × List Nat)) :
    List (UInt32 × List Nat) :=
  entries.filterMap fun entry => (survivors records entry.2).map (Prod.mk entry.1)

theorem swept_cons (ip : UInt32) (rlist : List Nat) (rest : List (UInt32 × List Nat)) :
    swept records ((ip, rlist) :: rest) =
      let kept := rlist.filter fun record => !isDeleted records record
      if kept = [] then swept records rest else (ip, kept) :: swept records rest := by
  by_cases empty : (rlist.filter fun record => !isDeleted records record) = []
  · simp only [swept, survivors, filterMap_cons, empty, if_true, Option.map_none]
  · simp only [swept, survivors, filterMap_cons, empty, if_false, Option.map_some]

/-- A pass does part of the sweep, and all of it unless it asks for more, in
which case it has filled its queue. -/
theorem checkFqdnIpv4s_spec (entries : List (UInt32 × List Nat)) (queued : Nat) :
    let pass := checkFqdnIpv4s records entries queued
    swept records pass.1 = swept records entries ∧
      (pass.2 = false → pass.1 = swept records entries) ∧
      (pass.2 = true → pass.1.length + dpiFqdnDeleteQlen = entries.length + queued) := by
  induction entries generalizing queued with
  | nil =>
    refine ⟨rfl, fun _ => rfl, ?_⟩
    intro more
    cases more
  | cons entry rest induction =>
    obtain ⟨ip, rlist⟩ := entry
    unfold checkFqdnIpv4s
    have cons := @swept_cons records ip rlist rest
    by_cases empty : rlist.filter (fun record => !isDeleted records record) = []
    · have gone := cons.trans (if_pos empty)
      by_cases full : queued = dpiFqdnDeleteQlen
      · simp only [if_pos empty, if_pos full]
        refine ⟨?_, ?_, ?_⟩
        · rw [gone]
          exact (swept_cons ip [] rest).trans (if_pos rfl)
        · intro more
          cases more
        · intro _
          rw [length_cons, length_cons, full]
      · simp only [if_pos empty, if_neg full]
        obtain ⟨same, finished, limit⟩ := induction (queued + 1)
        rw [gone]
        refine ⟨same, finished, ?_⟩
        intro more
        have count := limit more
        rw [length_cons]
        omega
    · simp only [if_neg empty]
      obtain ⟨same, finished, limit⟩ := induction queued
      have left := cons.trans (if_neg empty)
      refine ⟨?_, ?_, ?_⟩
      · simp only [left, swept_cons, filter_filter, Bool.and_self, same, if_neg empty]
      · intro more
        rw [left, finished more]
      · intro more
        have count := limit more
        rw [length_cons, length_cons]
        omega

theorem ipv4Round_decreasing (records : Heap FqdnRecord) :
    Loop.Decreasing (ipv4Round records) length := by
  intro entries next body
  have limit := (@checkFqdnIpv4s_spec records entries 0).2.2
  unfold ipv4Round at body
  split at body
  next kept result =>
    cases body
    have count := limit (by rw [result])
    rw [result] at count
    have size : dpiFqdnDeleteQlen = 32 := rfl
    simp only at count
    omega
  · cases body

theorem sweepIpv4s_eq (records : Heap FqdnRecord) (entries : List (UInt32 × List Nat)) :
    sweepIpv4s records entries = swept records entries := by
  apply Loop.run_meets (fun current => swept records current = swept records entries)
    (fun final => final = swept records entries) (ipv4Round_decreasing records)
  · intro current same
    obtain ⟨kept, finished, _⟩ := @checkFqdnIpv4s_spec records current 0
    unfold ipv4Round
    split
    next next result =>
      rw [result] at kept
      exact kept.trans same
    next final result =>
      rw [result] at finished
      exact (finished rfl).trans same
  · rfl

theorem swept_keys (records : Heap FqdnRecord) (entries : List (UInt32 × List Nat)) :
    ((swept records entries).map Prod.fst).Sublist (entries.map Prod.fst) := by
  induction entries with
  | nil => exact List.Sublist.slnil
  | cons entry rest induction =>
    unfold swept at induction ⊢
    rw [filterMap_cons]
    cases survivors records entry.2 with
    | none => exact induction.cons entry.1
    | some rlist => exact induction.cons_cons entry.1

theorem mem_survivors {rlist left : List Nat}
    (result : survivors records rlist = some left) (record : Nat) :
    record ∈ left ↔ record ∈ rlist ∧ isDeleted records record = false := by
  unfold survivors at result
  simp only at result
  split at result
  · cases result
  · cases result
    simp

theorem survivors_of_mem {rlist : List Nat} {record : Nat}
    (member : record ∈ rlist) (kept : isDeleted records record = false) :
    ∃ left, survivors records rlist = some left := by
  unfold survivors
  rw [if_neg]
  · exact ⟨_, rfl⟩
  · intro empty
    have inside : record ∈ rlist.filter fun record =>
        !isDeleted records record :=
      mem_filter.mpr ⟨member, by simp [kept]⟩
    rw [empty] at inside
    exact absurd inside not_mem_nil

end Sweep

variable {queue : List FqdnNameEntry} {hdl : FqdnHdl}

section Freeing

theorem markDeleted_cells (queue : List FqdnNameEntry) (records : Heap FqdnRecord) (record : Nat) :
    (markDeleted queue records).cells record =
      if record ∈ queue.map FqdnNameEntry.r then
        (records.cells record).map fun r => { r with deleted := true }
      else records.cells record := by
  unfold markDeleted
  induction queue generalizing records with
  | nil => simp
  | cons entry rest induction =>
    rw [foldl_cons, induction]
    by_cases same : record = entry.r
    · subst same
      rw [Heap.modify_cells_self, map_cons]
      cases records.cells entry.r with
      | none | some r => simp
    · rw [Heap.modify_cells_of_ne _ _ same]
      simp [same]

theorem freeFqdnNames_tables (queue : List FqdnNameEntry) (hdl : FqdnHdl) :
    (queue.foldl freeFqdnName hdl).fqdnNameMap = hdl.fqdnNameMap ∧
      (queue.foldl freeFqdnName hdl).fqdnIpv4Map = hdl.fqdnIpv4Map ∧
      (queue.foldl freeFqdnName hdl).bm.bits.length = hdl.bm.bits.length := by
  induction queue generalizing hdl with
  | nil => exact ⟨rfl, rfl, rfl⟩
  | cons entry rest induction =>
    obtain ⟨names, addresses, size⟩ := induction (freeFqdnName hdl entry)
    refine ⟨names, addresses, size.trans ?_⟩
    unfold freeFqdnName
    split
    · rfl
    · exact length_set

theorem freeFqdnNames_cells (queue : List FqdnNameEntry) (hdl : FqdnHdl) (record : Nat) :
    (queue.foldl freeFqdnName hdl).records.cells record =
      if record ∈ queue.map FqdnNameEntry.r then none
      else hdl.records.cells record := by
  induction queue generalizing hdl with
  | nil => simp
  | cons entry rest induction =>
    rw [foldl_cons, induction]
    by_cases same : record = entry.r
    · subst same
      simp [freeFqdnName]
    · simp only [map_cons, mem_cons, same, false_or]
      rw [show (freeFqdnName hdl entry).records.cells record =
        hdl.records.cells record from hdl.records.free_cells_of_ne same]

theorem freeFqdnNames_bits (distinct : (queue.map FqdnNameEntry.r).Nodup) (position : Nat) :
    (queue.foldl freeFqdnName hdl).bm.isSet position = true ↔ hdl.bm.isSet position = true ∧
        ∀ entry ∈ queue, ∀ r, hdl.records.cells entry.r = some r →
          position ≠ (htonl r.code).toNat - 1 := by
  induction queue generalizing hdl with
  | nil => simp
  | cons entry rest induction =>
    obtain ⟨fresh, restDistinct⟩ := nodup_cons.mp distinct
    have others : ∀ other ∈ rest, (freeFqdnName hdl entry).records.cells other.r =
          hdl.records.cells other.r := by
      intro other member
      apply hdl.records.free_cells_of_ne
      intro same
      exact fresh (same ▸ mem_map_of_mem member)
    have first : (freeFqdnName hdl entry).bm.isSet position = true ↔ hdl.bm.isSet position = true ∧
          ∀ r, hdl.records.cells entry.r = some r → position ≠ (htonl r.code).toNat - 1 := by
      unfold freeFqdnName
      cases stored : hdl.records.cells entry.r with
      | none => simp
      | some r =>
        simp only [freeFqdnCode, Bitmap.isSet_clear, Option.some.injEq, forall_eq']
        exact and_comm
    rw [foldl_cons, induction restDistinct, first, forall_mem_cons, and_assoc]
    apply and_congr_right
    intro _
    apply and_congr_right
    intro _
    apply forall₂_congr
    intro other member
    rw [others other member]

end Freeing

section Batches

variable {hdl after : FqdnHdl} {gone : List Nat}

/-- What is left of the tables without the records of a batch. -/
structure BatchReleased (hdl : FqdnHdl) (gone : List Nat) (after : FqdnHdl) : Prop where
  live : (after.live ++ gone).Perm hdl.live
  cells : ∀ record, after.records.cells record =
    if record ∈ gone then none else hdl.records.cells record
  links : ∀ record ip, Linked after record ip ↔ Linked hdl record ip ∧ record ∉ gone
  addresses : after.fqdnIpv4Map.keys.Nodup
  bits : ∀ position, after.bm.isSet position = true ↔
    hdl.bm.isSet position = true ∧ ∀ record ∈ gone, ¬ CodeAt hdl record position
  size : after.bm.bits.length = hdl.bm.bits.length

section

variable (released : BatchReleased hdl gone after)
include released

theorem BatchReleased.mem_live (consistent : FqdnConsistent hdl) (record : Nat) :
    record ∈ after.live ↔ record ∈ hdl.live ∧ record ∉ gone := by
  have distinct := (released.live.nodup_iff).mpr consistent.distinct
  obtain ⟨_, _, apart⟩ := nodup_append.mp distinct
  rw [← released.live.mem_iff, mem_append]
  constructor
  · intro member
    exact ⟨Or.inl member, fun taken => apart _ member _ taken rfl⟩
  · rintro ⟨member | taken, kept⟩
    · exact member
    · exact absurd taken kept

theorem BatchReleased.codeAt {record : Nat} (kept : record ∉ gone) (position : Nat) :
    CodeAt after record position ↔ CodeAt hdl record position := by
  unfold CodeAt
  rw [released.cells record, if_neg kept]

theorem BatchReleased.consistent (consistent : FqdnConsistent hdl) : FqdnConsistent after := by
  have live := released.mem_live consistent
  constructor
  · intro record member
    obtain ⟨old, kept⟩ := (live record).mp member
    rw [released.cells record, if_neg kept]
    exact consistent.alive record old
  · intro record r found
    rw [released.cells record] at found
    split at found
    · cases found
    next kept =>
      obtain ⟨old, sound⟩ := consistent.stored record r found
      exact ⟨(live record).mpr ⟨old, kept⟩, sound⟩
  · have distinct := (released.live.nodup_iff).mpr consistent.distinct
    exact (nodup_append.mp distinct).1
  · exact released.addresses
  · intro record ip
    rw [released.links, consistent.links]
    unfold HasIp
    rw [released.cells record]
    by_cases taken : record ∈ gone
    · simp [taken]
    · simp [taken]
  · intro record member
    obtain ⟨old, kept⟩ := (live record).mp member
    obtain ⟨position, code⟩ := consistent.coded record old
    exact ⟨position, (released.codeAt kept position).mpr code⟩
  · intro position
    rw [released.bits, consistent.bits]
    constructor
    · rintro ⟨⟨record, old, code⟩, others⟩
      have kept : record ∉ gone := fun taken => others record taken code
      exact ⟨record, (live record).mpr ⟨old, kept⟩, (released.codeAt kept position).mpr code⟩
    · rintro ⟨record, member, code⟩
      obtain ⟨old, kept⟩ := (live record).mp member
      have before := (released.codeAt kept position).mp code
      refine ⟨⟨record, old, before⟩, ?_⟩
      intro other taken shared
      have otherLive : other ∈ hdl.live := released.live.mem_iff.mp (mem_append_right _ taken)
      have same := consistent.unique other otherLive record old position shared before
      exact kept (same ▸ taken)
  · intro one oneMember other otherMember position first second
    obtain ⟨oneOld, oneKept⟩ := (live one).mp oneMember
    obtain ⟨otherOld, otherKept⟩ := (live other).mp otherMember
    exact consistent.unique one oneOld other otherOld position
      ((released.codeAt oneKept position).mp first) ((released.codeAt otherKept position).mp second)
  · exact released.size.trans consistent.size

end

def releaseBatch (hdl : FqdnHdl) (kept queue : List FqdnNameEntry) : FqdnHdl :=
  let records := markDeleted queue hdl.records
  let hdl := { hdl with records := records, fqdnNameMap := kept }
  if queue.isEmpty then hdl
  else
    queue.foldl freeFqdnName
      { hdl with fqdnIpv4Map := ⟨sweepIpv4s records hdl.fqdnIpv4Map.entries⟩ }

theorem releaseBatch_names (hdl : FqdnHdl) (kept queue : List FqdnNameEntry) :
    (releaseBatch hdl kept queue).fqdnNameMap = kept := by
  unfold releaseBatch
  split
  · rfl
  · exact (freeFqdnNames_tables queue _).1

section

variable (consistent : FqdnConsistent hdl)
include consistent

section

variable (inside : ∀ record ∈ queue.map FqdnNameEntry.r, record ∈ hdl.live)
include inside

theorem isDeleted_markDeleted (record : Nat) :
    isDeleted (markDeleted queue hdl.records) record = false ↔
      record ∉ queue.map FqdnNameEntry.r := by
  unfold isDeleted
  rw [markDeleted_cells]
  by_cases taken : record ∈ queue.map FqdnNameEntry.r
  · obtain ⟨r, stored⟩ := consistent.alive record (inside record taken)
    rw [stored]
    simp [taken]
  · cases stored : hdl.records.cells record with
    | none => simp [taken]
    | some r =>
      have sound := (consistent.stored record r stored).2
      simp [taken, sound.kept]

theorem linked_swept (record : Nat) (ip : UInt32) :
    (∃ rlist, (RcuMap.mk (swept (markDeleted queue hdl.records)
        hdl.fqdnIpv4Map.entries)).lookup ip = some rlist ∧
      record ∈ rlist) ↔
      Linked hdl record ip ∧ record ∉ queue.map FqdnNameEntry.r := by
  have deleted := isDeleted_markDeleted consistent inside
  have left : (RcuMap.mk (swept (markDeleted queue hdl.records)
      hdl.fqdnIpv4Map.entries)).lookup ip = (hdl.fqdnIpv4Map.lookup ip).bind
        (survivors (markDeleted queue hdl.records)) :=
    RcuMap.lookup_filterMap consistent.addresses ip
  rw [left]
  constructor
  · rintro ⟨left, found, member⟩
    obtain ⟨rlist, stored, result⟩ := Option.bind_eq_some_iff.mp found
    obtain ⟨old, kept⟩ := (mem_survivors result record).mp member
    exact ⟨⟨rlist, stored, old⟩, (deleted record).mp kept⟩
  · rintro ⟨⟨rlist, stored, old⟩, kept⟩
    have notDeleted := (deleted record).mpr kept
    obtain ⟨left, result⟩ := survivors_of_mem old notDeleted
    refine ⟨left, ?_, (mem_survivors result record).mpr ⟨old, notDeleted⟩⟩
    rw [stored]
    exact result

theorem freed_bits (position : Nat) :
    (∀ entry ∈ queue, ∀ r, (markDeleted queue hdl.records).cells entry.r = some r →
          position ≠ (htonl r.code).toNat - 1) ↔
      ∀ record ∈ queue.map FqdnNameEntry.r, ¬ CodeAt hdl record position := by
  constructor
  · intro different record taken code
    obtain ⟨entry, member, same⟩ := mem_map.mp taken
    subst same
    obtain ⟨r, stored⟩ := consistent.alive _ (inside _ taken)
    apply different entry member { r with deleted := true }
    · rw [markDeleted_cells, if_pos taken, stored]
      rfl
    · exact (codeAt_position code stored).symm
  · intro codes entry member marked found same
    have taken : entry.r ∈ queue.map FqdnNameEntry.r := mem_map_of_mem member
    rw [markDeleted_cells, if_pos taken] at found
    obtain ⟨r, stored, changed⟩ := Option.map_eq_some_iff.mp found
    subst changed
    obtain ⟨other, code⟩ := consistent.coded _ (inside _ taken)
    apply codes entry.r taken
    rw [same]
    have here : (htonl r.code).toNat - 1 = other := codeAt_position code stored
    rw [here]
    exact code

end

theorem releaseBatch_released {kept : List FqdnNameEntry}
    (perm : (kept ++ queue).Perm hdl.fqdnNameMap) :
    BatchReleased hdl (queue.map FqdnNameEntry.r) (releaseBatch hdl kept queue) := by
  have lives : (kept.map FqdnNameEntry.r ++ queue.map FqdnNameEntry.r).Perm hdl.live := by
    rw [← map_append]
    exact perm.map FqdnNameEntry.r
  have inside : ∀ record ∈ queue.map FqdnNameEntry.r, record ∈ hdl.live := fun record taken =>
    lives.mem_iff.mp (mem_append_right _ taken)
  have distinct : (queue.map FqdnNameEntry.r).Nodup :=
    (nodup_append.mp (lives.nodup_iff.mpr consistent.distinct)).2.1
  have live : ((releaseBatch hdl kept queue).live ++ queue.map FqdnNameEntry.r).Perm hdl.live := by
    unfold FqdnHdl.live
    rw [releaseBatch_names]
    exact lives
  cases queue with
  | nil =>
    refine ⟨live, ?_, ?_, consistent.addresses, ?_, rfl⟩
    · intro record
      rfl
    · intro record ip
      exact (and_iff_left not_mem_nil).symm
    · intro position
      exact (and_iff_left (fun _ member => absurd member not_mem_nil)).symm
  | cons entry rest =>
    obtain ⟨_, addresses, size⟩ := freeFqdnNames_tables (entry :: rest)
      { hdl with
        records := markDeleted (entry :: rest) hdl.records
        fqdnNameMap := kept
        fqdnIpv4Map := ⟨sweepIpv4s (markDeleted (entry :: rest) hdl.records)
          hdl.fqdnIpv4Map.entries⟩ }
    have sweeping : (releaseBatch hdl kept (entry :: rest)).fqdnIpv4Map =
        ⟨swept (markDeleted (entry :: rest) hdl.records) hdl.fqdnIpv4Map.entries⟩ :=
      addresses.trans (congrArg RcuMap.mk (sweepIpv4s_eq _ _))
    refine ⟨live, ?_, ?_, ?_, ?_, size⟩
    · intro record
      refine (freeFqdnNames_cells (entry :: rest) _ record).trans ?_
      split
      · rfl
      next stays => exact (markDeleted_cells _ _ _).trans (if_neg stays)
    · intro record ip
      rw [← linked_swept consistent inside]
      unfold Linked
      rw [sweeping]
    · have keys := swept_keys (markDeleted (entry :: rest) hdl.records) hdl.fqdnIpv4Map.entries
      rw [sweeping]
      exact keys.nodup consistent.addresses
    · intro position
      rw [← freed_bits consistent inside position]
      exact freeFqdnNames_bits distinct position

end

theorem nameRound_eq (hdl : FqdnHdl) :
    nameRound hdl =
      let pass := checkFqdnNames hdl.records hdl.fqdnNameMap []
      if pass.2.2 then .next (releaseBatch hdl pass.1 pass.2.1)
      else .stop (releaseBatch hdl pass.1 pass.2.1) := rfl

theorem nameRound_decreasing : Loop.Decreasing nameRound fun hdl => hdl.fqdnNameMap.length := by
  intro hdl next body
  obtain ⟨taken, queued, batch, limit⟩ := checkFqdnNames_batch hdl.records hdl.fqdnNameMap []
  simp only [nameRound_eq] at body
  split at body
  next more =>
    cases body
    have size := limit more
    have count := batch.perm.length_eq
    rw [length_append] at count
    simp only [releaseBatch_names]
    have full : dpiFqdnDeleteQlen = 32 := rfl
    rw [nil_append] at size
    omega
  · cases body

def Unmarked (hdl : FqdnHdl) : Prop := ∀ record ∈ hdl.live, isMarked hdl.records record = false

theorem nameRound_consistent (consistent : FqdnConsistent hdl) :
    (nameRound hdl).Meets FqdnConsistent (fun after => FqdnConsistent after ∧ Unmarked after) := by
  obtain ⟨taken, queued, batch, _⟩ := checkFqdnNames_batch hdl.records hdl.fqdnNameMap []
  have perm := batch.perm
  rw [← nil_append taken, ← queued] at perm
  have released := releaseBatch_released consistent perm
  have result := released.consistent consistent
  simp only [nameRound_eq]
  split
  · exact result
  next finished =>
    refine ⟨result, ?_⟩
    intro record member
    have kept := ((released.mem_live consistent record).mp member).2
    unfold FqdnHdl.live at member
    rw [releaseBatch_names] at member
    obtain ⟨entry, inside, same⟩ := mem_map.mp member
    subst same
    unfold isMarked
    rw [released.cells, if_neg kept]
    exact batch.rest (Bool.eq_false_iff.mpr finished) entry inside

theorem dpiFqdnEntryDeleteMarked_consistent (consistent : FqdnConsistent hdl) :
    FqdnConsistent (dpiFqdnEntryDeleteMarked hdl) ∧ Unmarked (dpiFqdnEntryDeleteMarked hdl) :=
  Loop.run_meets FqdnConsistent (fun after => FqdnConsistent after ∧ Unmarked after)
    nameRound_decreasing (fun _ before => nameRound_consistent before)
    consistent

end Batches

theorem fqdnStep_consistent (consistent : FqdnConsistent hdl)
    (event : FqdnEvent) : FqdnConsistent (fqdnStep hdl event) := by
  cases event with
  | config name ip => exact configFqdnIpv4Mapping_consistent consistent name ip
  | snooped name ips => exact snoopedFqdnIpv4Mapping_consistent consistent name ips
  | mark name => exact dpiFqdnEntryMarkDelete_consistent consistent name
  | deleteMarked => exact (dpiFqdnEntryDeleteMarked_consistent consistent).1

theorem fqdnRun_consistent (consistent : FqdnConsistent hdl)
    (events : List FqdnEvent) : FqdnConsistent (fqdnRun hdl events) := by
  apply foldlRecOn events fqdnStep consistent
  exact fun hdl consistent event _ => fqdnStep_consistent consistent event

theorem FqdnConsistent.codes_distinct (consistent : FqdnConsistent hdl)
    {one other : Nat} (oneLive : one ∈ hdl.live) (otherLive : other ∈ hdl.live)
    (same : codeOf hdl one = codeOf hdl other) : one = other := by
  obtain ⟨position, inside, r, stored, code⟩ := consistent.coded one oneLive
  obtain ⟨r', found⟩ := consistent.alive other otherLive
  unfold codeOf at same
  rw [stored, found] at same
  have equal : r.code = r'.code := Option.some.inj same
  exact consistent.unique one oneLive other otherLive position
    ⟨inside, r, stored, code⟩ ⟨inside, r', found, equal.symm.trans code⟩

/-- The tables after any run, and the end of the deletion from there.  The
counter of the addresses has 32 bits. -/
theorem fqdn_tables_consistent (events : List FqdnEvent) :
    let hdl := fqdnRun dpiFqdnHdlInit events
    (∀ record ip, Linked hdl record ip ↔ HasIp hdl record ip) ∧
      (∀ record r, hdl.records.cells record = some r →
        r.iplist.Nodup ∧ r.ipCnt.toNat = r.iplist.length % UInt32.size) ∧
      (∀ one ∈ hdl.live, ∀ other ∈ hdl.live, codeOf hdl one = codeOf hdl other → one = other) ∧
      (∀ record ∈ hdl.live, ∃ position, hdl.bm.isSet position = true ∧ CodeAt hdl record position) ∧
      (∀ position, hdl.bm.isSet position = true → ∃ record ∈ hdl.live, CodeAt hdl record position) ∧
      (∀ record ip, Linked hdl record ip → record ∈ hdl.live ∧
        isDeleted hdl.records record = false) ∧
      Loop.Leaves nameRound hdl (dpiFqdnEntryDeleteMarked hdl) ∧
      (∀ records entries, Loop.Leaves (ipv4Round records) entries (sweepIpv4s records entries)) ∧
      Unmarked (dpiFqdnEntryDeleteMarked hdl) := by
  intro hdl
  have consistent : FqdnConsistent hdl := fqdnRun_consistent fqdnConsistent_init events
  refine ⟨consistent.links, ?_, ?_, ?_, ?_, ?_, ?_, ?_, ?_⟩
  · intro record r stored
    have sound := (consistent.stored record r stored).2
    refine ⟨sound.distinct, ?_⟩
    rw [sound.counted, UInt32.toNat_ofNat']
  · intro one oneLive other otherLive same
    exact consistent.codes_distinct oneLive otherLive same
  · intro record member
    obtain ⟨position, code⟩ := consistent.coded record member
    exact ⟨position, (consistent.bits position).mpr ⟨record, member, code⟩, code⟩
  · intro position set
    exact (consistent.bits position).mp set
  · intro record ip linked
    obtain ⟨r, stored, _⟩ := (consistent.links record ip).mp linked
    obtain ⟨member, sound⟩ := consistent.stored record r stored
    refine ⟨member, ?_⟩
    unfold isDeleted
    rw [stored]
    exact sound.kept
  · exact Loop.leaves_run nameRound_decreasing hdl
  · intro records entries
    exact Loop.leaves_run (ipv4Round_decreasing records) entries
  · exact (dpiFqdnEntryDeleteMarked_consistent consistent).2

/-- The name map has the one name, which is not a wildcard. -/
structure OneName (hdl : FqdnHdl) : Prop where
  names : hdl.fqdnNameMap = [{ key := [97], r := 0 }]
  stored : ∃ r, hdl.records.cells 0 = some r ∧ r.name = [97] ∧
    r.toDelete = false ∧ r.deleted = false ∧ r.wildcard = false

theorem OneName.snooped (ready : OneName hdl) (ip : UInt32) :
    fqdnStep hdl (.snooped [97] [ip]) = linkIp hdl 0 ip := by
  obtain ⟨r, stored, name, unmarked, kept, plain⟩ := ready.stored
  have found : lookupFqdnName hdl [97] = some { key := [97], r := 0 } := by
    unfold lookupFqdnName fqdnNameMatch
    rw [ready.names]
    simp [stored, name, sameName]
  have single : fqdnStep hdl (.snooped [97] [ip]) = snoopName [ip] hdl [97] := rfl
  rw [single]
  unfold snoopName
  simp [found, stored, unmarked, kept, associateIpRecord, plain]

theorem OneName.linkIp (ready : OneName hdl) (ip : UInt32) : OneName (linkIp hdl 0 ip) := by
  obtain ⟨r, stored, name, unmarked, kept, plain⟩ := ready.stored
  refine ⟨ready.names, addIp ip r, ?_, ?_⟩
  · exact (modify_cells_of_some (addIp ip) stored).trans (congrArg some (if_pos rfl))
  · unfold addIp
    split
    · exact ⟨name, unmarked, kept, plain⟩
    · exact ⟨name, unmarked, kept, plain⟩

theorem OneName.answers (ready : OneName hdl) (ips : List UInt32) :
    OneName (fqdnRun hdl (ips.map fun ip => .snooped [97] [ip])) ∧ ∀ ip, ip ∈ ips ∨ HasIp hdl 0 ip →
        HasIp (fqdnRun hdl (ips.map fun ip => .snooped [97] [ip])) 0 ip := by
  induction ips generalizing hdl with
  | nil =>
    refine ⟨ready, ?_⟩
    rintro ip (member | has)
    · exact absurd member not_mem_nil
    · exact has
  | cons first rest induction =>
    obtain ⟨r, stored, _⟩ := ready.stored
    have step : fqdnRun hdl ((first :: rest).map fun ip =>
        .snooped [97] [ip]) =
        fqdnRun (NeuVector.DataPath.linkIp hdl 0 first)
          (rest.map fun ip => .snooped [97] [ip]) := by
      unfold fqdnRun
      rw [map_cons, foldl_cons, ready.snooped]
    rw [step]
    obtain ⟨later, all⟩ := induction (ready.linkIp first)
    refine ⟨later, ?_⟩
    intro ip origin
    apply all
    rw [hasIp_linkIp stored]
    rcases origin with member | has
    · rcases mem_cons.mp member with same | inside
      · exact Or.inr (Or.inl ⟨rfl, same⟩)
      · exact Or.inl inside
    · exact Or.inr (Or.inr has)

theorem oneName_configured : OneName (fqdnRun dpiFqdnHdlInit [.config [97] 0]) := by
  have missing : lookupFqdnName dpiFqdnHdlInit [97] = none := rfl
  have first : dpiFqdnHdlInit.bm.nextZero dpiFqdnHdlInit.codeCnt = some 0 := by decide +kernel
  have added : fqdnRun dpiFqdnHdlInit [.config [97] 0] = addFqdnRecord dpiFqdnHdlInit [97] 0 := by
    simp only [fqdnRun, foldl_cons, foldl_nil, fqdnStep,
      configFqdnIpv4Mapping, configFqdnRecord, missing, allocFqdnCode, first, if_true]
    rfl
  rw [added]
  refine ⟨rfl, _, Heap.alloc_cells_next _ _, ?_⟩
  exact ⟨rfl, rfl, rfl, rfl⟩

theorem addresses_below {bound : Nat} (small : bound ≤ UInt32.size) :
    ((range bound).map UInt32.ofNat).Nodup := by
  apply List.Nodup.map_on _ nodup_range
  intro one oneInside other otherInside same
  have numbers := congrArg UInt32.toNat same
  have oneBound := mem_range.mp oneInside
  have otherBound := mem_range.mp otherInside
  rw [UInt32.toNat_ofNat_of_lt' (by omega), UInt32.toNat_ofNat_of_lt' (by omega)] at numbers
  exact numbers

/-- With all addresses, the counter of the record is zero again. -/
theorem fqdn_ip_count_wraps :
    ∃ events record r, (fqdnRun dpiFqdnHdlInit events).records.cells record = some r ∧
        r.ipCnt.toNat ≠ r.iplist.length := by
  have wraps : ∀ all : List UInt32, all.Nodup → all.length = UInt32.size → ∃ events record r,
        (fqdnRun dpiFqdnHdlInit events).records.cells record = some r ∧
          r.ipCnt.toNat ≠ r.iplist.length := by
    intro all distinct size
    obtain ⟨later, added⟩ := oneName_configured.answers all
    obtain ⟨r, stored, _⟩ := later.stored
    refine ⟨[.config [97] 0] ++ all.map fun ip => .snooped [97] [ip], 0, r, ?_, ?_⟩
    · unfold fqdnRun at stored ⊢
      rw [foldl_append]
      exact stored
    have covers : all ⊆ r.iplist := by
      intro ip member
      obtain ⟨r', found, inside⟩ := added ip (Or.inl member)
      cases stored.symm.trans found
      exact inside
    have long := (subperm_of_subset distinct covers).length_le
    have short := r.ipCnt.toNat_lt
    rw [size] at long
    intro equal
    rw [← equal] at long
    exact absurd long (Nat.not_le.mpr short)
  apply wraps ((range UInt32.size).map UInt32.ofNat) (addresses_below (Nat.le_refl _))
  rw [length_map, length_range]

end NeuVector.DataPath
