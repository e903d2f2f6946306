import NeuVector.Agent.ProcessProfile
import NeuVector.Library.LastWins

/-!
# Uuids of process rules

The process profiles that are written or deleted wait in two sets until a timer
applies them to a table of rules by uuid, first the deletions and then the
additions, each set in any order (`controller/ruleid/rule_uuid.go`).  The access
control of the timer authorizes every rule.  The active rules are those of the
latest profiles if no two groups share a uuid and a calculation never finds two
profiles of one group.
-/

namespace NeuVector.Controller

open Agent (ProcessProfile ProcessProfileEntry)
open Library List

structure ProcRule where
  active : Bool
  group : String
  rule : ProcessProfileEntry

/-- The caches; a group that is not known has no uuids. -/
structure UuidRules where
  pGrpUuidMap : String → Finset String
  ruleMap : String → Option ProcRule

def uuidsOf (pp : ProcessProfile) (bDelete : Bool) : Finset String :=
  if bDelete then ∅ else (pp.process.map ProcessProfileEntry.uuid).toFinset

/-- Of several entries with one uuid the last one is stored. -/
def handleProcessProfile (pc : UuidRules) (pp : ProcessProfile) (bDelete : Bool) : UuidRules :=
  let previous := pc.pGrpUuidMap pp.group
  let current := uuidsOf pp bDelete
  { pGrpUuidMap := Function.update pc.pGrpUuidMap pp.group current
    ruleMap := fun uuid =>
      if uuid ∈ current \ previous then
        (LastWins.last ProcessProfileEntry.uuid pp.process uuid).map fun ppe =>
          { active := true, group := pp.group, rule := ppe }
      else if uuid ∈ previous \ current then
        (pc.ruleMap uuid).map fun rule => { rule with active := false }
      else pc.ruleMap uuid }

def handleAll (pc : UuidRules) (pending : List (ProcessProfile × Bool)) : UuidRules :=
  pending.foldl (fun pc entry => handleProcessProfile pc entry.1 entry.2) pc

/-- The caches with the profiles of both pending sets, marked if they are
deleted, and the uuids of the latest profile of each group. -/
structure RuleIdSystem where
  pending : List (ProcessProfile × Bool)
  rules : UuidRules
  latest : String → Finset String

def RuleIdSystem.start : RuleIdSystem := ⟨[], ⟨fun _ => ∅, fun _ => none⟩, fun _ => ∅⟩

def pendProfile (pc : RuleIdSystem) (pp : ProcessProfile) (bDelete : Bool) : RuleIdSystem :=
  { pc with
    pending := pc.pending ++ [(pp, bDelete)]
    latest := Function.update pc.latest pp.group (uuidsOf pp bDelete) }

def addProcesProfile (pc : RuleIdSystem) (pp : ProcessProfile) : RuleIdSystem :=
  pendProfile pc pp false

def deleteProcesProfile (pc : RuleIdSystem) (pp : ProcessProfile) : RuleIdSystem :=
  pendProfile pc pp true

def calculteUuidRules (pc : RuleIdSystem) (deletes updates : MapOrder (ProcessProfile × Bool)) :
    RuleIdSystem :=
  { pc with
    pending := []
    rules := handleAll pc.rules (deletes.order (pc.pending.filter fun entry => entry.2) ++
      updates.order (pc.pending.filter fun entry => !entry.2)) }

def isActive (pc : RuleIdSystem) (uuid : String) : Bool :=
  (pc.rules.ruleMap uuid).any ProcRule.active

section Profiles

variable {pc : UuidRules} {pp : ProcessProfile} {bDelete : Bool} {owner : String → String}

/-- The uuids of a group are its own, and the active rules are those of the
groups. -/
structure RulesSound (owner : String → String) (pc : UuidRules) : Prop where
  own : ∀ group, ∀ uuid ∈ pc.pGrpUuidMap group, owner uuid = group
  active : ∀ uuid, (pc.ruleMap uuid).any ProcRule.active = true ↔ uuid ∈ pc.pGrpUuidMap (owner uuid)

theorem RulesSound.handle (sound : RulesSound owner pc)
    (own : ∀ uuid ∈ uuidsOf pp bDelete, owner uuid = pp.group) :
    RulesSound owner (handleProcessProfile pc pp bDelete) := by
  have others : ∀ group, group ≠ pp.group →
      (handleProcessProfile pc pp bDelete).pGrpUuidMap group = pc.pGrpUuidMap group :=
    fun _ different => Function.update_of_ne different ..
  have here : (handleProcessProfile pc pp bDelete).pGrpUuidMap pp.group = uuidsOf pp bDelete :=
    Function.update_self ..
  constructor
  · intro group
    by_cases same : group = pp.group
    · rw [same, here]
      exact own
    · rw [others group same]
      exact sound.own group
  · intro uuid
    have active := sound.active uuid
    by_cases owned : owner uuid = pp.group
    · rw [owned] at active ⊢
      by_cases listed : uuid ∈ uuidsOf pp bDelete
      · cases bDelete with
        | true => cases listed
        | false =>
          obtain ⟨ppe, member, rfl⟩ := mem_map.mp (mem_toFinset.mp listed)
          obtain ⟨last, found⟩ := LastWins.last_isSome ProcessProfileEntry.uuid member
          by_cases known : ppe.uuid ∈ pc.pGrpUuidMap pp.group
          · simp [handleProcessProfile, known, listed, active]
          · simp [handleProcessProfile, known, listed, found]
      · by_cases known : uuid ∈ pc.pGrpUuidMap pp.group
        · simp [handleProcessProfile, known, listed, Option.any_map]
        · simpa [handleProcessProfile, known, listed] using active
    · have absent : uuid ∉ pc.pGrpUuidMap pp.group := fun member => owned (sound.own _ _ member)
      have other : uuid ∉ uuidsOf pp bDelete := fun member => owned (own uuid member)
      rw [others _ owned]
      simpa [handleProcessProfile, absent, other] using active

/-- Profiles of different groups are applied whatever their order is. -/
theorem handleAll_uuids {pending : List (ProcessProfile × Bool)}
    (once : (pending.map fun entry => entry.1.group).Nodup) :
    (∀ entry ∈ pending,
      (handleAll pc pending).pGrpUuidMap entry.1.group = uuidsOf entry.1 entry.2) ∧
    ∀ group, (∀ entry ∈ pending, entry.1.group ≠ group) →
      (handleAll pc pending).pGrpUuidMap group = pc.pGrpUuidMap group := by
  induction pending generalizing pc with
  | nil => exact ⟨nofun, fun _ _ => rfl⟩
  | cons first rest induction =>
    obtain ⟨fresh, restOnce⟩ := nodup_cons.mp once
    obtain ⟨applied, others⟩ := @induction (handleProcessProfile pc first.1 first.2) restOnce
    simp only [mem_map, not_exists, not_and] at fresh
    constructor
    · intro entry member
      rcases mem_cons.mp member with rfl | later
      · exact (others _ fresh).trans (Function.update_self ..)
      · exact applied entry later
    · intro group different
      apply (others group (List.forall_mem_cons.mp different).2).trans
      exact Function.update_of_ne (different first mem_cons_self).symm ..

end Profiles

def SeparatelyPending (pc : RuleIdSystem) : Prop :=
  (pc.pending.map fun entry => entry.1.group).Nodup

/-- The states of runs in which every uuid has a group that owns it, and no
calculation finds two profiles of a group. -/
inductive RuleIdReached (owner : String → String) : RuleIdSystem → Prop where
  | start : RuleIdReached owner .start
  | addition {pc : RuleIdSystem} (reached : RuleIdReached owner pc) (pp : ProcessProfile)
    (own : ∀ uuid ∈ uuidsOf pp false, owner uuid = pp.group) :
    RuleIdReached owner (addProcesProfile pc pp)
  | deletion {pc : RuleIdSystem} (reached : RuleIdReached owner pc) (pp : ProcessProfile) :
    RuleIdReached owner (deleteProcesProfile pc pp)
  | calculation {pc : RuleIdSystem} (reached : RuleIdReached owner pc)
    (deletes updates : MapOrder (ProcessProfile × Bool)) (separate : SeparatelyPending pc) :
    RuleIdReached owner (calculteUuidRules pc deletes updates)

section Runs

variable {owner : String → String} {pc : RuleIdSystem}

/-- The latest profile of a group is applied, or waits. -/
structure FollowsLatest (owner : String → String) (pc : RuleIdSystem) : Prop where
  sound : RulesSound owner pc.rules
  own : ∀ entry ∈ pc.pending, ∀ uuid ∈ uuidsOf entry.1 entry.2, owner uuid = entry.1.group
  groups : ∀ group,
    (∀ entry ∈ pc.pending, entry.1.group ≠ group) ∧ pc.rules.pGrpUuidMap group = pc.latest group ∨
      ∃ entry ∈ pc.pending, entry.1.group = group ∧ pc.latest group = uuidsOf entry.1 entry.2

theorem FollowsLatest.calculate (follows : FollowsLatest owner pc)
    (deletes updates : MapOrder (ProcessProfile × Bool)) (separate : SeparatelyPending pc) :
    RulesSound owner (calculteUuidRules pc deletes updates).rules ∧ ∀ group,
        (calculteUuidRules pc deletes updates).rules.pGrpUuidMap group = pc.latest group := by
  have order := ((deletes.order_perm (pc.pending.filter fun entry => entry.2)).append
    (updates.order_perm (pc.pending.filter fun entry => !entry.2))).trans
      (filter_append_perm _ _)
  unfold calculteUuidRules
  constructor
  · apply foldlRecOn _ _ follows.sound
    intro rules sound entry member
    exact sound.handle (follows.own entry (order.mem_iff.mp member))
  · intro group
    obtain ⟨listed, others⟩ := @handleAll_uuids pc.rules _ ((order.map _).nodup_iff.mpr separate)
    rcases follows.groups group with ⟨idle, same⟩ | ⟨entry, member, rfl, latest⟩
    · exact (others group fun entry member => idle entry (order.mem_iff.mp member)).trans same
    · exact (listed entry (order.mem_iff.mpr member)).trans latest.symm

theorem FollowsLatest.pend (follows : FollowsLatest owner pc) {pp : ProcessProfile}
    {bDelete : Bool} (own : ∀ uuid ∈ uuidsOf pp bDelete, owner uuid = pp.group) :
    FollowsLatest owner (pendProfile pc pp bDelete) := by
  refine ⟨follows.sound, ?_, fun group => ?_⟩
  · intro entry member
    rcases mem_append.mp member with old | new
    · exact follows.own entry old
    · exact mem_singleton.mp new ▸ own
  · by_cases same : group = pp.group
    · exact .inr ⟨(pp, bDelete), by simp [pendProfile], same.symm, by simp [pendProfile, same]⟩
    · simp only [pendProfile, Function.update_of_ne same, mem_append, mem_singleton]
      rcases follows.groups group with ⟨idle, applied⟩ | ⟨entry, member, waits⟩
      · refine .inl ⟨?_, applied⟩
        rintro entry (old | rfl)
        · exact idle entry old
        · exact Ne.symm same
      · exact .inr ⟨entry, .inl member, waits⟩

theorem RuleIdReached.follows (reached : RuleIdReached owner pc) : FollowsLatest owner pc := by
  induction reached with
  | start => exact ⟨⟨nofun, fun _ => iff_of_false nofun nofun⟩, nofun, fun _ => .inl ⟨nofun, rfl⟩⟩
  | addition _ pp own follows => exact follows.pend own
  | deletion _ pp follows => exact follows.pend nofun
  | calculation _ deletes updates separate follows =>
    obtain ⟨sound, latest⟩ := follows.calculate deletes updates separate
    exact ⟨sound, nofun, fun group => .inl ⟨nofun, latest group⟩⟩

/-- After each calculation of such a run the active uuids are those of the
latest profiles. -/
theorem active_uuids_follow_latest (owner : String → String) (pc : RuleIdSystem)
    (reached : RuleIdReached owner pc) (deletes updates : MapOrder (ProcessProfile × Bool))
    (separate : SeparatelyPending pc) (uuid : String) :
    isActive (calculteUuidRules pc deletes updates) uuid = true ↔
      ∃ group, uuid ∈ (calculteUuidRules pc deletes updates).latest group := by
  obtain ⟨sound, latest⟩ := reached.follows.calculate deletes updates separate
  apply (sound.active uuid).trans
  rw [latest]
  refine ⟨fun member => ⟨_, member⟩, fun ⟨group, member⟩ => ?_⟩
  rw [sound.own group uuid (latest group ▸ member)]
  exact member

end Runs

def profileOf (group uuid : String) : ProcessProfile :=
  ⟨group, false, false, "", "", [⟨"ls", "/bin/ls", [], .allow, .learned, uuid, "", false⟩]⟩

def shopProfile : ProcessProfile := profileOf "shop" "u1"

def arrivalOrder : MapOrder (ProcessProfile × Bool) := ⟨id, fun _ => .rfl⟩

/-- A profile is applied in one interval; in the next it is deleted, and that
of another group is added. -/
def shopThenStore : RuleIdSystem :=
  addProcesProfile (deleteProcesProfile
    (calculteUuidRules (addProcesProfile .start shopProfile) arrivalOrder arrivalOrder)
    shopProfile) (profileOf "store" "u2")

theorem active_uuids_follow_latest_shop :
    isActive (calculteUuidRules shopThenStore arrivalOrder arrivalOrder) "u1" = false ∧
      isActive (calculteUuidRules shopThenStore arrivalOrder arrivalOrder) "u2" = true := by
  have owned : ∀ {group uuid : String}, ∀ listed ∈ uuidsOf (profileOf group uuid) false,
      listed = uuid := by
    intro group uuid listed member
    exact mem_singleton.mp (mem_toFinset.mp member)
  have reached : RuleIdReached (fun uuid => if uuid = "u1" then "shop" else "store")
      shopThenStore := by
    refine .addition (.deletion (.calculation (.addition .start shopProfile ?_) _ _
      (nodup_singleton _)) shopProfile) _ ?_
    · intro uuid member
      rw [owned uuid member]
      rfl
    · intro uuid member
      rw [owned uuid member]
      rfl
  have follows := active_uuids_follow_latest _ _ reached arrivalOrder arrivalOrder
    (show ["shop", "store"].Nodup by decide)
  have latest : (calculteUuidRules shopThenStore arrivalOrder arrivalOrder).latest =
      Function.update (Function.update (fun _ => ∅) "shop" ∅) "store" {"u2"} := by
    simp only [calculteUuidRules, shopThenStore, addProcesProfile, deleteProcesProfile,
      pendProfile, RuleIdSystem.start, shopProfile, profileOf, Function.update_idem]
    rfl
  simp only [latest] at follows
  constructor
  · rw [Bool.eq_false_iff, ne_eq, follows, not_exists]
    intro group
    by_cases store : group = "store"
    · simp [store]
    · simp [store]
  · exact (follows "u2").mpr ⟨"store", by simp⟩

/-- The deletion that came after the addition is applied before it. -/
theorem deleted_profile_stays_active :
    isActive (calculteUuidRules (deleteProcesProfile (addProcesProfile .start shopProfile)
      shopProfile) arrivalOrder arrivalOrder) "u1" = true ∧
    ∀ group, "u1" ∉ (calculteUuidRules (deleteProcesProfile (addProcesProfile .start shopProfile)
      shopProfile) arrivalOrder arrivalOrder).latest group := by
  refine ⟨by decide, fun group => ?_⟩
  simp only [calculteUuidRules, deleteProcesProfile, addProcesProfile, pendProfile,
    Function.update_idem]
  by_cases same : group = shopProfile.group
  · simp [same, uuidsOf]
  · simp [same, RuleIdSystem.start]

end NeuVector.Controller
