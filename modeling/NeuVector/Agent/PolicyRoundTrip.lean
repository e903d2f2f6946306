import NeuVector.Agent.PolicyConfig

/-!
# Policy slots from the controller to the agent

The agent gets back the rules the controller dealt into slots, the addresses
of the default rule in another order, if it can read every slot and there is
an address.  Without an address the default rule is lost, and a slot that
cannot be read leaves empty rules in its places.
-/

namespace NeuVector.Agent

open Library RoundRobin Controller List

variable {Addr Bytes : Type}
variable (slots : Nat) (addresses : List Addr)

def defaultRule : GroupIPPolicy Addr := workloadRule (addresses.map some)

/-- What may have become of a slot when the agent reads it. -/
inductive SlotFault (codec : SlotCodec Addr Bytes) where
  | intact
  | lost
  | undecodable (value : Bytes) (fails : decodeSlot codec (some value) = none)

def SlotFault.seen {codec : SlotCodec Addr Bytes} (fault : SlotFault codec)
    (zb : Bytes) : Option Bytes :=
  match fault with
  | .intact => some zb
  | .lost => none
  | .undecodable value _ => some value

def SlotFault.isIntact {codec : SlotCodec Addr Bytes} : SlotFault codec → Bool
  | .intact => true
  | _ => false

variable (verstr : String)

/-- The slots of one version with faults; they are written to one of the two
directories only. -/
def faultyView {codec : SlotCodec Addr Bytes} (zbs : List Bytes)
    (directoryExists : RuleDirectory → Bool) (faults : Nat → SlotFault codec) :
    StoreView Bytes :=
  { directoryExists := directoryExists
    get := fun directory key =>
      if directory = .recalculate ∧ key.version = verstr then
        zbs[key.slot]?.bind (faults key.slot).seen
      else none }

def rebuilt (codec : SlotCodec Addr Bytes) (verstr : String)
    (rules : List (GroupIPPolicy Addr)) (prepared : PreparedSlots Bytes)
    (directoryExists : RuleDirectory → Bool)
    (faults : Nat → SlotFault codec) :
    Except SlotError (List (GroupIPPolicy Addr)) :=
  systemConfigPolicyVersion codec (faultyView verstr prepared.zbs directoryExists faults)
    (policyVerOf verstr rules prepared)

/-- All rules come back if every slot can be read, and none otherwise. -/
structure RoundTrip {codec : SlotCodec Addr Bytes} (addresses : List Addr)
    (rest : List (GroupIPPolicy Addr)) (slots : Nat)
    (faults : Nat → SlotFault codec)
    (result : Except SlotError (List (GroupIPPolicy Addr))) : Prop where
  complete : (∀ i, i < slots → (faults i).isIntact = true) →
    ∃ merged : List Addr, merged.Perm addresses ∧ result = .ok (defaultRule merged :: rest)
  noPartial : (∃ i, i < slots ∧ (faults i).isIntact = false) → result = .ok []

section Dealt

variable {codec : SlotCodec Addr Bytes}

/-- Splitting the default rule deals its addresses: a rule that has no
address yet is like one with an empty list. -/
theorem splitWorkloads_eq (wlSlots : Nat) (addresses : List (Option Addr)) :
    splitWorkloads wlSlots addresses = (deal wlSlots addresses).map workloadRule := by
  induction addresses using reverseRecOn with
  | nil => simp [splitWorkloads, deal, workloadRule, GroupIPPolicy.zero, defaultGroupRuleID]
  | append_singleton addresses address induction =>
    have step : splitWorkloads wlSlots (addresses ++ [address]) =
        splitAddress wlSlots (splitWorkloads wlSlots addresses) (address, addresses.length) := by
      unfold splitWorkloads
      rw [zipIdx_append, foldl_append, Nat.zero_add]
      rfl
    rw [step, induction, deal_append_singleton, splitAddress]
    split
    next below =>
      rw [Nat.mod_eq_of_lt below, set_eq_modify]
      apply ext_getElem?
      intro position
      by_cases here : addresses.length = position
      · subst here
        have empty := deal_next_empty below
        simp [empty]
      · simp [here]
    · apply ext_getElem?
      intro position
      rw [getElem?_modify, getElem?_map, getElem?_map, getElem?_modify]
      by_cases here : addresses.length % wlSlots = position
      · simp only [here, if_true, Option.map_eq_map, Option.map_map]
        rfl
      · simp [here]

theorem smaller_eq_zero {length slots : Nat} (positive : 0 < slots) :
    smaller length slots = 0 ↔ length = 0 := by
  unfold smaller
  split
  · exact Iff.rfl
  · omega

variable (rest : List (GroupIPPolicy Addr))

def dealtRules : List (GroupIPPolicy Addr) :=
  (deal (smaller addresses.length slots) (addresses.map some)).map workloadRule ++ rest

theorem newRules_eq :
    newRules slots (defaultRule addresses) rest = dealtRules slots addresses rest := by
  have same : (defaultRule addresses).fromAddr = addresses.map some := rfl
  rw [newRules, same, splitWorkloads_eq, length_map]
  rfl

theorem length_dealtRules :
    (dealtRules slots addresses rest).length = smaller addresses.length slots + rest.length := by
  rw [dealtRules, length_append, length_map, length_deal]

/-- Slots that were prepared hold the dealt rules. -/
structure Prepared (codec : SlotCodec Addr Bytes) (addresses : List Addr)
    (rest : List (GroupIPPolicy Addr)) (slots : Nat)
    (prepared : PreparedSlots Bytes) : Prop where
  positive : 0 < slots
  zbs : prepared.zbs = (deal (smaller (dealtRules slots addresses rest).length slots)
    (dealtRules slots addresses rest)).map (zipSlot codec)
  wlSlots : prepared.wlSlots = smaller addresses.length slots
  wlLens : prepared.wlLens = addresses.length

theorem preparePolicySlots_prepared {addresses : List Addr}
    {rest : List (GroupIPPolicy Addr)} {prepared : PreparedSlots Bytes}
    (done : preparePolicySlots codec (defaultRule addresses :: rest) = .ok prepared) :
    ∃ slots, Prepared codec addresses rest slots prepared := by
  rw [preparePolicySlots] at done
  split at done
  next found isFound =>
    cases done
    obtain ⟨slots, tried, result⟩ := exists_of_findSome?_eq_some isFound
    have positive : 0 < slots := by
      have all : ∀ count ∈ slotCounts, 0 < count := by decide
      exact all slots tried
    have length : (defaultRule addresses).fromAddr.length = addresses.length := length_map _
    simp only [trySlots, newRules_eq, length] at result
    obtain ⟨zbs, zipped, rfl⟩ := Option.map_eq_some_iff.mp result
    refine ⟨slots, positive, ?_, rfl, rfl⟩
    unfold zipSlots at zipped
    split at zipped
    · cases zipped
    · cases zipped
      rfl
  · cases done

end Dealt

section Reading

variable {codec : SlotCodec Addr Bytes} {addresses : List Addr}
variable {rest : List (GroupIPPolicy Addr)} {slots : Nat}
variable {prepared : PreparedSlots Bytes}

theorem decodeSlot_zipSlot (rules : List (GroupIPPolicy Addr)) :
    decodeSlot codec (some (zipSlot codec rules)) = some rules := by
  simp only [decodeSlot, zipSlot, codec.gunzip_gzip, codec.unmarshal_marshal]

theorem decodeSlot_seen (fault : SlotFault codec) (rules : List (GroupIPPolicy Addr)) :
    decodeSlot codec (fault.seen (zipSlot codec rules)) =
      if fault.isIntact = true then some rules else none := by
  cases fault with
  | intact => exact decodeSlot_zipSlot rules
  | lost => rfl
  | undecodable value fails => exact fails

def decoded (codec : SlotCodec Addr Bytes) (verstr : String)
    (zbs : List Bytes) (directoryExists : RuleDirectory → Bool)
    (faults : Nat → SlotFault codec) (directory : RuleDirectory) (i : Nat) :
    Option (List (GroupIPPolicy Addr)) :=
  decodeSlot codec ((faultyView verstr zbs directoryExists faults).get directory ⟨verstr, i⟩)

section

variable (isPrepared : Prepared codec addresses rest slots prepared)
include isPrepared

theorem Prepared.length_zbs :
    prepared.zbs.length = smaller (dealtRules slots addresses rest).length slots := by
  rw [isPrepared.zbs, length_map, length_deal]

theorem Prepared.zbs_eq :
    prepared.zbs = (deal prepared.zbs.length
      (dealtRules slots addresses rest)).map (zipSlot codec) := by
  rw [isPrepared.length_zbs]
  exact isPrepared.zbs

theorem Prepared.no_slots :
    prepared.zbs.length = 0 ↔ (dealtRules slots addresses rest).length = 0 := by
  rw [isPrepared.length_zbs, smaller_eq_zero isPrepared.positive]

variable (verstr : String)

theorem decoded_recalculate (directoryExists : RuleDirectory → Bool)
    (faults : Nat → SlotFault codec) {i : Nat} (below : i < prepared.zbs.length) :
    decoded codec verstr prepared.zbs directoryExists faults .recalculate i =
      if (faults i).isIntact = true then
        (deal prepared.zbs.length (dealtRules slots addresses rest))[i]?
      else none := by
  have inside : i < (deal prepared.zbs.length (dealtRules slots addresses rest)).length := by
    rwa [length_deal]
  have value := congrArg (fun zbs => zbs[i]?) isPrepared.zbs_eq
  simp only [getElem?_map, getElem?_eq_getElem inside, Option.map_some] at value
  simp only [decoded, faultyView, value, and_self, if_true,
    Option.bind_some, decodeSlot_seen, getElem?_eq_getElem inside]

theorem decoded_dealt (directoryExists : RuleDirectory → Bool)
    (faults : Nat → SlotFault codec) (directory : RuleDirectory) :
    RoundRobin.Dealt prepared.zbs.length (dealtRules slots addresses rest)
      (decoded codec verstr prepared.zbs directoryExists faults directory) := by
  intro i slot below found
  cases directory with
  | network =>
    cases found
  | recalculate =>
    rw [decoded_recalculate isPrepared verstr directoryExists faults below] at found
    split at found
    · exact found
    · cases found

theorem rulesLen_eq :
    (policyVerOf verstr (defaultRule addresses :: rest) prepared).rulesLen =
      (dealtRules slots addresses rest).length := by
  simp only [policyVerOf, isPrepared.wlSlots, List.length_cons, length_dealtRules]
  omega

/-- The rules that are read: as many as were dealt, and the same ones if
every slot is there. -/
theorem getPolicyConfig_read (directoryExists : RuleDirectory → Bool)
    (faults : Nat → SlotFault codec) (directory : RuleDirectory) :
    ∃ pols : List (GroupIPPolicy Addr), getPolicyConfig codec
        (fun i => (faultyView verstr prepared.zbs directoryExists faults).get directory ⟨verstr, i⟩)
        prepared.zbs.length (dealtRules slots addresses rest).length = .ok pols ∧
      pols.length = (dealtRules slots addresses rest).length ∧
      (directory = .recalculate → (∀ i, i < prepared.zbs.length → (faults i).isIntact = true) →
        pols = dealtRules slots addresses rest) ∧
      (directory = .network → ∀ rule ∈ pols, rule = .zero) := by
  have dealt := decoded_dealt isPrepared verstr directoryExists faults directory
  have length : (replicate (dealtRules slots addresses rest).length
      (GroupIPPolicy.zero : GroupIPPolicy Addr)).length =
        (dealtRules slots addresses rest).length :=
    length_replicate
  rcases Nat.eq_zero_or_pos prepared.zbs.length with none | positive
  · have empty := eq_nil_of_length_eq_zero (isPrepared.no_slots.mp none)
    rw [none, empty]
    exact ⟨[], rfl, rfl, fun _ _ => rfl, fun _ _ member => by cases member⟩
  · obtain ⟨pols, done, same, found⟩ := placeSlots_dealt positive dealt (Nat.zero_add _) length
    refine ⟨pols, ?_, same, ?_, ?_⟩
    · unfold getPolicyConfig
      unfold decoded at done
      rw [done]
    · rintro rfl all
      have complete := placeSlots_complete positive dealt (by
        intro i below
        rw [decoded_recalculate isPrepared verstr directoryExists faults
          below, if_pos (all i below), getElem?_eq_getElem (by
            rwa [length_deal])]
        rfl) length
      rw [complete] at done
      cases done
      rfl
    · rintro rfl rule member
      obtain ⟨place, at_⟩ := mem_iff_getElem?.mp member
      rw [found place] at at_
      exact eq_of_mem_replicate (mem_of_getElem? at_)

end

theorem mergeWlPolicyConfig_dealtRules (slots : Nat) (addresses : List Addr)
    (rest : List (GroupIPPolicy Addr)) :
    mergeWlPolicyConfig (dealtRules slots addresses rest) (smaller addresses.length slots) =
      .ok (defaultRule (deal (smaller addresses.length slots) addresses).flatten :: rest) := by
  have parts : ((deal (smaller addresses.length slots)
      (addresses.map some)).map workloadRule).length = smaller addresses.length slots := by
    rw [length_map, length_deal]
  have enough : ¬ (dealtRules slots addresses rest).length < smaller addresses.length slots := by
    rw [length_dealtRules]
    omega
  have kept : ∀ slot : List Addr, ((slot.map some).filter Option.isSome) = slot.map some := by
    intro slot
    apply filter_eq_self.mpr
    intro address member
    obtain ⟨_, _, rfl⟩ := mem_map.mp member
    rfl
  rw [mergeWlPolicyConfig, if_neg enough, dealtRules,
    take_left' parts, drop_left' parts, flatMap_map,
    deal_map, flatMap_map]
  simp only [workloadRule, kept]
  rw [defaultRule, workloadRule, map_flatten, flatMap_def]

variable {directoryExists : RuleDirectory → Bool} {directory : RuleDirectory}
variable {merged : List Addr}

section

variable (isPrepared : Prepared codec addresses rest slots prepared) (verstr : String)
  (faults : Nat → SlotFault codec) (found : ruleDirectory (faultyView verstr prepared.zbs
    directoryExists faults) = some directory)
include isPrepared found

theorem rebuilt_read :
    ∃ pols : List (GroupIPPolicy Addr),
      rebuilt codec verstr (defaultRule addresses :: rest) prepared directoryExists faults =
          (if pols ≠ [] ∧ addresses ≠ [] then
            mergeWlPolicyConfig pols (smaller addresses.length slots)
          else .ok pols) ∧
      pols.length = (dealtRules slots addresses rest).length ∧
      (directory = .recalculate → (∀ i, i < prepared.zbs.length → (faults i).isIntact = true) →
        pols = dealtRules slots addresses rest) ∧
      (directory = .network → ∀ rule ∈ pols, rule = .zero) := by
  obtain ⟨pols, read, length, complete, zero⟩ := getPolicyConfig_read
    isPrepared verstr directoryExists faults directory
  refine ⟨pols, ?_, length, complete, zero⟩
  have some_address : (0 < prepared.wlSlots ∧ 0 < prepared.wlLens) ↔ addresses ≠ [] := by
    rw [isPrepared.wlSlots, isPrepared.wlLens, ne_nil_iff_length_pos,
      Nat.pos_iff_ne_zero, ne_eq, smaller_eq_zero isPrepared.positive]
    omega
  have rulesLen := rulesLen_eq isPrepared verstr
  rw [rebuilt, systemConfigPolicyVersion, found]
  simp only [policyVerOf] at rulesLen ⊢
  rw [rulesLen, read]
  simp only [some_address]
  rw [isPrepared.wlSlots]

theorem rebuilt_not_empty (some : 0 < prepared.zbs.length) :
    rebuilt codec verstr (defaultRule addresses :: rest) prepared
      directoryExists faults ≠ .ok [] := by
  obtain ⟨pols, result, length, _, _⟩ := rebuilt_read isPrepared verstr faults found
  have rules : 0 < (dealtRules slots addresses rest).length := by
    have none := isPrepared.no_slots
    omega
  have notEmpty : pols ≠ [] := by
    apply ne_nil_of_length_pos
    omega
  rw [result]
  split
  · intro empty
    unfold mergeWlPolicyConfig at empty
    split at empty
    · cases empty
    · cases empty
  · intro empty
    exact notEmpty (Except.ok.inj empty)

theorem rebuilt_without_addresses (none : addresses = []) :
    rebuilt codec verstr (defaultRule addresses :: rest) prepared
      directoryExists faults ≠ .ok (defaultRule merged :: rest) := by
  obtain ⟨pols, result, length, _, _⟩ := rebuilt_read isPrepared verstr faults found
  rw [result, if_neg (by simp [none])]
  intro same
  have lengths := congrArg List.length (Except.ok.inj same)
  rw [length, length_dealtRules, none, List.length_cons] at lengths
  have zero : smaller 0 slots = 0 := by simp [smaller]
  rw [length_nil] at lengths
  omega

end

theorem not_all_intact {slots : Nat} {faults : Nat → SlotFault codec}
    (some : ¬ ∀ i, i < slots → (faults i).isIntact = true) :
    ∃ i, i < slots ∧ (faults i).isIntact = false := by
  obtain ⟨i, fault⟩ := Classical.not_forall.mp some
  obtain ⟨below, notIntact⟩ := Classical.not_imp.mp fault
  exact ⟨i, below, Bool.not_eq_true _ ▸ notIntact⟩

theorem mergeWlPolicyConfig_zero {pols : List (GroupIPPolicy Addr)}
    (zero : ∀ rule ∈ pols, rule = .zero) {wlSlots : Nat}
    (same : mergeWlPolicyConfig pols wlSlots = .ok (defaultRule merged :: rest)) : merged = [] := by
  unfold mergeWlPolicyConfig at same
  split at same
  · cases same
  · have head := (cons.inj (Except.ok.inj same)).1
    have addresses := congrArg GroupIPPolicy.fromAddr head
    have none : ((pols.take wlSlots).flatMap fun rule =>
        rule.fromAddr.filter Option.isSome) = [] := by
      apply flatMap_eq_nil_iff.mpr
      intro rule member
      rw [zero rule (mem_of_mem_take member)]
      rfl
    rw [none] at addresses
    exact map_eq_nil_iff.mp addresses.symm

section

variable (isPrepared : Prepared codec addresses rest slots prepared)
include isPrepared

theorem smaller_pos (some : addresses ≠ []) : 0 < smaller addresses.length slots := by
  apply Nat.pos_of_ne_zero
  rw [ne_eq, smaller_eq_zero isPrepared.positive]
  exact fun none => some (eq_nil_of_length_eq_zero none)

theorem pols_not_empty {pols : List (GroupIPPolicy Addr)}
    (length : pols.length = (dealtRules slots addresses rest).length)
    (some : addresses ≠ []) : pols ≠ [] := by
  have positive := smaller_pos isPrepared some
  rw [length_dealtRules] at length
  apply ne_nil_of_length_pos
  omega

variable {directoryExists : RuleDirectory → Bool} {faults : Nat → SlotFault codec} (verstr : String)

theorem rebuilt_complete
    (found : ruleDirectory (faultyView verstr prepared.zbs directoryExists
      faults) = some .recalculate) (some : addresses ≠ [])
    (all : ∀ i, i < prepared.zbs.length → (faults i).isIntact = true) :
    ∃ merged : List Addr, merged.Perm addresses ∧
      rebuilt codec verstr (defaultRule addresses :: rest) prepared
        directoryExists faults = .ok (defaultRule merged :: rest) := by
  obtain ⟨pols, result, length, complete, _⟩ := rebuilt_read isPrepared verstr faults found
  have notEmpty := pols_not_empty isPrepared length some
  refine ⟨(deal (smaller addresses.length slots) addresses).flatten, ?_, ?_⟩
  · exact flatten_deal_perm (smaller_pos isPrepared some) _
  · rw [result, if_pos ⟨notEmpty, some⟩, complete rfl all, mergeWlPolicyConfig_dealtRules]

theorem rebuilt_network
    (found : ruleDirectory (faultyView verstr prepared.zbs directoryExists
      faults) = some .network) (some : addresses ≠ [])
    (perm : merged.Perm addresses) :
    rebuilt codec verstr (defaultRule addresses :: rest) prepared
      directoryExists faults ≠ .ok (defaultRule merged :: rest) := by
  intro same
  obtain ⟨pols, result, length, _, zero⟩ := rebuilt_read isPrepared verstr faults found
  have notEmpty := pols_not_empty isPrepared length some
  rw [result, if_pos ⟨notEmpty, some⟩] at same
  have none := mergeWlPolicyConfig_zero (zero rfl) same
  rw [none] at perm
  exact some perm.nil_eq.symm

theorem roundTrip_needs {directory : RuleDirectory}
    (found : ruleDirectory (faultyView verstr prepared.zbs directoryExists faults) = some directory)
    (trip : RoundTrip addresses rest prepared.zbs.length faults
      (rebuilt codec verstr (defaultRule addresses :: rest) prepared
      directoryExists faults)) :
    addresses ≠ [] ∧ ∀ i, i < prepared.zbs.length → (faults i).isIntact = true := by
  have all : ∀ i, i < prepared.zbs.length → (faults i).isIntact = true := by
    by_contra some
    obtain ⟨i, below, fault⟩ := not_all_intact some
    apply rebuilt_not_empty isPrepared verstr faults found
      (Nat.lt_of_le_of_lt (Nat.zero_le i) below)
    exact trip.noPartial ⟨i, below, fault⟩
  refine ⟨fun none => ?_, all⟩
  obtain ⟨merged, _, same⟩ := trip.complete all
  exact rebuilt_without_addresses isPrepared verstr faults found none same

end

end Reading

/-- The agent has the rules of the controller, or none, exactly if there is an
address and every slot can be read, or if some slot is not there and neither
directory is. -/
theorem policy_slots_round_trip_iff (codec : SlotCodec Addr Bytes)
    (verstr : String) {addresses : List Addr}
    {rest : List (GroupIPPolicy Addr)} {prepared : PreparedSlots Bytes}
    (done : preparePolicySlots codec (defaultRule addresses :: rest) = .ok prepared)
    (directoryExists : RuleDirectory → Bool) (faults : Nat → SlotFault codec) :
    RoundTrip addresses rest prepared.zbs.length faults
        (rebuilt codec verstr (defaultRule addresses :: rest) prepared directoryExists faults) ↔
      (directoryExists .recalculate = true ∧ addresses ≠ [] ∧
        ∀ i, i < prepared.zbs.length → (faults i).isIntact = true) ∨
      (directoryExists .recalculate = false ∧ directoryExists .network = false ∧
        ∃ i, i < prepared.zbs.length ∧ (faults i).isIntact = false) := by
  obtain ⟨slots, isPrepared⟩ := preparePolicySlots_prepared done
  cases recalculate : directoryExists .recalculate with
  | true =>
    have found : ruleDirectory (faultyView verstr prepared.zbs
        directoryExists faults) = some .recalculate := by
      simp [ruleDirectory, faultyView, recalculate]
    constructor
    · intro trip
      exact Or.inl ⟨rfl, roundTrip_needs isPrepared verstr found trip⟩
    · rintro (⟨_, some, all⟩ | ⟨absent, _⟩)
      · constructor
        · intro _
          exact rebuilt_complete isPrepared verstr found some all
        · rintro ⟨i, below, fault⟩
          rw [all i below] at fault
          cases fault
      · cases absent
  | false =>
    cases network : directoryExists .network with
    | true =>
      have found : ruleDirectory (faultyView verstr prepared.zbs
          directoryExists faults) = some .network := by
        simp [ruleDirectory, faultyView, recalculate, network]
      constructor
      · intro trip
        obtain ⟨some, all⟩ := roundTrip_needs isPrepared verstr found trip
        obtain ⟨merged, perm, same⟩ := trip.complete all
        exact absurd same (rebuilt_network isPrepared verstr found some perm)
      · rintro (⟨present, _⟩ | ⟨_, absent, _⟩)
        · cases present
        · cases absent
    | false =>
      have result : rebuilt codec verstr (defaultRule addresses :: rest)
          prepared directoryExists faults = .ok [] := by
        simp [rebuilt, systemConfigPolicyVersion, ruleDirectory, faultyView, recalculate, network]
      rw [result]
      constructor
      · intro trip
        refine Or.inr ⟨rfl, rfl, not_all_intact fun all => ?_⟩
        obtain ⟨merged, _, same⟩ := trip.complete all
        cases same
      · rintro (⟨present, _⟩ | ⟨_, _, i, below, fault⟩)
        · cases present
        · constructor
          · intro all
            rw [all i below] at fault
            cases fault
          · exact fun _ => rfl

def plainCodec : SlotCodec Nat (List (GroupIPPolicy Nat)) :=
  { marshal := id
    gzipBytes := id
    gunzipBytes := some
    unmarshal := some
    length := List.length
    gunzip_gzip := fun _ => rfl
    unmarshal_marshal := fun _ => rfl }

def sampleRule : GroupIPPolicy Nat :=
  { id := 10001, fromAddr := [some 1], toAddr := [some 2], action := 1 }

def threeSlots : PreparedSlots (List (GroupIPPolicy Nat)) :=
  { zbs := [[defaultRule [1]], [defaultRule [2]], [sampleRule]], wlSlots := 2, wlLens := 2 }

theorem policy_slots_round_trip_three_slots :
    RoundTrip [1, 2] [sampleRule] threeSlots.zbs.length (fun _ => (.intact : SlotFault plainCodec))
      (rebuilt plainCodec "ver.1" [defaultRule [1, 2], sampleRule]
        threeSlots (fun _ => true) fun _ => .intact) :=
  (policy_slots_round_trip_iff plainCodec "ver.1" (by rfl)
    (fun _ => true) fun _ => .intact).mpr (Or.inl ⟨rfl, by simp, fun _ _ => rfl⟩)

/-- A default rule without addresses is not rebuilt, and a slot that is lost
leaves an empty rule. -/
theorem policy_slots_lose_rules :
    (∃ prepared, preparePolicySlots plainCodec [defaultRule [], sampleRule] = .ok prepared ∧
      rebuilt plainCodec "ver.1" [defaultRule [], sampleRule] prepared
        (fun _ => true) (fun _ => .intact) = .ok [sampleRule] ∧
      ¬ RoundTrip [] [sampleRule] prepared.zbs.length (fun _ => (.intact : SlotFault plainCodec))
        (rebuilt plainCodec "ver.1" [defaultRule [], sampleRule] prepared
          (fun _ => true) fun _ => .intact)) ∧
    (rebuilt plainCodec "ver.1" [defaultRule [1, 2], sampleRule] threeSlots
        (fun _ => true) (fun i => if i = 2 then .lost else .intact) =
          .ok [defaultRule [1, 2], .zero] ∧
      ¬ RoundTrip [1, 2] [sampleRule] threeSlots.zbs.length
        (fun i => if i = 2 then (.lost : SlotFault plainCodec) else .intact)
        (rebuilt plainCodec "ver.1" [defaultRule [1, 2], sampleRule] threeSlots (fun _ => true)
          fun i => if i = 2 then .lost else .intact)) := by
  constructor
  · refine ⟨_, rfl, rfl, fun trip => ?_⟩
    obtain ⟨merged, _, same⟩ := trip.complete fun _ _ => rfl
    have lengths := congrArg List.length (Except.ok.inj same)
    cases lengths
  · refine ⟨rfl, fun trip => ?_⟩
    have none := trip.noPartial ⟨2, by decide, rfl⟩
    cases none

end NeuVector.Agent
