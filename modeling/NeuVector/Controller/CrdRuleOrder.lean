import NeuVector.Controller.CrdRules
import Mathlib.Data.List.Perm.Basic
import Mathlib.Data.List.Sort
import NeuVector.Library.Table

/-!
# Rule heads after a custom resource has been handled

The stored list is ordered: federal heads, heads of custom resources, other
heads.  The list that is written keeps the outer parts and merges the rules of
the record into the middle part exactly if a condition on the stored list and
the record holds.  The condition fails for a list that has federal heads only,
which is then lost.
-/

namespace NeuVector.Controller

open List

structure CrdInput where
  federal : List RuleHead
  crd : List RuleHead
  others : List RuleHead
  isFederal : ∀ head ∈ federal, head.cfgType = .federal
  isCrd : ∀ head ∈ crd, head.cfgType = .ground
  isOther : ∀ head ∈ others, head.cfgType ≠ .federal ∧ head.cfgType ≠ .ground
  stored : Nat → Option PolicyRule
  record : GoMap String Nat
  rules : List PolicyRuleConfig
  names : (rules.map PolicyRuleConfig.comment).Nodup

namespace CrdInput

variable (input : CrdInput)

def crhs : List RuleHead := input.federal ++ (input.crd ++ input.others)

def crdIDs : List Nat := input.crd.map RuleHead.id

def ruleNames : List String := input.rules.map PolicyRuleConfig.comment

/-- The record has the id under a name that is not listed any more. -/
def Dropped (id : Nat) : Prop := ∃ name, input.record.lookup name = some id ∧ name ∉ input.ruleNames

def recordedIDs : List Nat := input.rules.filterMap fun conf => input.record.lookup conf.comment

def newCount : Nat :=
  (input.rules.filter fun conf => (input.record.lookup conf.comment).isNone).length

def ruleIDs : List Nat := input.recordedIDs ++ availableIDs .ground input.crdIDs input.newCount

def missing (id : Nat) : Bool := (input.stored id).isNone || !input.crdIDs.contains id

def result (env : CrdEnv) : CrdResult :=
  crdHandleRules env input.crhs input.stored input.record input.rules

end CrdInput

def Listed (newRules : GoMap String Nat) (id : Nat) : Prop := ∃ name, newRules.lookup name = some id

structure MiddlePart (input : CrdInput) (newRules : GoMap String Nat)
    (middle : List RuleHead) : Prop where
  ordered : middle.Pairwise fun first second => second.priority ≤ first.priority
  distinct : (middle.map RuleHead.id).Nodup
  members : ∀ id, id ∈ middle.map RuleHead.id ↔
    (id ∈ input.crdIDs ∧ ¬ input.Dropped id) ∨ Listed newRules id
  unchanged : ∀ head ∈ middle, ¬ Listed newRules head.id → head ∈ input.crd
  ground : ∀ head ∈ middle, head.cfgType = .ground

/-- The list that is written has the old outer parts around a proper middle
part; the ids in it are those of the listed rules, as recorded before. -/
structure LeavesOthersAlone (input : CrdInput) (result : CrdResult) : Prop where
  list : ∀ written, result.written = some written →
    ∃ middle, written = input.federal ++ (middle ++ input.others) ∧
      MiddlePart input result.newRules middle
  listed : ∀ name, name ∈ input.ruleNames ↔ ∃ id, result.newRules.lookup name = some id
  recorded : ∀ name id, name ∈ input.ruleNames → input.record.lookup name = some id →
    result.newRules.lookup name = some id

/-- The condition: some head is not federal, and the ids of the rules agree
with the stored heads and rules. -/
structure CrdFits (input : CrdInput) : Prop where
  notOnlyFederal : input.federal = [] ∨ input.crd ++ input.others ≠ []
  /-- A rule whose head exists is stored, unless its head is dropped under
  another name. -/
  steady : ∀ id ∈ input.ruleIDs, id ∈ input.crdIDs →
    ((input.stored id).isSome = true ↔ ¬ input.Dropped id)
  single : (input.ruleIDs.filter input.missing).Nodup

section Scan

variable (scan : HeadScan)

theorem noteStart_eq (i : Nat) :
    noteStart scan i =
      { scan with
        startIdx := if scan.startFind = true then scan.startIdx else i
        startFind := true } := by
  obtain ⟨ids, ruleHead, startIdx, startFind, endIdx, endFind⟩ := scan
  cases startFind <;> rfl

theorem noteEnd_eq (i : Nat) {crh : RuleHead} (notGround : crh.cfgType ≠ .ground) :
    noteEnd scan i crh =
      { scan with
        endIdx := if scan.endFind = true then scan.endIdx else i
        endFind := true } := by
  obtain ⟨ids, ruleHead, startIdx, startFind, endIdx, endFind⟩ := scan
  cases endFind <;> simp [noteEnd, notGround]

theorem scanHeads_append (i : Nat) (first second : List RuleHead) :
    scanHeads scan i (first ++ second) =
      scanHeads (scanHeads scan i first) (i + first.length) second := by
  induction first generalizing scan i with
  | nil => rfl
  | cons crh crhs induction =>
    rw [cons_append, scanHeads, induction]
    rw [show i + 1 + crhs.length = i + (crhs.length + 1) by omega]
    rfl

theorem scanHeads_federal {federal : List RuleHead}
    (isFederal : ∀ head ∈ federal, head.cfgType = .federal)
    (scan : HeadScan) (i : Nat) : scanHeads scan i federal = scan := by
  induction federal generalizing scan i with
  | nil => rfl
  | cons crh crhs induction =>
    obtain ⟨here, later⟩ := forall_mem_cons.mp isFederal
    have same : scanHead scan i crh = scan := by simp [scanHead, noteGround, here]
    rw [scanHeads, same]
    exact induction later scan (i + 1)

def groundMap (ruleHead : GoMap Nat Nat) (i : Nat) : List RuleHead → GoMap Nat Nat
  | [] => ruleHead
  | crh :: crhs => groundMap (ruleHead.insert crh.id i) (i + 1) crhs

theorem scanHeads_ground {crd : List RuleHead}
    (isCrd : ∀ head ∈ crd, head.cfgType = .ground) (scan : HeadScan) (i : Nat) :
    scanHeads scan i crd =
      { scan with
        ids := scan.ids ++ crd.map RuleHead.id
        ruleHead := groundMap scan.ruleHead i crd
        startIdx :=
          if crd = [] ∨ scan.startFind = true then scan.startIdx else i
        startFind := scan.startFind || !crd.isEmpty } := by
  induction crd generalizing scan i with
  | nil => simp [scanHeads, groundMap]
  | cons crh crhs induction =>
    obtain ⟨here, later⟩ := forall_mem_cons.mp isCrd
    have step : scanHead scan i crh =
        { scan with
          ids := scan.ids ++ [crh.id]
          ruleHead := scan.ruleHead.insert crh.id i
          startIdx := if scan.startFind = true then scan.startIdx else i
          startFind := true } := by simp [scanHead, noteGround, noteEnd, noteStart_eq, here]
    rw [scanHeads, step, induction later]
    simp [groundMap]

theorem scanHeads_others {others : List RuleHead}
    (isOther : ∀ head ∈ others, head.cfgType ≠ .federal ∧ head.cfgType ≠ .ground)
    (scan : HeadScan) (i : Nat) :
    scanHeads scan i others =
      { scan with
        startIdx :=
          if others = [] ∨ scan.startFind = true then scan.startIdx else i
        startFind := scan.startFind || !others.isEmpty
        endIdx :=
          if others = [] ∨ scan.endFind = true then scan.endIdx else i
        endFind := scan.endFind || !others.isEmpty } := by
  induction others generalizing scan i with
  | nil => simp [scanHeads]
  | cons crh crhs induction =>
    obtain ⟨notFederal, notGround⟩ := isOther crh mem_cons_self
    have step : scanHead scan i crh =
        { scan with
          startIdx := if scan.startFind = true then scan.startIdx else i
          startFind := true
          endIdx := if scan.endFind = true then scan.endIdx else i
          endFind := true } := by
      simp [scanHead, noteGround, noteStart_eq, noteEnd_eq, notFederal, notGround]
    rw [scanHeads, step, induction (forall_mem_cons.mp isOther).2]
    simp

theorem mem_groundMap (ruleHead : GoMap Nat Nat) (i : Nat) (crd : List RuleHead) (id : Nat) :
    id ∈ groundMap ruleHead i crd ↔ id ∈ ruleHead ∨ id ∈ crd.map RuleHead.id := by
  induction crd generalizing ruleHead i with
  | nil => simp [groundMap]
  | cons crh crhs induction =>
    rw [groundMap, induction, AList.mem_insert, map_cons, mem_cons, or_assoc, or_left_comm]

theorem groundMap_position {ruleHead : GoMap Nat Nat} {i : Nat}
    {crd : List RuleHead} {id position : Nat}
    (found : (groundMap ruleHead i crd).lookup id = some position) :
    ruleHead.lookup id = some position ∨
      ∃ k head, crd[k]? = some head ∧ position = i + k ∧ head.id = id := by
  induction crd generalizing ruleHead i with
  | nil => exact Or.inl found
  | cons crh crhs induction =>
    rcases induction found with before | ⟨k, head, at_, position_, same⟩
    · rw [Library.Table.lookup_insert] at before
      split at before
      next here =>
        cases before
        exact Or.inr ⟨0, crh, rfl, rfl, here.symm⟩
      · exact Or.inl before
    · refine Or.inr ⟨k + 1, head, at_, ?_, same⟩
      omega

theorem scan_input (input : CrdInput) :
    scanHeads .init 0 input.crhs =
      { ids := input.crdIDs
        ruleHead := groundMap ∅ input.federal.length input.crd
        startIdx :=
          if input.crd ++ input.others = [] then 0 else input.federal.length
        startFind := !input.crd.isEmpty || !input.others.isEmpty
        endIdx :=
          if input.others = [] then 0
          else input.federal.length + input.crd.length
        endFind := !input.others.isEmpty } := by
  rw [CrdInput.crhs, scanHeads_append, scanHeads_federal input.isFederal,
    scanHeads_append, scanHeads_ground input.isCrd, scanHeads_others input.isOther]
  simp only [HeadScan.init, nil_append, Nat.zero_add, CrdInput.crdIDs,
    Bool.false_or, Bool.false_eq_true, or_false]
  cases crd : input.crd with
  | nil =>
    cases others : input.others with
    | nil | cons other later => simp
  | cons first rest => simp

theorem scan_position {input : CrdInput} {id position : Nat}
    (found : (groundMap ∅ input.federal.length input.crd).lookup id = some position) :
    ∃ k head, input.crd[k]? = some head ∧ position = input.federal.length + k ∧ head.id = id := by
  rcases groundMap_position found with before | inCrd
  · cases before
  · exact inCrd

theorem crhs_crd {input : CrdInput} {k : Nat} {head : RuleHead}
    (found : input.crd[k]? = some head) :
    input.crhs[input.federal.length + k]? = some head := by
  obtain ⟨below, _⟩ := List.getElem?_eq_some_iff.mp found
  rw [CrdInput.crhs, List.getElem?_append_right (Nat.le_add_right _ _),
    Nat.add_sub_cancel_left, getElem?_append_left below]
  exact found

end Scan

section Loop

variable {env : CrdEnv} {stored : Nat → Option PolicyRule}
variable {ruleHead : GoMap Nat Nat}

/-- The names of the rules with the ids they get, one after the other. -/
def assignment (record : GoMap String Nat) : List Nat → List PolicyRuleConfig → List (String × Nat)
  | _, [] => []
  | ids, conf :: rules =>
    match record.lookup conf.comment with
    | some id => (conf.comment, id) :: assignment record ids rules
    | none =>
      (conf.comment, getAvailablePolicyID ids .ground) ::
        assignment record (getAvailablePolicyID ids .ground :: ids) rules

theorem assignment_names (record : GoMap String Nat) (ids : List Nat)
    (rules : List PolicyRuleConfig) :
    (assignment record ids rules).map Prod.fst = rules.map PolicyRuleConfig.comment := by
  induction rules generalizing ids with
  | nil => rfl
  | cons conf rules induction =>
    rw [assignment]
    split
    · rw [map_cons, map_cons, induction]
    · rw [map_cons, map_cons, induction]

theorem assignment_ids (record : GoMap String Nat) (ids : List Nat)
    (rules : List PolicyRuleConfig) :
    ((assignment record ids rules).map Prod.snd).Perm
      ((rules.filterMap fun conf => record.lookup conf.comment) ++
        availableIDs .ground ids (rules.filter fun conf =>
          (record.lookup conf.comment).isNone).length) := by
  induction rules generalizing ids with
  | nil => exact List.Perm.refl _
  | cons conf rules induction =>
    rw [assignment]
    cases found : record.lookup conf.comment with
    | some id =>
      simp only [map_cons, filterMap_cons, found,
        filter_cons, Option.isNone_some, Bool.false_eq_true, if_false, cons_append]
      exact (induction ids).cons id
    | none =>
      simp only [map_cons, filterMap_cons, found,
        filter_cons, Option.isNone_none, if_true, length_cons, availableIDs]
      refine ((induction _).cons _).trans ?_
      exact perm_middle.symm

variable {record : GoMap String Nat} {id : Nat}

theorem assignment_recorded {ids : List Nat} {rules : List PolicyRuleConfig}
    {name : String} (listed : name ∈ rules.map PolicyRuleConfig.comment)
    (found : record.lookup name = some id) :
    (name, id) ∈ assignment record ids rules := by
  induction rules generalizing ids with
  | nil => cases listed
  | cons conf rules induction =>
    rw [assignment]
    rcases mem_cons.mp listed with here | later
    · subst here
      rw [found]
      exact mem_cons_self
    · split
      · exact mem_cons_of_mem _ (induction later)
      · exact mem_cons_of_mem _ (induction later)

/-- One map is the other with the entries written over it. -/
def Overwritten (before : GoMap String Nat) (entries : List (String × Nat))
    (after : GoMap String Nat) : Prop :=
  ∀ name id, after.lookup name = some id ↔
    (name, id) ∈ entries ∨ (name ∉ entries.map Prod.fst ∧ before.lookup name = some id)

theorem Overwritten.refl (rules : GoMap String Nat) : Overwritten rules [] rules := by
  intro name id
  simp

theorem Overwritten.cons {before middle after : GoMap String Nat}
    {name : String} {entries : List (String × Nat)}
    (own : middle.lookup name = some id) (other : ∀ another, another ≠ name →
      middle.lookup another = before.lookup another)
    (fresh : name ∉ entries.map Prod.fst) (later : Overwritten middle entries after) :
    Overwritten before ((name, id) :: entries) after := by
  intro another number
  rw [later another number]
  by_cases here : another = name
  · subst here
    have absent : (another, number) ∉ entries := fun member => fresh (mem_map_of_mem member)
    simp only [own, absent, fresh, not_false_eq_true, true_and, false_or,
      mem_cons, Prod.mk.injEq, map_cons, not_true, false_and, or_false, Option.some.injEq]
    exact eq_comm
  · rw [other another here]
    simp [here]

/-- Heads differ in priority only, and only where the map leads to from one
of the ids. -/
def SameHeads (ruleHead : GoMap Nat Nat) (ids : List Nat) (before after : List RuleHead) : Prop :=
  ∀ position, after[position]? = before[position]? ∨
    (∃ id ∈ ids, ruleHead.lookup id = some position) ∧
      ∃ priority, after[position]? = before[position]?.map (setPriority priority)

theorem SameHeads.trans {first second : List Nat}
    {before middle after : List RuleHead} (one : SameHeads ruleHead first before middle)
    (two : SameHeads ruleHead second middle after) :
    SameHeads ruleHead (first ++ second) before after := by
  intro position
  rcases two position with same | ⟨⟨id, member, found⟩, priority, changed⟩
  · rw [same]
    rcases one position with kept | ⟨⟨id, member, found⟩, changed⟩
    · exact Or.inl kept
    · exact Or.inr ⟨⟨id, mem_append_left _ member, found⟩, changed⟩
  · refine Or.inr ⟨⟨id, mem_append_right _ member, found⟩, priority, ?_⟩
    rcases one position with kept | ⟨_, other, again⟩
    · rw [changed, kept]
    · rw [changed, again, Option.map_map]
      rfl

def needsHead (stored : Nat → Option PolicyRule) (ruleHead : GoMap Nat Nat) (id : Nat) : Bool :=
  (stored id).isNone || (ruleHead.lookup id).isNone

/-- What handling rules changes, given the ids they get. -/
structure Handled (stored : Nat → Option PolicyRule)
    (ruleHead : GoMap Nat Nat) (entries : List (String × Nat))
    (before after : CrdLoop) : Prop where
  news : ∃ heads, after.news = before.news ++ heads ∧
    heads.map RuleHead.id = (entries.map Prod.snd).filter (needsHead stored ruleHead) ∧
    ∀ head ∈ heads, head.cfgType = .ground
  crhs : SameHeads ruleHead (entries.map Prod.snd) before.crhs after.crhs
  newRules : Overwritten before.newRules entries after.newRules
  rules : Overwritten before.rules entries after.rules

theorem placeHead_cases (stored : Nat → Option PolicyRule)
    (ruleHead : GoMap Nat Nat) (loop : CrdLoop) (id priority : Nat) :
    (needsHead stored ruleHead id = true ∧ placeHead stored ruleHead loop id priority =
        { loop with news := loop.news ++ [newHead id priority] }) ∨
    (needsHead stored ruleHead id = false ∧ ∃ i, ruleHead.lookup id = some i ∧
        placeHead stored ruleHead loop id priority =
          { loop with crhs := loop.crhs.modify i (setPriority priority) }) := by
  unfold placeHead needsHead
  cases stored id with
  | none => exact Or.inl ⟨rfl, rfl⟩
  | some rule =>
    cases ruleHead.lookup id with
    | none => exact Or.inl ⟨rfl, rfl⟩
    | some i => exact Or.inr ⟨rfl, i, rfl, rfl⟩

theorem sameHeads_modify {i : Nat} (found : ruleHead.lookup id = some i)
    (crhs : List RuleHead) (priority : Nat) :
    SameHeads ruleHead [id] crhs (crhs.modify i (setPriority priority)) := by
  intro position
  by_cases here : i = position
  · subst here
    refine Or.inr ⟨⟨id, mem_cons_self, found⟩, priority, ?_⟩
    simp
  · simp [here]

theorem SameHeads.refl (crhs : List RuleHead) : SameHeads ruleHead [] crhs crhs :=
  fun _ => Or.inl rfl

theorem Handled.refl (loop : CrdLoop) : Handled stored ruleHead [] loop loop := by
  constructor
  · exact ⟨[], (append_nil _).symm, rfl, by simp⟩
  · exact SameHeads.refl _
  · exact Overwritten.refl _
  · exact Overwritten.refl _

structure Assigned (name : String) (before after : CrdLoop) (id : Nat) : Prop where
  crhs : after.crhs = before.crhs
  news : after.news = before.news
  newRules : after.newRules = before.newRules
  rules : after.rules.lookup name = some id
  otherRules : ∀ other, other ≠ name → after.rules.lookup other = before.rules.lookup other

theorem assignID_rest (loop : CrdLoop) (name : String) :
    Assigned name loop (assignID loop name).1 (assignID loop name).2 := by
  unfold assignID
  split
  next id found => exact ⟨rfl, rfl, rfl, found, fun _ _ => rfl⟩
  · exact ⟨rfl, rfl, rfl, AList.lookup_insert _,
      fun _ different => AList.lookup_insert_ne different⟩

theorem Handled.cons {loop after : CrdLoop} {conf : PolicyRuleConfig}
    {entries : List (String × Nat)} (fresh : conf.comment ∉ entries.map Prod.fst)
    (later : Handled stored ruleHead entries (handleRule env stored ruleHead loop conf) after) :
    Handled stored ruleHead ((conf.comment, (assignID loop conf.comment).2) :: entries)
      loop after := by
  obtain ⟨sameCrhs, sameNews, sameNew, own, other⟩ := assignID_rest loop conf.comment
  obtain ⟨⟨heads, news, ids, ground⟩, crhs, newRules, rules⟩ := later
  rcases placeHead_cases stored ruleHead (assignID loop conf.comment).1
    (assignID loop conf.comment).2 conf.priority with
    ⟨needs, placed⟩ | ⟨has, i, found, placed⟩ <;>
    simp only [handleRule, placed, sameCrhs, sameNews, sameNew] at news crhs newRules rules
  · constructor
    · refine ⟨newHead (assignID loop conf.comment).2 conf.priority :: heads, ?_, ?_, ?_⟩
      · rw [news, append_assoc]
        rfl
      · rw [map_cons, map_cons, filter_cons_of_pos needs, ids]
        rfl
      · intro head member
        rcases mem_cons.mp member with rfl | inRest
        · rfl
        · exact ground head inRest
    · exact fun position => (crhs position).imp_right fun changed =>
        ⟨changed.1.imp fun _ entry => ⟨mem_cons_of_mem _ entry.1, entry.2⟩, changed.2⟩
    · exact newRules.cons (AList.lookup_insert _) (fun _ => AList.lookup_insert_ne) fresh
    · exact rules.cons own other fresh
  · constructor
    · refine ⟨heads, news, ?_, ground⟩
      rw [map_cons, filter_cons_of_neg (by simp [has]), ids]
    · exact (sameHeads_modify found _ _).trans crhs
    · exact newRules.cons (AList.lookup_insert _) (fun _ => AList.lookup_insert_ne) fresh
    · exact rules.cons own other fresh

theorem handleRule_ids_rules (env : CrdEnv)
    (stored : Nat → Option PolicyRule) (ruleHead : GoMap Nat Nat)
    (loop : CrdLoop) (conf : PolicyRuleConfig) :
    (handleRule env stored ruleHead loop conf).ids = (assignID loop conf.comment).1.ids ∧
      (handleRule env stored ruleHead loop conf).rules = (assignID loop conf.comment).1.rules := by
  rcases placeHead_cases stored ruleHead (assignID loop conf.comment).1
    (assignID loop conf.comment).2 conf.priority with
    ⟨_, placed⟩ | ⟨_, i, _, placed⟩
  · simp only [handleRule, placed, and_self]
  · simp only [handleRule, placed, and_self]

theorem assignment_cons {loop : CrdLoop} {conf : PolicyRuleConfig}
    (agrees : loop.rules.lookup conf.comment = record.lookup conf.comment)
    (rules : List PolicyRuleConfig) :
    assignment record loop.ids (conf :: rules) = (conf.comment, (assignID loop conf.comment).2) ::
        assignment record (assignID loop conf.comment).1.ids rules := by
  rw [assignment, assignID, agrees]
  cases record.lookup conf.comment with
  | none | some id => rfl

theorem handleRules_handled {rules : List PolicyRuleConfig}
    (names : (rules.map PolicyRuleConfig.comment).Nodup) (loop : CrdLoop)
    (agrees : ∀ conf ∈ rules, loop.rules.lookup conf.comment = record.lookup conf.comment) :
    Handled stored ruleHead (assignment record loop.ids rules) loop
      (rules.foldl (handleRule env stored ruleHead) loop) := by
  induction rules generalizing loop with
  | nil => exact Handled.refl loop
  | cons conf rules induction =>
    obtain ⟨fresh, names⟩ := nodup_cons.mp names
    obtain ⟨sameIDs, sameRules⟩ := handleRule_ids_rules env stored ruleHead loop conf
    have later := induction names (handleRule env stored ruleHead loop conf) (by
        intro other member
        have different : other.comment ≠ conf.comment := fun same =>
          fresh (same ▸ mem_map_of_mem member)
        rw [sameRules, (assignID_rest loop conf.comment).otherRules other.comment different]
        exact agrees other (mem_cons_of_mem _ member))
    rw [assignment_cons (agrees conf mem_cons_self)]
    apply Handled.cons
    · rw [assignment_names]
      exact fresh
    · rw [← sameIDs]
      exact later

end Loop

section Stay

variable {input : CrdInput} {ids : List Nat} {crhs : List RuleHead}

def CrdInput.ruleHead (input : CrdInput) : GoMap Nat Nat :=
  groundMap ∅ input.federal.length input.crd

theorem CrdInput.mem_ruleHead (input : CrdInput) (id : Nat) :
    id ∈ input.ruleHead ↔ id ∈ input.crdIDs := by
  rw [CrdInput.ruleHead, mem_groundMap]
  simp [CrdInput.crdIDs, AList.notMem_empty]

theorem needsHead_eq_missing (input : CrdInput) :
    needsHead input.stored input.ruleHead = input.missing := by
  funext id
  have same : (input.ruleHead.lookup id).isNone = !input.crdIDs.contains id := by
    rw [← Option.not_isSome, Bool.eq_iff_iff, Bool.not_eq_true',
      Bool.not_eq_true', ← Bool.not_eq_true, ← Bool.not_eq_true,
      AList.lookup_isSome, input.mem_ruleHead, contains_iff_mem]
  rw [needsHead, same, CrdInput.missing]

section

variable (same : SameHeads input.ruleHead ids input.crhs crhs)
include same

theorem take_federal : crhs.take input.federal.length = input.federal := by
  apply ext_getElem?
  intro position
  by_cases below : position < input.federal.length
  · rw [getElem?_take_of_lt below]
    rcases same position with kept | ⟨⟨id, _, found⟩, _⟩
    · rw [kept, CrdInput.crhs, getElem?_append_left below]
    · obtain ⟨k, _, _, position_, _⟩ := scan_position found
      omega
  · rw [getElem?_eq_none (by
      rw [length_take]
      omega), getElem?_eq_none (by omega)]

theorem drop_others : crhs.drop (input.federal.length + input.crd.length) = input.others := by
  apply ext_getElem?
  intro position
  rw [getElem?_drop]
  rcases same (input.federal.length + input.crd.length + position) with
    kept | ⟨⟨id, _, found⟩, _⟩
  · rw [kept, CrdInput.crhs, List.getElem?_append_right (by omega),
      List.getElem?_append_right (by omega)]
    congr 1
    omega
  · obtain ⟨k, head, inCrd, position_, _⟩ := scan_position found
    obtain ⟨below, _⟩ := List.getElem?_eq_some_iff.mp inCrd
    omega

theorem head_after {id position : Nat} (found : input.ruleHead.lookup id = some position) :
    ∃ head, crhs[position]? = some head ∧ head.id = id ∧
      head.cfgType = .ground ∧ (id ∉ ids → head ∈ input.crd) := by
  obtain ⟨k, head, inCrd, rfl, own⟩ := scan_position found
  have member := mem_of_getElem? inCrd
  have before := crhs_crd inCrd
  rcases same (input.federal.length + k) with
    kept | ⟨⟨other, listed, leads⟩, priority, changed⟩
  · refine ⟨head, ?_, own, input.isCrd head member, fun _ => member⟩
    rw [kept, before]
  · obtain ⟨j, second, inCrd', position_, rfl⟩ := scan_position leads
    obtain rfl : j = k := by omega
    rw [inCrd] at inCrd'
    cases inCrd'
    refine ⟨setPriority priority head, ?_, own, input.isCrd head member, ?_⟩
    · rw [changed, before]
      rfl
    · intro unlisted
      rw [← own] at unlisted
      exact absurd listed unlisted

theorem headsAt_ids {heads : GoMap Nat Nat}
    (part : ∀ id position, heads.lookup id = some position →
      input.ruleHead.lookup id = some position) :
    (headsAt crhs heads).map RuleHead.id = heads.keys := by
  have all : ∀ entry ∈ heads.entries, ∃ head, crhs[entry.2]? = some head ∧ head.id = entry.1 := by
    intro entry member
    have found := part entry.1 entry.2 (AList.mem_lookup_iff.mpr member)
    obtain ⟨head, at_, own, _⟩ := head_after same found
    exact ⟨head, at_, own⟩
  unfold headsAt AList.keys keys
  revert all
  induction heads.entries with
  | nil => exact fun _ => rfl
  | cons entry entries induction =>
    intro all
    obtain ⟨head, at_, own⟩ := all entry mem_cons_self
    rw [filterMap_cons, at_, map_cons, map_cons, own]
    rw [induction (forall_mem_cons.mp all).2]

theorem mem_headsAt {heads : GoMap Nat Nat} {head : RuleHead}
    (part : ∀ id position, heads.lookup id = some position →
      input.ruleHead.lookup id = some position)
    (member : head ∈ headsAt crhs heads) :
    head.cfgType = .ground ∧ (head.id ∉ ids → head ∈ input.crd) := by
  obtain ⟨entry, inHeads, at_⟩ := mem_filterMap.mp member
  have found := part entry.1 entry.2 (AList.mem_lookup_iff.mpr inHeads)
  obtain ⟨other, at', own, ground, unchanged⟩ := head_after same found
  rw [at_] at at'
  cases at'
  rw [own]
  exact ⟨ground, unchanged⟩

end

theorem dropHeads_lookup (heads : GoMap Nat Nat) (gone : List Nat) (id : Nat) :
    (dropHeads heads gone).lookup id =
      if id ∈ gone then none else heads.lookup id := by
  unfold dropHeads
  induction gone generalizing heads with
  | nil => simp
  | cons first rest induction =>
    rw [foldl_cons, induction]
    by_cases later : id ∈ rest
    · simp [later]
    · by_cases here : id = first
      · subst here
        simp
      · simp [later, here]

end Stay

section Written

variable (env : CrdEnv) (input : CrdInput)

def CrdInput.assigned : List (String × Nat) := assignment input.record input.crdIDs input.rules

theorem CrdInput.assigned_names : input.assigned.map Prod.fst = input.ruleNames :=
  assignment_names _ _ _

theorem CrdInput.assigned_ids : (input.assigned.map Prod.snd).Perm input.ruleIDs :=
  assignment_ids _ _ _

def CrdInput.start : CrdLoop :=
  { crhs := input.crhs, ids := input.crdIDs, rules := input.record
    news := [], newRules := ∅, puts := [] }

def CrdInput.loop : CrdLoop :=
  input.rules.foldl (handleRule env input.stored input.ruleHead) input.start

theorem CrdInput.loop_handled :
    Handled input.stored input.ruleHead input.assigned input.start (input.loop env) := by
  have agrees : ∀ conf ∈ input.rules,
      input.start.rules.lookup conf.comment = input.record.lookup conf.comment := fun _ _ => rfl
  exact handleRules_handled input.names input.start agrees

def CrdInput.gone : List Nat :=
  goneIDs (input.loop env).newRules (env.nameOrder (recordEntries (input.loop env).rules))

def CrdInput.middle : List RuleHead :=
  env.sortByPriority ((input.loop env).news ++ env.headOrder
    (headsAt (input.loop env).crhs (dropHeads input.ruleHead (input.gone env))))

theorem newRules_lookup (name : String) (id : Nat) :
    (input.loop env).newRules.lookup name = some id ↔ (name, id) ∈ input.assigned := by
  rw [(input.loop_handled env).newRules name id]
  simp [CrdInput.start]

variable (id : Nat)

theorem listed_iff : Listed (input.loop env).newRules id ↔ id ∈ input.ruleIDs := by
  rw [← input.assigned_ids.mem_iff]
  simp [Listed, newRules_lookup]

theorem mem_gone : id ∈ input.gone env ↔ input.Dropped id := by
  have rules := (input.loop_handled env).rules
  unfold CrdInput.gone goneIDs
  rw [mem_map]
  constructor
  · rintro ⟨⟨name, number⟩, member, rfl⟩
    obtain ⟨inRules, different⟩ := mem_filter.mp member
    have found := Library.Table.mem_pairs.mp ((env.nameOrder_perm _).mem_iff.mp inRules)
    have notNew := of_decide_eq_true different
    rcases (rules name number).mp found with now | ⟨unlisted, before⟩
    · exact absurd ((newRules_lookup env input name number).mpr now) notNew
    · rw [input.assigned_names] at unlisted
      exact ⟨name, before, unlisted⟩
  · rintro ⟨name, before, unlisted⟩
    rw [← input.assigned_names] at unlisted
    have found := (rules name id).mpr (Or.inr ⟨unlisted, before⟩)
    refine ⟨(name, id), mem_filter.mpr ⟨?_, ?_⟩, rfl⟩
    · exact (env.nameOrder_perm _).mem_iff.mpr (Library.Table.mem_pairs.mpr found)
    · apply decide_eq_true
      intro now
      exact unlisted (mem_map_of_mem ((newRules_lookup env input name id).mp now))

def CrdInput.keptIDs : List Nat := (dropHeads input.ruleHead (input.gone env)).keys

theorem mem_keptIDs : id ∈ input.keptIDs env ↔ id ∈ input.crdIDs ∧ ¬ input.Dropped id := by
  unfold CrdInput.keptIDs
  rw [← AList.mem_keys, ← AList.lookup_isSome, dropHeads_lookup,
    ← input.mem_ruleHead, ← mem_gone env input, ← AList.lookup_isSome]
  by_cases gone : id ∈ input.gone env
  · simp [gone]
  · simp [gone]

/-- The middle part in terms of the input. -/
structure MiddleHeads (middle : List RuleHead) : Prop where
  ordered : middle.Pairwise fun first second => second.priority ≤ first.priority
  ids : (middle.map RuleHead.id).Perm (input.ruleIDs.filter input.missing ++ input.keptIDs env)
  ground : ∀ head ∈ middle, head.cfgType = .ground
  unchanged : ∀ head ∈ middle, head.id ∉ input.ruleIDs → head ∈ input.crd

theorem middle_heads : MiddleHeads env input (input.middle env) := by
  obtain ⟨⟨heads, news, ids, newGround⟩, same, _, _⟩ := input.loop_handled env
  have part : ∀ id position, (dropHeads input.ruleHead (input.gone env)).lookup id = some position →
      input.ruleHead.lookup id = some position := by
    intro id position found
    rw [dropHeads_lookup] at found
    split at found
    · cases found
    · exact found
  have perm : (input.middle env).Perm (heads ++ headsAt (input.loop env).crhs
        (dropHeads input.ruleHead (input.gone env))) := by
    refine (env.sort_perm _).trans ?_
    rw [news]
    exact List.Perm.append_left _ (env.headOrder_perm _)
  rw [needsHead_eq_missing] at ids
  constructor
  · exact env.sort_ordered _
  · refine (perm.map RuleHead.id).trans ?_
    rw [map_append, headsAt_ids same part, ids]
    exact List.Perm.append_right _ (input.assigned_ids.filter _)
  · intro head member
    rcases mem_append.mp (perm.mem_iff.mp member) with new | old
    · exact newGround head new
    · exact (mem_headsAt same part old).1
  · intro head member unlisted
    rw [← input.assigned_ids.mem_iff] at unlisted
    rcases mem_append.mp (perm.mem_iff.mp member) with new | old
    · have inNew := mem_map_of_mem (f := RuleHead.id) new
      rw [ids] at inNew
      exact absurd (mem_filter.mp inNew).1 unlisted
    · exact (mem_headsAt same part old).2 unlisted

theorem result_nothing (nothing : input.rules = [] ∧ input.record.entries = []) :
    input.result env = { written := none, puts := [], deletes := [], newRules := ∅ } := by
  rw [CrdInput.result, crdHandleRules, if_pos nothing]

theorem result_written (something : ¬ (input.rules = [] ∧ input.record.entries = [])) :
    (input.result env).written = some
        ((if input.crd ++ input.others = [] then [] else input.federal) ++
          (input.middle env ++ input.others)) ∧
      (input.result env).newRules = (input.loop env).newRules := by
  have same := (input.loop_handled env).crhs
  rw [CrdInput.result, crdHandleRules, if_neg something, scan_input]
  refine ⟨?_, rfl⟩
  change some ((input.loop env).crhs.take _ ++ (if (!input.others.isEmpty) = true then
      input.middle env ++ (input.loop env).crhs.drop _
    else input.middle env)) = _
  congr 2
  · split
    · rfl
    · exact take_federal same
  · cases others : input.others with
    | nil => simp
    | cons other later =>
      have dropped := drop_others same
      rw [others] at dropped
      simp [dropped]

theorem federal_kept {input : CrdInput} (fits : input.federal = [] ∨
    input.crd ++ input.others ≠ []) :
    (if input.crd ++ input.others = [] then [] else input.federal) = input.federal := by
  split
  next empty =>
    rcases fits with none | some
    · exact none.symm
    · exact absurd empty some
  · rfl

theorem notOnlyFederal_of_kept {middle : List RuleHead}
    (same : (if input.crd ++ input.others = [] then [] else input.federal) ++
        (input.middle env ++ input.others) =
      input.federal ++ (middle ++ input.others)) :
    input.federal = [] ∨ input.crd ++ input.others ≠ [] := by
  by_cases empty : input.crd ++ input.others = []
  · left
    have noOthers := (append_eq_nil_iff.mp empty).2
    rw [if_pos empty, noOthers, append_nil, nil_append] at same
    cases federal : input.federal with
    | nil => rfl
    | cons head rest =>
      have isFederal := input.isFederal head (by simp [federal])
      have ground := (middle_heads env input).ground head (by simp [same, federal])
      rw [isFederal] at ground
      cases ground
  · exact Or.inr empty

theorem middlePart_iff {middle : List RuleHead} (heads : MiddleHeads env input middle) :
    MiddlePart input (input.loop env).newRules middle ↔ (∀ id ∈ input.ruleIDs, id ∈ input.crdIDs →
        ((input.stored id).isSome = true ↔ ¬ input.Dropped id)) ∧
      (input.ruleIDs.filter input.missing).Nodup := by
  have inMiddle : ∀ id, id ∈ middle.map RuleHead.id ↔
      (id ∈ input.ruleIDs ∧ input.missing id = true) ∨
        (id ∈ input.crdIDs ∧ ¬ input.Dropped id) := by
    intro id
    rw [heads.ids.mem_iff, mem_append, mem_filter, mem_keptIDs]
  have stored : ∀ id ∈ input.crdIDs,
      (input.missing id = true ↔ ¬ (input.stored id).isSome = true) := by
    intro id member
    simp [CrdInput.missing, member]
  constructor
  · intro proper
    have nodup := heads.ids.nodup_iff.mp proper.distinct
    obtain ⟨single, _, apart⟩ := nodup_append.mp nodup
    refine ⟨?_, single⟩
    intro id listed inCrd
    constructor
    · intro isStored
      have member := (proper.members id).mpr (Or.inr ((listed_iff env input id).mpr listed))
      rcases (inMiddle id).mp member with ⟨_, missing⟩ | ⟨_, kept⟩
      · exact absurd isStored ((stored id inCrd).mp missing)
      · exact kept
    · intro kept
      by_contra notStored
      have missing := (stored id inCrd).mpr notStored
      exact apart id (mem_filter.mpr ⟨listed, missing⟩) id
        ((mem_keptIDs env input id).mpr ⟨inCrd, kept⟩) rfl
  · rintro ⟨steady, single⟩
    constructor
    · exact heads.ordered
    · apply heads.ids.nodup_iff.mpr
      apply nodup_append.mpr
      refine ⟨single, AList.keys_nodup _, ?_⟩
      rintro id new _ old rfl
      obtain ⟨listed, missing⟩ := mem_filter.mp new
      obtain ⟨inCrd, kept⟩ := (mem_keptIDs env input id).mp old
      exact (stored id inCrd).mp missing ((steady id listed inCrd).mpr kept)
    · intro id
      rw [inMiddle, listed_iff]
      constructor
      · rintro (⟨listed, _⟩ | kept)
        · exact Or.inr listed
        · exact Or.inl kept
      · rintro (kept | listed)
        · exact Or.inr kept
        · by_cases missing : input.missing id = true
          · exact Or.inl ⟨listed, missing⟩
          · have present : (input.stored id).isSome = true ∧ id ∈ input.crdIDs := by
              simpa [CrdInput.missing, ← Option.isSome_iff_ne_none] using missing
            exact Or.inr ⟨present.2, (steady id listed present.2).mp present.1⟩
    · intro head member unlisted
      exact heads.unchanged head member
        (fun listed => unlisted ((listed_iff env input head.id).mpr listed))
    · exact heads.ground

end Written

/-- Handling a custom resource keeps the federal heads and the other heads,
and merges its rules into the heads of custom resources, exactly if there is
nothing to do or the ids and heads fit. -/
theorem crdHandleRules_leaves_others_alone_iff (env : CrdEnv) (input : CrdInput) :
    LeavesOthersAlone input (input.result env) ↔
      (input.rules = [] ∧ input.record.entries = []) ∨ CrdFits input := by
  by_cases nothing : input.rules = [] ∧ input.record.entries = []
  · refine ⟨fun _ => Or.inl nothing, fun _ => ?_⟩
    rw [result_nothing env input nothing]
    have noNames : ∀ name, name ∉ input.ruleNames := by simp [CrdInput.ruleNames, nothing.1]
    constructor
    · intro written none
      cases none
    · intro name
      simp [noNames name]
    · intro name id listed
      exact absurd listed (noNames name)
  · obtain ⟨written, newRules⟩ := result_written env input nothing
    have heads := middle_heads env input
    have proper := middlePart_iff env input heads
    constructor
    · intro alone
      obtain ⟨middle, same, part⟩ := alone.list _ written
      have notOnlyFederal := notOnlyFederal_of_kept env input same
      rw [federal_kept notOnlyFederal] at same
      obtain rfl : input.middle env = middle := append_cancel_right (append_cancel_left same)
      rw [newRules] at part
      obtain ⟨steady, single⟩ := proper.mp part
      exact Or.inr ⟨notOnlyFederal, steady, single⟩
    · rintro (isNothing | fits)
      · exact absurd isNothing nothing
      · constructor
        · intro list isWritten
          rw [written, federal_kept fits.notOnlyFederal] at isWritten
          cases isWritten
          rw [newRules]
          exact ⟨_, rfl, proper.mpr ⟨fits.steady, fits.single⟩⟩
        · intro name
          rw [newRules, ← input.assigned_names]
          simp [newRules_lookup]
        · intro name id listed found
          rw [newRules]
          exact (newRules_lookup env input name id).mpr (assignment_recorded listed found)

/-- Maps are enumerated as they are, and the sort is stable. -/
def plainCrdEnv : CrdEnv :=
  { now := 0
    appNames2IDs := fun _ => []
    headOrder := id
    headOrder_perm := fun _ => List.Perm.refl _
    nameOrder := id
    nameOrder_perm := fun _ => List.Perm.refl _
    sortByPriority := List.insertionSort fun first second => second.priority ≤ first.priority
    sort_perm := fun heads => List.perm_insertionSort _ heads
    sort_ordered := fun heads => List.pairwise_insertionSort _ heads }

def federalOnly : CrdInput :=
  { federal := [{ id := 100001, priority := 0, cfgType := .federal }]
    crd := []
    others := []
    isFederal := by simp
    isCrd := by simp
    isOther := by simp
    stored := fun _ => none
    record := ∅
    rules := [{ comment := "web", fromGroup := some "external"
                toGroup := some "nodes", ports := none, action := none
                applications := none, priority := 1 }]
    names := by simp }

/-- The federal head is not in the list that is written. -/
theorem crdHandleRules_loses_federal_heads :
    (federalOnly.result plainCrdEnv).written =
        some [{ id := 110001, priority := 1, cfgType := .ground }] ∧
      ¬ LeavesOthersAlone federalOnly (federalOnly.result plainCrdEnv) := by
  have written : (federalOnly.result plainCrdEnv).written =
      some [{ id := 110001, priority := 1, cfgType := .ground }] := by decide
  refine ⟨written, fun alone => ?_⟩
  obtain ⟨middle, same, _⟩ := alone.list _ written
  cases same

end NeuVector.Controller
