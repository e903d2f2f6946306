import NeuVector.Library.SignedCriteria
import Mathlib.Data.List.Infix

/-!
# Group criteria

The criteria of a group select workloads and service groups (`share/criteria.go`).
Regular expressions are a parameter.  A type with several negative criteria
before its first positive one combines them by "and", against the comment in
the source.
-/

namespace NeuVector.Share

open Library SignedCriteria

inductive CriteriaOp where
  | equal
  | notEqual
  | contains
  | startsWith
  | regex
  | notRegex
  | biggerEqualThan
  | biggerThan
  | lessEqualThan
  | containsAll
  | containsAny
  | notContainsAny
  | containsOtherThan
  | unknown
  deriving DecidableEq

structure CriteriaEntry where
  key : String
  value : String
  op : CriteriaOp
  deriving DecidableEq

def criteriaKeyImage : String := "image"
def criteriaKeyHost : String := "node"
def criteriaKeyWorkload : String := "container"
def criteriaKeyService : String := "service"
def criteriaKeyAddress : String := "address"
def criteriaKeyLabel : String := "label"
def criteriaKeyDomain : String := "domain"
def criteriaKeyNamespace : String := "namespace"
def criteriaValueAny : String := "any"

/-- Regular expressions; some texts are none. -/
structure RegexEnv where
  compile : String → Option (String → Bool)

variable (env : RegexEnv)

def matchString (pattern value : String) : Bool :=
  match env.compile pattern with
  | none => false
  | some matcher => matcher value

def replaceChar (old : Char) (new : List Char) (text : List Char) : List Char :=
  text.flatMap fun char => if char = old then new else [char]

/-- A pattern with the usual wildcards as a regular expression. -/
def wildcardRegex (pattern : String) : String :=
  let re := replaceChar '.' ['\\', '.'] pattern.toList
  let re := replaceChar '?' ['.'] re
  let re := replaceChar '*' ['.', '*'] re
  String.ofList ('^' :: re ++ ['$'])

def equalMatch (pattern value : String) : Bool :=
  if pattern.toList.any fun char => char = '?' || char = '*' then
    match env.compile (wildcardRegex pattern) with
    | none => pattern = value
    | some matcher => matcher value
  else pattern = value

variable (value : String)

def textContains (part : String) : Bool := part.toList <:+: value.toList

def textStartsWith (part : String) : Bool := part.toList.isPrefixOf value.toList

/-- Whether a criterion is met, and its sign. -/
def isCriterionMet (crt : CriteriaEntry) (value : String) : Bool × Bool :=
  match crt.op with
  | .equal =>
    if crt.value = criteriaValueAny then (true, true)
    else (equalMatch env crt.value value, true)
  | .notEqual => (!equalMatch env crt.value value, false)
  | .contains => (textContains value crt.value, true)
  | .startsWith => (textStartsWith value crt.value, true)
  | .regex => (matchString env crt.value value, true)
  | .notRegex => (!matchString env crt.value value, false)
  | _ => (false, true)

structure Workload where
  image : String
  hostName : String
  name : String
  service : String
  domain : String
  labels : AList fun _ : String => String

def outcomeOf (key : String) (result : Bool × Bool) : SignedCriteria.Outcome String :=
  { key := key, met := result.1, positive := result.2 }

/-- The outcome of one criterion; there is none for an address. -/
def workloadOutcome (workload : Workload) (crt : CriteriaEntry) :
    Option (SignedCriteria.Outcome String) :=
  if crt.key = criteriaKeyImage then
    some (outcomeOf crt.key (isCriterionMet env crt workload.image))
  else if crt.key = criteriaKeyHost then
    some (outcomeOf crt.key (isCriterionMet env crt workload.hostName))
  else if crt.key = criteriaKeyWorkload then
    some (outcomeOf crt.key (isCriterionMet env crt workload.name))
  else if crt.key = criteriaKeyService then
    some (outcomeOf crt.key (isCriterionMet env crt workload.service))
  else if crt.key = criteriaKeyDomain ∨ crt.key = criteriaKeyNamespace then
    some (outcomeOf crt.key (isCriterionMet env crt workload.domain))
  else if crt.key = criteriaKeyAddress then none
  else
    match workload.labels.lookup crt.key with
    | some value => some (outcomeOf criteriaKeyLabel (isCriterionMet env crt value))
    | none => some (outcomeOf criteriaKeyLabel (false, true))

/-- The pass over the criteria; it ends at an address. -/
def noteCriteria (env : RegexEnv) (workload : Workload) :
    SignedCriteria.Combined String → List CriteriaEntry → Option (SignedCriteria.Combined String)
  | combined, [] => some combined
  | combined, crt :: selector =>
    match workloadOutcome env workload crt with
    | none => none
    | some outcome => noteCriteria env workload (combined.note outcome) selector

def isWorkloadSelected (workload : Workload) (selector : List CriteriaEntry) : Bool :=
  match noteCriteria env workload { mets := ∅, poss := ∅ } selector with
  | none => false
  | some combined => combined.verdict

/-- The criteria that select service groups. -/
def isDomainKey (key : String) : Bool := key = criteriaKeyDomain ∨ key = criteriaKeyNamespace

def noteDomainCriterion (domain : String)
    (combined : SignedCriteria.Combined String) (crt : CriteriaEntry) :
    SignedCriteria.Combined String :=
  if isDomainKey crt.key then combined.note (outcomeOf crt.key (isCriterionMet env crt domain))
  else combined

/-- Whether a service group of the domain is selected. -/
def isSvcIpGroupSelected (domain : String) (selector : List CriteriaEntry) : Bool :=
  (selector.foldl (noteDomainCriterion env domain) { mets := ∅, poss := ∅ }).verdict

section Meaning

variable {env : RegexEnv} {workload : Workload} {domain : String}
variable {selector : List CriteriaEntry}

def workloadOutcomes (env : RegexEnv) (workload : Workload)
    (selector : List CriteriaEntry) : List (SignedCriteria.Outcome String) :=
  selector.filterMap (workloadOutcome env workload)

def domainOutcome (env : RegexEnv) (domain : String) (crt : CriteriaEntry) :
    Option (SignedCriteria.Outcome String) :=
  if isDomainKey crt.key then some (outcomeOf crt.key (isCriterionMet env crt domain))
  else none

def domainOutcomes (env : RegexEnv) (domain : String)
    (selector : List CriteriaEntry) : List (SignedCriteria.Outcome String) :=
  selector.filterMap (domainOutcome env domain)

/-- Some type has a positive criterion but none that is met, and negative ones
of both outcomes. -/
def HasMixedType (outcomes : List (SignedCriteria.Outcome String)) : Prop :=
  ∃ outcome ∈ outcomes, SignedCriteria.Mixed (ofKey outcome.key outcomes)

instance (outcomes : List (SignedCriteria.Outcome String)) : Decidable (HasMixedType outcomes) :=
  inferInstanceAs (Decidable (∃ outcome ∈ outcomes, _))

theorem workloadOutcome_some {crt : CriteriaEntry} (noAddress : crt.key ≠ criteriaKeyAddress) :
    ∃ outcome, workloadOutcome env workload crt = some outcome := by
  unfold workloadOutcome
  repeat' split
  all_goals exact ⟨_, rfl⟩

section

variable (noAddress : ∀ crt ∈ selector, crt.key ≠ criteriaKeyAddress)
include noAddress

theorem noteCriteria_eq (combined : SignedCriteria.Combined String) :
    noteCriteria env workload combined selector =
      some ((workloadOutcomes env workload selector).foldl
        SignedCriteria.Combined.note combined) := by
  induction selector generalizing combined with
  | nil => rfl
  | cons crt selector induction =>
    obtain ⟨outcome, found⟩ := workloadOutcome_some (noAddress crt List.mem_cons_self)
    have later := induction (fun other member =>
      noAddress other (List.mem_cons_of_mem _ member))
      (combined.note outcome)
    rw [noteCriteria, workloadOutcomes, List.filterMap_cons, found]
    exact later

end

theorem isSvcIpGroupSelected_eq (selector : List CriteriaEntry) :
    isSvcIpGroupSelected env domain selector = (combine
        (domainOutcomes env domain selector)).verdict := by
  unfold isSvcIpGroupSelected combine
  generalize ({ mets := ∅, poss := ∅ } : SignedCriteria.Combined String) = combined
  induction selector generalizing combined with
  | nil => rfl
  | cons crt selector induction =>
    rw [List.foldl_cons, induction, domainOutcomes, domainOutcomes, List.filterMap_cons]
    unfold noteDomainCriterion domainOutcome
    split
    · rfl
    · rfl

end Meaning

/-- The criteria select, in any order, what they mean exactly if no type is
mixed or they do not mean to select anyway. -/
theorem criteria_select_what_they_mean_iff (env : RegexEnv)
    (workload : Workload) (domain : String) {selector : List CriteriaEntry}
    (noAddress : ∀ crt ∈ selector, crt.key ≠ criteriaKeyAddress) :
    ((∀ permuted, List.Perm permuted selector → isWorkloadSelected env workload permuted =
          SignedCriteria.meantVerdict (workloadOutcomes env workload selector)) ↔
      (HasMixedType (workloadOutcomes env workload selector) →
        SignedCriteria.meantVerdict (workloadOutcomes env workload selector) = false)) ∧
    ((∀ permuted, List.Perm permuted selector → isSvcIpGroupSelected env domain permuted =
          SignedCriteria.meantVerdict (domainOutcomes env domain selector)) ↔
      (HasMixedType (domainOutcomes env domain selector) →
        SignedCriteria.meantVerdict (domainOutcomes env domain selector) = false)) := by
  constructor
  · rw [HasMixedType, workloadOutcomes, ← verdict_any_order_iff]
    refine forall_congr' fun permuted => imp_congr_right fun perm => ?_
    have noAddress : ∀ crt ∈ permuted, crt.key ≠ criteriaKeyAddress :=
      fun crt member => noAddress crt (perm.mem_iff.mp member)
    rw [isWorkloadSelected, noteCriteria_eq noAddress]
    rfl
  · rw [HasMixedType, domainOutcomes, ← verdict_any_order_iff]
    refine forall_congr' fun permuted => imp_congr_right fun _ => ?_
    rw [isSvcIpGroupSelected_eq]
    rfl

def webWorkload : Workload :=
  { image := "nginx", hostName := "host", name := "web-1", service := "web"
    domain := "default", labels := ∅ }

def noRegex : RegexEnv := { compile := fun _ => none }

def notService : CriteriaEntry := { key := criteriaKeyService, value := value, op := .notEqual }

def isService : CriteriaEntry := { key := criteriaKeyService, value := value, op := .equal }

theorem criteria_select_what_they_mean_web :
    isWorkloadSelected noRegex webWorkload [isService "web", notService "db"] =
      SignedCriteria.meantVerdict (workloadOutcomes noRegex webWorkload
        [notService "db", isService "web"]) :=
  (@criteria_select_what_they_mean_iff noRegex webWorkload ""
    [notService "db", isService "web"] (by decide)).1.mpr (by decide) _
    (List.Perm.swap _ _ _)

/-- Two negative criteria in front of a positive one are joined by "and". -/
theorem criteria_depend_on_order :
    isWorkloadSelected noRegex webWorkload
        [notService "web", notService "db", isService "api"] = false ∧
      isWorkloadSelected noRegex webWorkload
        [isService "api", notService "web", notService "db"] = true ∧
      SignedCriteria.meantVerdict (workloadOutcomes noRegex webWorkload
        [notService "web", notService "db", isService "api"]) = true := by decide

end NeuVector.Share
