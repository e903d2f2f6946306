import NeuVector.Controller.Admission

/-!
# Matching an admission rule

`isAdmissionRuleMet` of `controller/cache/admission.go` goes through the
criteria of a rule and combines their outcomes by name.  The outcome is kept
in two variables outside the loop.  A criterion on pod security that no
property meets does not set them, so it has the outcome of the criterion
before it.
-/

namespace NeuVector.Controller

open Library Share

variable (env : AdmEnv) (crt : AdmCriterion) (c : AdmContainerInfo)

def resourceValue : AdmName → Option Float
  | .cpuLimit => if (0 : Float) ≤ c.cpuLimits then some c.cpuLimits else none
  | .cpuRequest =>
    if (0 : Float) ≤ c.cpuRequests then some c.cpuRequests else none
  | .memoryLimit =>
    if 0 ≤ c.memoryLimits then some (Float.ofInt c.memoryLimits) else none
  | .memoryRequest =>
    if 0 ≤ c.memoryRequests then some (Float.ofInt c.memoryRequests)
    else none
  | _ => none

def isResourceLimitCriterionMet : Bool × Bool :=
  (crt.subCriteria.any fun sc =>
    sc.value ≠ "" &&
      match resourceValue c sc.name with
      | none => false
      | some value => (isNumericCriterionMet sc.op (some value) (numberOf env sc.value)).1, true)

def httpsScheme : String := "https://"

/-- A registry has a dot in its host name, or is the local host. -/
def isRegistryHost (host : List Char) : Bool :=
  let name := host.takeWhile (· ≠ ':')
  name.contains '.' || name = "localhost".toList

/-- How an image is named in a criterion: with a registry, with a tag. -/
def imageValueParts (crtValue : String) : Bool × Bool :=
  let hasScheme := textStartsWith crtValue httpsScheme
  let value :=
    if hasScheme then crtValue.toList.drop httpsScheme.length
    else crtValue.toList
  let host := value.takeWhile (· ≠ '/')
  let hasRegistry := value.contains '/' && !host.isEmpty && isRegistryHost host
  let beforeTag := value.length - (value.reverse.takeWhile (· ≠ ':')).length
  let tagAt := if value.contains ':' then beforeTag - 1 else 0
  let hasTag := 0 < tagAt && ((hasRegistry && host.length < tagAt) || (!hasRegistry && !hasScheme))
  (hasRegistry, hasTag)

def imageFullName (hasRegistry hasTag : Bool) (ctnerReg : String) : String :=
  let repo := if hasRegistry then ctnerReg ++ c.imageRepo else c.imageRepo
  if hasTag then
    if textStartsWith c.imageTag "sha" && c.imageTag.toList.contains ':' then
      repo ++ "@" ++ c.imageTag
    else repo ++ ":" ++ c.imageTag
  else repo

def matchImageValue (crtOp : CriteriaOp) (crtValue : String) (c : AdmContainerInfo) : Bool :=
  let (hasRegistry, hasTag) := imageValueParts crtValue
  let pattern :=
    if hasRegistry && !textStartsWith crtValue httpsScheme then httpsScheme ++ crtValue
    else crtValue
  c.imageRegistry.any fun ctnerReg =>
    let fullName := imageFullName c hasRegistry hasTag ctnerReg
    match crtOp with
    | .regex => matchString env.toRegexEnv pattern fullName
    | _ => equalMatch env.toRegexEnv pattern fullName

def isImageCriterionMet : Bool × Bool :=
  let matched := fun crtValue => matchImageValue env crt.op crtValue c
  match crt.op with
  | .regex => (matched crt.value, true)
  | .containsAll => (crt.valueSlice.all matched, true)
  | .containsAny => (crt.valueSlice.any matched, true)
  | .notContainsAny => (crt.valueSlice.all fun crtValue => !matched crtValue, false)
  | .containsOtherThan => (crt.valueSlice.any fun crtValue => !matched crtValue, true)
  | _ => (false, true)

structure AdmRequest where
  resObject : AdmResObject
  container : AdmContainerInfo
  image : ScannedImageSummary
  rootAvail : Bool

namespace AdmRequest

variable (request : AdmRequest)

def runsAsRoot : Bool :=
  request.container.runAsUser = 0 || (request.container.runAsUser = -1 && request.image.runAsRoot)

/-- The properties a criterion on pod security looks at. -/
def pspProps : List Bool :=
  [request.container.privileged, request.runsAsRoot,
    request.container.allowPrivilegeEscalation, request.container.hostIPC,
    request.container.hostNetwork, request.container.hostPID]

end AdmRequest

/-- The outcome over two maps of properties, and the name of the source. -/
def twoMapsCriterionMet (fromResource fromImage : GoMap String String)
    (both resourceOnly imageOnly : String) : (Bool × Bool) × String :=
  if !fromResource.entries.isEmpty && !fromImage.entries.isEmpty then
    (isComplexMapCriterionMet env crt (mergeStringMaps fromResource fromImage), both)
  else if !fromResource.entries.isEmpty then (isMapCriterionMet env crt fromResource, resourceOnly)
  else (isMapCriterionMet env crt fromImage, imageOnly)

variable (request : AdmRequest)

def labelsCriterionMet : (Bool × Bool) × String :=
  twoMapsCriterionMet env crt request.resObject.labels request.image.labels
    "resource and image labels" "resource labels" "image labels"

def envVarsCriterionMet : (Bool × Bool) × String :=
  twoMapsCriterionMet env crt request.container.envVars request.image.envVars
    "resource and image environment variables"
    "resource environment variables" "image environment variables"

def pspMatches : Bool :=
  request.pspProps.any fun prop => (isStringCriterionMet env crt (formatBool prop)).1

/-- The variables of the loop after a criterion: whether it is met, and its
sign. -/
def criterionOutcome (previous : Bool × Bool) (crt : AdmCriterion) : Bool × Bool :=
  let c := request.container
  let scannedImage := request.image
  let onBool := fun value => isStringCriterionMet env crt (formatBool value)
  match crt.name with
  | .user =>
    if request.rootAvail then isStringCriterionMet env crt request.resObject.userName
    else (false, true)
  | .k8sGroups =>
    if request.rootAvail then isSetCriterionMet env crt request.resObject.groups
    else (false, true)
  | .inNamespace => isStringCriterionMet env crt request.resObject.inNamespace
  | .labels => (labelsCriterionMet env crt request).1
  | .image => isImageCriterionMet env crt c
  | .imageRegistry => isSetCriterionMet env crt c.imageRegistry
  | .cveHighCount => isCveCountCriterionMet env crt false 0 scannedImage.highVulInfo
  | .cveMediumCount => isCveCountCriterionMet env crt false 0 scannedImage.mediumVulInfo
  | .cveHighWithFixCount =>
    isCveCountCriterionMet env crt true scannedImage.highVulsWithFix scannedImage.highVulInfo
  | .cveScoreCount =>
    isCveScoreCountCriterionMet env crt scannedImage.highVulInfo
      scannedImage.mediumVulInfo scannedImage.lowVulInfo
  | .cveScore =>
    isNumericCriterionMet crt.op (some scannedImage.vulScore.toFloat) (numberOf env crt.value)
  | .imageScanned => onBool scannedImage.scanned
  | .imageSigned => onBool scannedImage.signed
  | .runAsPrivileged => onBool c.privileged
  | .runAsRoot => onBool request.runsAsRoot
  | .allowPrivEscalation => onBool c.allowPrivilegeEscalation
  | .mountVolumes => isSetCriterionMet env crt c.volMounts
  | .envVars => (envVarsCriterionMet env crt request).1
  | .cveNames => isSetCriterionMet env crt scannedImage.vulNames
  | .imageCompliance => onBool (0 < scannedImage.secretsCnt || 0 < scannedImage.setIDPermCnt)
  | .envVarSecrets => onBool (0 < c.envSecrets)
  | .imageNoOS => onBool (scannedImage.baseOS = "")
  | .sharePidWithHost => onBool c.hostPID
  | .shareIpcWithHost => onBool c.hostIPC
  | .shareNetWithHost => onBool c.hostNetwork
  | .pspCompliance =>
    if pspMatches env crt request then (true, true) else previous
  | .resourceLimit => isResourceLimitCriterionMet env crt c
  | _ => (false, true)

/-- The source that is remembered for a criterion that is met. -/
def criterionSource (previous : String) (crt : AdmCriterion) : String :=
  match crt.name with
  | .labels =>
    let ((met, _), source) := labelsCriterionMet env crt request
    if met then source else previous
  | .envVars =>
    let ((met, _), source) := envVarsCriterionMet env crt request
    if met then source else previous
  | _ => previous

structure AdmLoop where
  outcome : Bool × Bool
  matchedSource : String
  combined : SignedCriteria.Combined AdmName

def AdmLoop.init : AdmLoop :=
  { outcome := (false, false), matchedSource := "", combined := { mets := ∅, poss := ∅ } }

def admStep (loop : AdmLoop) (crt : AdmCriterion) : AdmLoop :=
  let outcome := criterionOutcome env request loop.outcome crt
  { outcome := outcome
    matchedSource := criterionSource env request loop.matchedSource crt
    combined := loop.combined.note { key := crt.name, met := outcome.1, positive := outcome.2 } }

def isAdmissionRuleMet (criteria : List AdmCriterion) : Bool × String :=
  let loop := criteria.foldl (admStep env request) .init
  if loop.combined.verdict then (true, loop.matchedSource) else (false, "")

section Independence

variable {env : AdmEnv} {request : AdmRequest}

def outcomeAfter (env : AdmEnv) (request : AdmRequest)
    (before : List AdmCriterion) (crt : AdmCriterion) : Bool × Bool :=
  criterionOutcome env request (before.foldl (admStep env request) .init).outcome crt

/-- The outcome of each criterion does not depend on what is before it, and
neighbours of different names may be swapped. -/
structure CriteriaIndependent (env : AdmEnv) (request : AdmRequest)
    (criteria : List AdmCriterion) : Prop where
  outcomes : ∀ crt ∈ criteria, ∀ before other,
    outcomeAfter env request before crt = outcomeAfter env request other crt
  swaps : ∀ before first second after, criteria = before ++ first :: second :: after →
    first.name ≠ second.name →
    (isAdmissionRuleMet env request criteria).1 =
      (isAdmissionRuleMet env request (before ++ second :: first :: after)).1

/-- Every criterion on pod security is met by some property. -/
def PspMatched (env : AdmEnv) (request : AdmRequest) (criteria : List AdmCriterion) : Prop :=
  ∀ crt ∈ criteria, crt.name = .pspCompliance → pspMatches env crt request = true

/-- A criterion sets the variables, unless it is one on pod security that no
property meets. -/
theorem criterionOutcome_independent {crt : AdmCriterion}
    (sets : crt.name = .pspCompliance → pspMatches env crt request = true)
    (previous other : Bool × Bool) :
    criterionOutcome env request previous crt = criterionOutcome env request other crt := by
  unfold criterionOutcome
  cases name : crt.name with
  | pspCompliance => simp only [sets name, if_true]
  | _ => rfl

def ownOutcome (env : AdmEnv) (request : AdmRequest) (crt : AdmCriterion) :
    SignedCriteria.Outcome AdmName :=
  { key := crt.name
    met := (criterionOutcome env request (false, false) crt).1
    positive := (criterionOutcome env request (false, false) crt).2 }

theorem admLoop_combined {criteria : List AdmCriterion}
    (matched : PspMatched env request criteria) (loop : AdmLoop) :
    (criteria.foldl (admStep env request) loop).combined =
      (criteria.map (ownOutcome env request)).foldl SignedCriteria.Combined.note loop.combined := by
  induction criteria generalizing loop with
  | nil => rfl
  | cons crt criteria induction =>
    have own := criterionOutcome_independent
      (matched crt List.mem_cons_self) loop.outcome (false, false)
    have later := induction (List.forall_mem_cons.mp matched).2
      (admStep env request loop crt)
    rw [List.foldl_cons, later, List.map_cons, List.foldl_cons]
    simp only [admStep, own, ownOutcome]

theorem isAdmissionRuleMet_verdict {criteria : List AdmCriterion}
    (matched : PspMatched env request criteria) :
    (isAdmissionRuleMet env request criteria).1 = (SignedCriteria.combine
        (criteria.map (ownOutcome env request))).verdict := by
  unfold isAdmissionRuleMet SignedCriteria.combine
  simp only [admLoop_combined matched]
  split
  next verdict => exact verdict.symm
  next verdict => exact (Bool.eq_false_iff.mpr verdict).symm

end Independence

/-- The criteria of an admission rule are independent exactly if every
criterion on pod security is met by some property. -/
theorem admission_criteria_independent_iff (env : AdmEnv)
    (request : AdmRequest) (criteria : List AdmCriterion) :
    CriteriaIndependent env request criteria ↔ PspMatched env request criteria := by
  constructor
  · intro independent crt member name
    by_contra unmatched
    have carried := independent.outcomes crt member []
      [{ name := .other "", op := .unknown, value := "", valueSlice := [], subCriteria := [] }]
    simp [outcomeAfter, criterionOutcome, name, unmatched, admStep, AdmLoop.init] at carried
  · intro matched
    constructor
    · intro crt member before other
      exact criterionOutcome_independent (matched crt member) _ _
    · rintro before first second after rfl different
      have swapped : PspMatched env request (before ++ second :: first :: after) := by
        intro crt member
        apply matched
        simpa [or_left_comm] using member
      rw [isAdmissionRuleMet_verdict matched, isAdmissionRuleMet_verdict swapped]
      simp only [List.map_append, List.map_cons]
      exact SignedCriteria.verdict_swap _ _ different

def plainRequest : AdmRequest :=
  { resObject :=
      { inNamespace := "default", userName := "", groups := [], labels := ∅ }
    container :=
      { imageRegistry := [], imageRepo := "", imageTag := ""
        privileged := false, runAsUser := 1000, volMounts := []
        envVars := ∅, envSecrets := 0, hostNetwork := false
        hostPID := false, hostIPC := false
        allowPrivilegeEscalation := false, cpuLimits := 0, cpuRequests := 0
        memoryLimits := 0, memoryRequests := 0 }
    image :=
      { baseOS := "", highVulsWithFix := 0, vulScore := 0, vulNames := []
        scanned := false, signed := false, runAsRoot := false
        envVars := ∅, labels := ∅, highVulInfo := none
        mediumVulInfo := none, lowVulInfo := [], setIDPermCnt := 0
        secretsCnt := 0 }
    rootAvail := true }

def plainAdmEnv : AdmEnv :=
  { compile := fun _ => none, parseFloat := fun _ _ => (0, false), hoursSince := fun _ => 0 }

def inDefaultNamespace : AdmCriterion :=
  { name := .inNamespace, op := .equal, value := "default", valueSlice := [], subCriteria := [] }

def violatesPsp : AdmCriterion :=
  { name := .pspCompliance, op := .equal, value := "true", valueSlice := [], subCriteria := [] }

/-- The criterion on pod security is taken as met after one that is. -/
theorem psp_criterion_carries_over :
    (isAdmissionRuleMet plainAdmEnv plainRequest [violatesPsp, inDefaultNamespace]).1 = false ∧
      (isAdmissionRuleMet plainAdmEnv plainRequest [inDefaultNamespace, violatesPsp]).1 = true := by
  decide

end NeuVector.Controller
