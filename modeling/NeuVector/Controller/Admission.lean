import NeuVector.Share.Criteria
import NeuVector.Controller.PolicyStore

/-!
# Criteria of admission rules

An admission rule is met by a request if its criteria are
(`controller/cache/admission.go`).  This module has the data that the criteria
look at and the functions that decide a single criterion.  Regular
expressions, the reading of numbers and the age of a vulnerability are
parameters.  Sets are lists; nothing depends on their order.
-/

namespace NeuVector.Controller

open Share

/-- The names of criteria and of their parts. -/
inductive AdmName where
  | user
  | k8sGroups
  | inNamespace
  | labels
  | image
  | imageRegistry
  | cveHighCount
  | cveMediumCount
  | cveHighWithFixCount
  | cveScoreCount
  | cveScore
  | imageScanned
  | imageSigned
  | runAsPrivileged
  | runAsRoot
  | allowPrivEscalation
  | mountVolumes
  | envVars
  | cveNames
  | imageCompliance
  | envVarSecrets
  | imageNoOS
  | sharePidWithHost
  | shareIpcWithHost
  | shareNetWithHost
  | pspCompliance
  | resourceLimit
  | publishDays
  | count
  | cpuRequest
  | cpuLimit
  | memoryRequest
  | memoryLimit
  | other (name : String)
  deriving DecidableEq

structure AdmSubCriterion where
  name : AdmName
  op : CriteriaOp
  value : String
  deriving DecidableEq

structure AdmCriterion where
  name : AdmName
  op : CriteriaOp
  value : String
  valueSlice : List String
  subCriteria : List AdmSubCriterion
  deriving DecidableEq

structure ScannedVulInfo where
  publishDate : Int
  withFix : Bool
  score : Float32

structure AdmResObject where
  inNamespace : String
  userName : String
  groups : List String
  labels : GoMap String String

structure AdmContainerInfo where
  imageRegistry : List String
  imageRepo : String
  imageTag : String
  privileged : Bool
  runAsUser : Int
  volMounts : List String
  envVars : GoMap String String
  envSecrets : Nat
  hostNetwork : Bool
  hostPID : Bool
  hostIPC : Bool
  allowPrivilegeEscalation : Bool
  cpuLimits : Float
  cpuRequests : Float
  memoryLimits : Int
  memoryRequests : Int

structure ScannedImageSummary where
  baseOS : String
  highVulsWithFix : Int
  vulScore : Float32
  vulNames : List String
  scanned : Bool
  signed : Bool
  runAsRoot : Bool
  envVars : GoMap String String
  labels : GoMap String String
  /-- The maps are missing in summaries of older versions. -/
  highVulInfo : Option (GoMap String ScannedVulInfo)
  mediumVulInfo : Option (GoMap String ScannedVulInfo)
  lowVulInfo : List Float32
  setIDPermCnt : Int
  secretsCnt : Int

structure AdmEnv extends RegexEnv where
  /-- The number read with a precision, and whether it could be read. -/
  parseFloat : Nat → String → Float × Bool
  hoursSince : Int → Float

def formatBool (value : Bool) : String := if value then "true" else "false"

variable (env : AdmEnv)

def numberOf (text : String) : Option Float :=
  match env.parseFloat 64 text with
  | (number, true) => some number
  | (_, false) => none

def isNumericCriterionMet (op : CriteriaOp) (first second : Option Float) : Bool × Bool :=
  match first, second with
  | some number1, some number2 =>
    match op with
    | .biggerEqualThan => (number2 ≤ number1, true)
    | .biggerThan => (number2 < number1, true)
    | .lessEqualThan => (number1 ≤ number2, true)
    | _ => (false, true)
  | _, _ => (false, true)

variable (crt : AdmCriterion)

def isSetCriterionMet (valueSet : List String) : Bool × Bool :=
  let has := fun crtValue => valueSet.any fun value => equalMatch env.toRegexEnv crtValue value
  let listed := fun value =>
    crt.valueSlice.any fun crtValue => equalMatch env.toRegexEnv crtValue value
  match crt.op with
  | .containsAll => (!valueSet.isEmpty && crt.valueSlice.all has, true)
  | .containsAny => (crt.valueSlice.any has, true)
  | .notContainsAny => (!crt.valueSlice.any has, false)
  | .containsOtherThan => (valueSet.any fun value => !listed value, true)
  | _ => (false, true)

def isStringCriterionMet (value : String) : Bool × Bool :=
  match crt.op with
  | .equal => (equalMatch env.toRegexEnv crt.value value, true)
  | .notEqual => (!equalMatch env.toRegexEnv crt.value value, false)
  | .contains => (textContains value crt.value, true)
  | .startsWith => (textStartsWith value crt.value, true)
  | .regex => (matchString env.toRegexEnv crt.value value, true)
  | .notRegex => (!matchString env.toRegexEnv crt.value value, false)
  | .containsAll | .containsAny | .notContainsAny | .containsOtherThan =>
    isSetCriterionMet env crt [value]
  | _ => (false, true)

/-- The vulnerabilities that count, published long enough ago. -/
def publishedCount (checkWithFix : Bool) (publishDays : String)
    (vulInfo : GoMap String ScannedVulInfo) : Nat :=
  let hoursValue := 24 * (env.parseFloat 32 publishDays).1
  (vulInfo.entries.filter fun entry =>
    (!checkWithFix || entry.2.withFix) && crt.op = .biggerEqualThan &&
      (hoursValue ≤ env.hoursSince entry.2.publishDate : Bool)).length

def cveCount (checkWithFix : Bool) (highVulsWithFix : Int)
    (vulInfo : Option (GoMap String ScannedVulInfo)) : Int :=
  match crt.subCriteria with
  | first :: later =>
    if (first :: later).any fun sc => sc.name = .publishDays then
      match vulInfo with
      | some vulInfo => publishedCount env crt checkWithFix first.value vulInfo
      | none => 1
    else 0
  | [] =>
    if checkWithFix then highVulsWithFix
    else ((vulInfo.map fun infos => infos.entries.length).getD 0 : Nat)

def isCveCountCriterionMet (checkWithFix : Bool) (highVulsWithFix : Int)
    (vulInfo : Option (GoMap String ScannedVulInfo)) : Bool × Bool :=
  isNumericCriterionMet crt.op
    (some (Float.ofInt (cveCount env crt checkWithFix highVulsWithFix vulInfo)))
    (numberOf env crt.value)

def scoresOf (vulInfo : Option (GoMap String ScannedVulInfo)) : List Float32 :=
  match vulInfo with
  | none => []
  | some infos => infos.entries.map fun entry => entry.2.score

def isCveScoreCountCriterionMet (highVulInfo mediumVulInfo : Option (GoMap String ScannedVulInfo))
    (lowVulInfo : List Float32) : Bool × Bool :=
  match crt.subCriteria with
  | [] => (false, true)
  | crtSub :: _ =>
    if crt.name ≠ .cveScoreCount ∨ crt.op ≠ .biggerEqualThan ∨
        crtSub.name ≠ .count ∨ crtSub.op ≠ .biggerEqualThan then
      (false, true)
    else
      match env.parseFloat 32 crt.value with
      | (_, false) => (false, true)
      | (score, true) =>
        let scores := scoresOf highVulInfo ++ scoresOf mediumVulInfo ++ lowVulInfo
        let count := (scores.filter fun one => (score.toFloat32 ≤ one : Bool)).length
        isNumericCriterionMet crtSub.op (some (Float.ofNat count)) (numberOf env crtSub.value)

def isGoSpace (char : Char) : Bool :=
  let code := char.toNat
  code = 32 || (9 ≤ code && code ≤ 13) || code = 0x85 || code = 0xA0 ||
    code = 0x1680 || (0x2000 ≤ code && code ≤ 0x200A) || code = 0x2028 ||
    code = 0x2029 || code = 0x202F || code = 0x205F || code = 0x3000

def trimSpace (text : List Char) : String :=
  String.ofList (((text.dropWhile isGoSpace).reverse.dropWhile isGoSpace).reverse)

/-- A value of the form `key=value`, or just a key. -/
def keyValue (crtValue : String) : String × String :=
  match crtValue.toList.span (· ≠ '=') with
  | (_, []) => (crtValue, "")
  | (key, _ :: value) => (trimSpace key, trimSpace value)

/-- The keys and values of the criterion; a later one replaces an earlier. -/
def kvMapOf : GoMap String String :=
  crt.valueSlice.foldl (fun kvMap crtValue =>
      kvMap.insert (keyValue crtValue).1 (keyValue crtValue).2) ∅

/-- Whether one of the values of a key is asked for. -/
def doesComplexMapContain (key value : String) (propMap : GoMap String (List String)) : Bool :=
  match propMap.lookup key with
  | none => false
  | some propValues =>
    value = "" || propValues.any fun propValue => equalMatch env.toRegexEnv value propValue

def doesPropMatchCrt (propKey propValue : String) (kvMap : GoMap String String) : Bool :=
  match kvMap.lookup propKey with
  | none => false
  | some value => value = "" || equalMatch env.toRegexEnv value propValue

def isComplexMapCriterionMet (propMap : GoMap String (List String)) : Bool × Bool :=
  let kvMap := kvMapOf crt
  let has := fun (entry : Sigma fun _ : String => String) =>
    doesComplexMapContain env entry.1 entry.2 propMap
  if propMap.entries.isEmpty then
    match crt.op with
    | .notContainsAny => (true, false)
    | _ => (false, true)
  else
    match crt.op with
    | .containsAll => (kvMap.entries.all has, true)
    | .containsAny => (kvMap.entries.any has, true)
    | .notContainsAny => (!kvMap.entries.any has, false)
    | .containsOtherThan =>
      (propMap.entries.any fun prop => prop.2.any fun propValue =>
        !doesPropMatchCrt env prop.1 propValue kvMap, true)
    | _ => (false, true)

def singleValues (propMap : GoMap String String) : GoMap String (List String) :=
  propMap.entries.foldl (fun single prop => single.insert prop.1 [prop.2]) ∅

def isMapCriterionMet (propMap : GoMap String String) : Bool × Bool :=
  isComplexMapCriterionMet env crt (singleValues propMap)

/-- The values of both maps; equal ones once. -/
def mergeStringMaps (propFromYaml propFromImage : GoMap String String) :
    GoMap String (List String) :=
  propFromImage.entries.foldl (fun union prop =>
      match propFromYaml.lookup prop.1 with
      | some value =>
        if prop.2 ≠ value then union.insert prop.1 ((union.lookup prop.1).getD [] ++ [prop.2])
        else union
      | none => union.insert prop.1 [prop.2])
    (singleValues propFromYaml)

end NeuVector.Controller
