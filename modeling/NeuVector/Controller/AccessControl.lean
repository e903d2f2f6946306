import NeuVector.Controller.LoginSession
import NeuVector.Share.Criteria

/-!
# Access control of requests

The decisions of `controller/access/access.go` on the objects of a request.  An
object reports two lists of domains, each of which may be nil.  The tables that
give the category and the required permissions of a request are parameters.
-/

namespace NeuVector.Controller

open Share List

inductive AccessOP where
  | read
  | write
  deriving DecidableEq

inductive ApiCategory where
  | unknown | unsupported | skip | noAuth | debug | rtScan | regScan | cicdScan | cloud | infra
  | nvResource | workload | group | rtPolicies | admControl | compliance | auditEvents
  | securityEvents | events | authentication | authorization | systemConfig | ibmsa | fed
  | pwdProfile | vulnerability
  deriving DecidableEq

def permIbmsa : BitVec 64 := 0x1
def permFed : BitVec 64 := 0x2
def permNvResource : BitVec 64 := 0x4
def permRuntimeScanBasic : BitVec 64 := 0x8
def permRegScan : BitVec 64 := 0x10
def permCicdScan : BitVec 64 := 0x20
def permInfraBasic : BitVec 64 := 0x40
def permNetworkPolicyBasic : BitVec 64 := 0x80
def permSystemPolicyBasic : BitVec 64 := 0x100
def permGroupBasic : BitVec 64 := 0x200
def permAdmControl : BitVec 64 := 0x400
def permComplianceBasic : BitVec 64 := 0x800
def permAuditEvents : BitVec 64 := 0x1000
def permSecurityEventsBasic : BitVec 64 := 0x2000
def permEvents : BitVec 64 := 0x4000
def permAuthentication : BitVec 64 := 0x8000
def permAuthorization : BitVec 64 := 0x10000
def permSystemConfig : BitVec 64 := 0x20000
def permCloud : BitVec 64 := 0x40000
def permWorkloadBasic : BitVec 64 := 0x80000
def permVulnerability : BitVec 64 := 0x100000

structure Permits where
  read : BitVec 64
  write : BitVec 64
  deriving DecidableEq

def permsDomain : Permits :=
  let both := permRuntimeScanBasic ||| permRegScan ||| permNetworkPolicyBasic |||
    permSystemPolicyBasic ||| permGroupBasic ||| permWorkloadBasic ||| permComplianceBasic |||
    permAuthorization
  ⟨both ||| permSystemConfig ||| permAuditEvents ||| permSecurityEventsBasic ||| permEvents, both⟩

def permsFed : Permits :=
  let both := permFed ||| permNvResource ||| permAdmControl ||| permAuthentication ||| permCloud |||
    permInfraBasic ||| permVulnerability
  ⟨both ||| permsDomain.read, both ||| permsDomain.write ||| permSystemConfig ||| permCicdScan⟩

def Permits.mask (permits limits : Permits) : Permits :=
  ⟨permits.read &&& limits.read, permits.write &&& limits.write⟩

def Permits.boost (permits : Permits) (more : BitVec 64) : Permits :=
  ⟨permits.read ||| more, permits.write ||| more⟩

def Permits.at (permits : Permits) : AccessOP → BitVec 64
  | .read => permits.read
  | .write => permits.write

/-- All roles with their permissions; the role `none` is reserved and has none. -/
structure AccessEnv extends RegexEnv where
  allRoles : UserRole → Option Permits
  none_permits : ∀ permits, allRoles .none = some permits → permits = ⟨0, 0⟩

structure AccessControl where
  op : AccessOP
  roles : DomainRole
  /-- The roles on domains with a wildcard. -/
  wRoles : DomainRole
  apiCategoryID : ApiCategory
  requiredPermissions : BitVec 64
  boostPermissions : BitVec 64

/-- What the tables of methods and paths say of a request; `skip` marks only the
access controls that the controller makes for itself. -/
structure ApiRequest where
  category : ApiCategory
  permissions : BitVec 64
  category_ne : category ≠ .skip

def newAccessControl (request : ApiRequest) (op : AccessOP) (roles : DomainRole) : AccessControl :=
  { op, roles, wRoles := roles.filter fun entry => entry.1.toList.contains '*',
    apiCategoryID := request.category, requiredPermissions := request.permissions,
    boostPermissions := 0 }

def AccessControl.boosted (acc : AccessControl) (toBoost : BitVec 64) : AccessControl :=
  { acc with boostPermissions := toBoost }

def accessAllAsReader : String := "*"
def hiddenFedDomain : String := "$*&().^$"

variable (env : AccessEnv) (acc : AccessControl)

def getRolePermitValues (roleName : UserRole) (domain : String) : Permits :=
  match env.allRoles roleName with
  | none => ⟨0, 0⟩
  | some role =>
    if roleName = .ibmsa ∨ roleName = .importStatus then
      if domain = accessDomainGlobal then role else ⟨0, 0⟩
    else role.mask (if domain = accessDomainGlobal then permsFed else permsDomain)

def AccessControl.meets (required permits : Permits) : Bool :=
  (required.at acc.op ≠ 0 || acc.apiCategoryID = .skip) &&
    required.at acc.op = permits.at acc.op &&& required.at acc.op

def isDomainRoleAllowedToAccess (role : UserRole) (domain : String) (required : Permits) : Bool :=
  let permits := getRolePermitValues env role domain
  acc.meets required
    (if domain ≠ accessDomainGlobal ∨ role ≠ .none then permits.boost acc.boostPermissions
    else permits)

/-- Whether a role gives access to what the users of every domain may read. -/
def readsAll (required : Permits) (entry : String × UserRole) : Bool :=
  let permits := (getRolePermitValues env entry.2 accessAllAsReader).boost acc.boostPermissions
  (entry.1 = accessDomainGlobal || acc.op = .read) && acc.meets required permits

def isOneAccessAllowed (required : Permits) (domain : String) : Bool :=
  if domain = accessAllAsReader then acc.roles.any (readsAll env acc required)
  else
    (acc.roles.lookup domain).any (isDomainRoleAllowedToAccess env acc · domain required) ||
      acc.wRoles.any fun entry => domain ≠ accessDomainGlobal &&
        equalMatch env.toRegexEnv entry.1 domain &&
        isDomainRoleAllowedToAccess env acc entry.2 domain required

def isAccessAllowed (domains : List String) (required : Permits) : Bool :=
  domains.any (isOneAccessAllowed env acc required)

def isOwnAllowed (domains : List String) (required : Permits) : Bool :=
  domains.all (isOneAccessAllowed env acc required)

/-- The required permissions that a scope supports. -/
def AccessControl.required (limits : Permits) : Permits :=
  let required : Permits := ⟨acc.requiredPermissions, acc.requiredPermissions⟩
  if acc.requiredPermissions = permIbmsa then required else required.mask limits

def globalAllowed (required : Permits) : Bool :=
  isOneAccessAllowed env acc required accessDomainGlobal

/-- Both decisions, given that on a list of domains. -/
def authorizeBy (allowed : List String → Permits → Bool) (d1 d2 : Option (List String)) : Bool :=
  let required := acc.required permsFed
  let listed (domains : Option (List String)) :=
    allowed (domains.getD []) (acc.required permsDomain) || globalAllowed env acc required
  if d1 = none ∧ d2 = none then globalAllowed env acc required
  else if d2 = none then listed d1
  else if d1 = some [hiddenFedDomain] ∧ d2 = some [hiddenFedDomain] then
    globalAllowed env acc { required with write := required.write ||| permFed }
  else if acc.op = .write then listed d1 && listed d2
  else listed d1 || listed d2

def authorize (d1 d2 : Option (List String)) : Bool :=
  authorizeBy env acc (isAccessAllowed env acc) d1 d2

def authorizeOwn (d1 d2 : Option (List String)) : Bool :=
  authorizeBy env acc (isOwnAllowed env acc) d1 d2

structure RegistryFilter where
  org : String
  repo : String

structure RegistryConfig where
  openShift : Bool
  domains : Option (List String)
  createrDomains : Option (List String)
  parsedFilters : List RegistryFilter

/-- One filter of an OpenShift registry; `known` is the source's map of domains. -/
def addOrg (found : Option (List String) × List String) (filter : RegistryFilter) :
    Option (List String) × List String :=
  let (domains, known) := found
  let org :=
    if filter.org ≠ "" then filter.org else if filter.repo = ".*" then accessAllAsReader else ""
  if org ≠ "" ∧ filter.org ∉ known then (some (domains.getD [] ++ [org]), org :: known) else found

def RegistryConfig.getDomain (o : RegistryConfig) : Option (List String) × Option (List String) :=
  let domains := if o.domains.getD [] = [] then o.createrDomains else o.domains
  if o.openShift then ((o.parsedFilters.foldl addOrg (domains, domains.getD [])).1, none)
  else (domains, none)

def plainAccess : AccessEnv :=
  { compile := fun _ => none, allRoles := fun _ => none, none_permits := nofun }

theorem own_not_access_iff (domains : List String) (required : Permits) :
    isOwnAllowed env acc domains required = true ∧
      isAccessAllowed env acc domains required = false ↔ domains = [] := by
  cases domains <;> simp +contextual [isOwnAllowed, isAccessAllowed]

/-- One list is empty, so that all its domains are owned, and access is decided
by the other one. -/
def EmptyBeside (empty other : List String) : Prop :=
  empty = [] ∧
    if acc.op = .write then isOwnAllowed env acc other (acc.required permsDomain) = true
    else isAccessAllowed env acc other (acc.required permsDomain) = false

def OwnsNothing (d1 d2 : Option (List String)) : Prop :=
  globalAllowed env acc (acc.required permsFed) = false ∧ (d2 = none ∧ d1 = some [] ∨ d2 ≠ none ∧
      (EmptyBeside env acc (d1.getD []) (d2.getD []) ∨
        EmptyBeside env acc (d2.getD []) (d1.getD [])))

theorem owning_implies_access_iff (d1 d2 : Option (List String)) :
    (authorizeOwn env acc d1 d2 = true → authorize env acc d1 d2 = true) ↔
      ¬ OwnsNothing env acc d1 d2 := by
  have first := own_not_access_iff env acc (d1.getD []) (acc.required permsDomain)
  have second := own_not_access_iff env acc (d2.getD []) (acc.required permsDomain)
  unfold authorizeOwn authorize authorizeBy OwnsNothing EmptyBeside
  cases d2 with
  | none => cases d1 <;> grind
  | some domains => grind

/-- A user of one domain owns a registry with an empty list of domains and may
not access it. -/
theorem empty_registry_owned_not_accessed :
    let registry : RegistryConfig := ⟨false, none, some [], []⟩
    let acc := newAccessControl ⟨.regScan, permRegScan, nofun⟩ .read [("dev", .admin)]
    authorizeOwn plainAccess acc registry.getDomain.1 registry.getDomain.2 = true ∧
      authorize plainAccess acc registry.getDomain.1 registry.getDomain.2 = false := by decide

def Permits.Within (fewer more : Permits) : Prop :=
  ∀ op bit, (fewer.at op).getLsbD bit = true → (more.at op).getLsbD bit = true

section Within

variable {fewer more : Permits} (within : fewer.Within more)
include within

theorem Permits.Within.mask (limits : Permits) : (fewer.mask limits).Within (more.mask limits) := by
  intro op bit
  have := within op bit
  cases op <;> simp_all [Permits.mask, Permits.at]

theorem Permits.Within.boost (extra : BitVec 64) :
    (fewer.boost extra).Within (more.boost extra) := by
  intro op bit
  have := within op bit
  cases op <;> simp_all [Permits.boost, Permits.at] <;> grind

theorem AccessControl.meets_within {acc : AccessControl} {required : Permits}
    (met : acc.meets required fewer = true) : acc.meets required more = true := by
  simp only [AccessControl.meets, Bool.and_eq_true, decide_eq_true_eq] at met ⊢
  obtain ⟨asked, covered⟩ := met
  refine ⟨asked, BitVec.eq_of_getLsbD_eq fun bit _ => ?_⟩
  have same := congrArg (BitVec.getLsbD · bit) covered
  have := within acc.op bit
  grind

end Within

structure AccessEnv.Enlarges (env more : AccessEnv) : Prop where
  regex : more.toRegexEnv = env.toRegexEnv
  permits : ∀ role fewer, env.allRoles role = some fewer →
    ∃ larger, more.allRoles role = some larger ∧ fewer.Within larger

theorem getRolePermitValues_within {env more : AccessEnv} (enlarges : env.Enlarges more)
    (role : UserRole) (domain : String) :
    (getRolePermitValues env role domain).Within (getRolePermitValues more role domain) := by
  unfold getRolePermitValues
  cases known : env.allRoles role with
  | none => intro op bit; cases op <;> simp [Permits.at]
  | some fewer =>
    obtain ⟨larger, defined, within⟩ := enlarges.permits role fewer known
    simp only [defined]
    split
    · split
      · exact within
      · exact fun _ _ same => same
    · exact within.mask _

/-- Permissions and roles are added, the request stays the same. -/
structure Grows (env more : AccessEnv) (acc : AccessControl) (roles wRoles : DomainRole) :
    Prop where
  enlarges : env.Enlarges more
  entries : acc.roles ⊆ roles
  wildcards : acc.wRoles ⊆ wRoles
  lookup : ∀ domain role, acc.roles.lookup domain = some role → roles.lookup domain = some role

section Grows

variable {env more : AccessEnv} {acc : AccessControl} {roles wRoles : DomainRole}
  {d1 d2 : Option (List String)} (grows : Grows env more acc roles wRoles)
include grows

theorem Grows.oneAllowed {required : Permits} {domain : String}
    (allowed : isOneAccessAllowed env acc required domain = true) :
    isOneAccessAllowed more { acc with roles, wRoles } required domain = true := by
  have within := getRolePermitValues_within grows.enlarges
  have member : ∀ role, isDomainRoleAllowedToAccess env acc role domain required = true →
      isDomainRoleAllowedToAccess more { acc with roles, wRoles } role domain required = true := by
    intro role
    apply AccessControl.meets_within
    split
    · exact (within role domain).boost _
    · exact within role domain
  unfold isOneAccessAllowed at allowed ⊢
  by_cases every : domain = accessAllAsReader
  · simp only [every, if_true, any_eq_true, readsAll, Bool.and_eq_true] at allowed ⊢
    obtain ⟨entry, listed, here, meets⟩ := allowed
    exact ⟨entry, grows.entries listed, here,
      AccessControl.meets_within ((within _ _).boost _) meets⟩
  · simp only [every, if_false, Bool.or_eq_true, Option.any_eq_true, any_eq_true,
      Bool.and_eq_true] at allowed ⊢
    rcases allowed with ⟨role, found, allowed⟩ | ⟨entry, listed, matched, allowed⟩
    · exact .inl ⟨role, grows.lookup domain role found, member role allowed⟩
    · refine .inr ⟨entry, grows.wildcards listed, ?_, member _ allowed⟩
      rwa [grows.enlarges.regex]

theorem Grows.granted {allowed larger : List String → Permits → Bool}
    (lists : ∀ domains required, allowed domains required = true → larger domains required = true)
    (granted : authorizeBy env acc allowed d1 d2 = true) :
    authorizeBy more { acc with roles, wRoles } larger d1 d2 = true := by
  have global {required} : globalAllowed env acc required = true →
    globalAllowed more { acc with roles, wRoles } required = true := grows.oneAllowed
  have listed (domains required supported) (allows : (allowed domains required ||
      globalAllowed env acc supported) = true) : (larger domains required ||
        globalAllowed more { acc with roles, wRoles } supported) = true := by
    simp only [Bool.or_eq_true] at allows ⊢
    exact allows.imp (lists domains required) global
  simp only [authorizeBy] at granted ⊢
  split_ifs at granted ⊢
  · exact global granted
  · exact listed _ _ _ granted
  · exact global granted
  · rw [Bool.and_eq_true] at granted ⊢
    exact granted.imp (listed _ _ _) (listed _ _ _)
  · rw [Bool.or_eq_true] at granted ⊢
    exact granted.imp (listed _ _ _) (listed _ _ _)

theorem Grows.authorize (granted : authorize env acc d1 d2 = true) :
    authorize more { acc with roles, wRoles } d1 d2 = true := by
  apply grows.granted _ granted
  intro domains required allowed
  obtain ⟨domain, listed, one⟩ := any_eq_true.mp allowed
  exact any_eq_true.mpr ⟨domain, listed, grows.oneAllowed one⟩

theorem Grows.authorizeOwn (granted : authorizeOwn env acc d1 d2 = true) :
    authorizeOwn more { acc with roles, wRoles } d1 d2 = true := by
  apply grows.granted _ granted
  intro domains required allowed
  apply all_eq_true.mpr
  intro domain listed
  exact grows.oneAllowed (all_eq_true.mp allowed domain listed)

end Grows

variable (request : ApiRequest) (op : AccessOP) (toBoost : BitVec 64)

/-- The access control of a request, with permissions to boost. -/
def forRequest (roles : DomainRole) : AccessControl :=
  (newAccessControl request op roles).boosted toBoost

/-- The user has no role on the global domain, or the role `none`. -/
def NoGlobalRole (roles : DomainRole) : Prop :=
  ∀ role, roles.lookup accessDomainGlobal = some role → role = .none

theorem getRolePermitValues_none (domain : String) :
    getRolePermitValues env .none domain = ⟨0, 0⟩ := by
  unfold getRolePermitValues
  cases known : env.allRoles .none with
  | none => rfl
  | some permits => simp [env.none_permits permits known, Permits.mask]

theorem globalAllowed_noRole {roles : DomainRole} (noRole : NoGlobalRole roles)
    (required : Permits) :
    globalAllowed env (forRequest request op toBoost roles) required = false := by
  apply Bool.eq_false_iff.mpr
  intro allowed
  have other : accessDomainGlobal ≠ accessAllAsReader := by decide
  simp only [globalAllowed, isOneAccessAllowed, other, if_false, Bool.or_eq_true,
    Option.any_eq_true, ne_eq, not_true_eq_false, decide_false, Bool.false_and, any_eq_true,
    Bool.false_eq_true, and_false, exists_false, or_false] at allowed
  obtain ⟨role, found, allowed⟩ := allowed
  obtain rfl := noRole role found
  have asked : request.category ≠ .skip := request.category_ne
  cases op <;> simp [isDomainRoleAllowedToAccess, getRolePermitValues_none, AccessControl.meets,
    forRequest, newAccessControl, AccessControl.boosted, Permits.at, asked] at allowed

theorem access_grows_and_needs_global_role (roles : DomainRole) (d1 d2 : Option (List String)) :
    let acc := forRequest request op toBoost roles
    (∀ domain role, roles.lookup domain = none →
      let after := forRequest request op toBoost ((domain, role) :: roles)
      (authorize env acc d1 d2 = true → authorize env after d1 d2 = true) ∧
        (authorizeOwn env acc d1 d2 = true → authorizeOwn env after d1 d2 = true)) ∧
    (∀ more, env.Enlarges more →
      (authorize env acc d1 d2 = true → authorize more acc d1 d2 = true) ∧
        (authorizeOwn env acc d1 d2 = true → authorizeOwn more acc d1 d2 = true)) ∧
    (NoGlobalRole roles →
      d1 = none ∧ d2 = none ∨ d1 = some [hiddenFedDomain] ∧ d2 = some [hiddenFedDomain] →
      authorize env acc d1 d2 = false ∧ authorizeOwn env acc d1 d2 = false) := by
  refine ⟨?_, ?_, ?_⟩
  · intro domain role further
    have grows : Grows env env (forRequest request op toBoost roles) ((domain, role) :: roles)
        (forRequest request op toBoost ((domain, role) :: roles)).wRoles := by
      refine ⟨⟨rfl, fun _ permits known => ⟨permits, known, fun _ _ same => same⟩⟩,
        subset_cons_self _ _, filter_subset _ (subset_cons_self _ _), ?_⟩
      intro other kept (found : roles.lookup other = some kept)
      grind
    exact ⟨grows.authorize, grows.authorizeOwn⟩
  · intro more enlarges
    have grows : Grows env more (forRequest request op toBoost roles) roles
      (forRequest request op toBoost roles).wRoles := ⟨enlarges, .refl _, .refl _, fun _ _ => id⟩
    exact ⟨grows.authorize, grows.authorizeOwn⟩
  · intro noRole kind
    have refused := globalAllowed_noRole env request op toBoost noRole
    rcases kind with ⟨rfl, rfl⟩ | ⟨rfl, rfl⟩
    · exact ⟨refused _, refused _⟩
    · exact ⟨refused _, refused _⟩

/-- Readers read groups, and what is added. -/
def readersAccess (added : BitVec 64) : AccessEnv :=
  { compile := fun _ => none
    allRoles := fun role => if role = .reader then some ⟨permGroupBasic ||| added, 0⟩ else none
    none_permits := nofun }

/-- A reader of one domain reads its groups, also with another domain and with
more permissions for readers, and nothing that is global. -/
theorem access_needs_global_role_shop :
    let request : ApiRequest := ⟨.group, permGroupBasic, nofun⟩
    let acc := forRequest request .read permFed [("shop", .reader)]
    let both := forRequest request .read permFed [("dev", .reader), ("shop", .reader)]
    authorize (readersAccess 0) both (some ["shop"]) none = true ∧
      authorizeOwn (readersAccess permRegScan) acc (some ["shop"]) none = true ∧
      authorize (readersAccess 0) acc none none = false ∧
      authorizeOwn (readersAccess 0) acc none none = false := by
  intro request acc both
  have grows := access_grows_and_needs_global_role (readersAccess 0) request .read permFed
    [("shop", .reader)]
  have enlarges : (readersAccess 0).Enlarges (readersAccess permRegScan) := by
    refine ⟨rfl, ?_⟩
    intro role fewer known
    by_cases reader : role = .reader
    · simp only [readersAccess, reader, if_true, Option.some.injEq] at known ⊢
      refine ⟨_, rfl, ?_⟩
      intro op bit held
      rw [← known] at held
      cases op with
      | read => simp_all [Permits.at]
      | write => exact held
    · simp [readersAccess, reader] at known
  obtain ⟨roleAdded, permitsAdded, _⟩ := grows (some ["shop"]) none
  refine ⟨(roleAdded "dev" .reader (by decide)).1 (by decide),
    (permitsAdded _ enlarges).2 (by decide), ?_⟩
  exact (grows none none).2.2 nofun (.inl ⟨rfl, rfl⟩)

end NeuVector.Controller
