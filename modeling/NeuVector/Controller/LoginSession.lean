import NeuVector.Library.Lease

/-!
# Login sessions of a controller

This module embeds the login sessions of `controller/rest/auth.go`.  Login
sessions are objects of a controller that its session table, its request
handlers and its idle timers refer to.  A deleted token is put on a list of
expired tokens in the cluster, where all controllers look it up.

Times are in nanoseconds.  The signature of tokens is a parameter.  The entries
of the audit log, the page name of a request and the throttling of timer
messages are left out.
-/

namespace NeuVector.Controller

open Library

def second : Nat := 1000000000
def minute : Nat := 60 * second

def jwtTokenLife : Nat := 360 * minute
def jwtExpiredTokenSessionWindow : Nat := 5 * minute
def jwtIbmSaTokenLife : Nat := 30 * minute
def jwtImportStatusTokenLife : Nat := 10 * minute
def maxPerDomainLoginUsers : Nat := 32

inductive UserRole where
  | none
  | admin
  | reader
  | ciOps
  | ibmsa
  | importStatus
  | fedAdmin
  | fedReader
  | custom (name : String)
  deriving DecidableEq

/-- Roles by domain; the global domain is the empty name. -/
abbrev DomainRole := List (String × UserRole)

def accessDomainGlobal : String := ""

variable (roles : DomainRole)

def DomainRole.global : Option UserRole :=
  (roles.find? fun entry => entry.1 = accessDomainGlobal).map (·.2)

/-- The only role is the hidden one of a given kind. -/
def DomainRole.isOnly (role : UserRole) : Bool := roles.global == some role && roles.length == 1

structure TokenClaim where
  id : String
  fullname : String
  server : String
  remote : String
  mainSessionID : String
  mainSessionUser : String
  timeout : UInt32
  roles : DomainRole
  subject : String
  /-- In seconds. -/
  expiresAt : Nat
  deriving DecidableEq

def TokenClaim.eolAt (claims : TokenClaim) : Nat := claims.expiresAt * second

/-- Signed tokens.  `valid` is the check of the signature and of the validity
dates made by the token library at a given time. -/
structure Jwt (τ : Type) where
  sign : TokenClaim → τ
  claims : τ → TokenClaim
  valid : τ → Nat → Bool
  claims_sign : ∀ c, claims (sign c) = c

/-- What a controller relies on: tokens, the keys on disk, the installation
and the password hash. -/
structure AuthEnv (τ : Type) where
  jwt : Jwt τ
  keys : Bool
  installID : String
  hashPassword : τ → String

def AuthEnv.eol {τ : Type} (env : AuthEnv τ) (token : τ) : Nat := (env.jwt.claims token).eolAt

structure LoginSession (τ : Type) where
  id : String
  mainSessionID : String
  mainSessionUser : String
  token : τ
  fullname : String
  server : String
  timeout : UInt32
  remote : String
  loginAt : Nat
  lastAt : Nat
  eolAt : Nat
  /-- When the timer runs out, unless it is stopped. -/
  timer : Option Nat
  domainRoles : DomainRole
  deriving DecidableEq

/-- The globals of one controller.  `handlers` are the login sessions that
request handlers got from an accepted request, `callbacks` those whose timer
has run out and whose callback waits for the lock. -/
structure AuthController (τ : Type) where
  objects : Heap (LoginSession τ)
  loginSessions : τ → Option Nat
  loginUserAccounting : String → Option Nat
  /-- The cluster session for expired tokens and when it was created. -/
  lastExpiredTokenSession : Option (Nat × Nat)
  handlers : List Nat
  callbacks : List Nat

def AuthController.init {τ : Type} : AuthController τ :=
  { objects := .empty, loginSessions := fun _ => none
    loginUserAccounting := fun _ => none, lastExpiredTokenSession := none
    handlers := [], callbacks := [] }

inductive UserError where
  | invalidRequest
  | timeout
  | tooMany
  | keyError
  deriving DecidableEq

inductive AuthOutcome (τ : Type) where
  | loggedIn (token : τ)
  | loginFailed (error : UserError)
  | accepted (token : τ)
  | rejected (error : UserError)
  | deleted (token : τ)
  deriving DecidableEq

/-- A controller together with the list of expired tokens in the cluster and
the outcomes so far. -/
structure View (τ : Type) where
  ctrl : AuthController τ
  cluster : Leases τ
  log : List (AuthOutcome τ)

section Functions

variable {τ : Type} [DecidableEq τ]
variable (timeout : UInt32)

def getUserTimeout : Nat := timeout.toNat * second

variable (env : AuthEnv τ) (ctrl : AuthController τ) (now : Nat) (login : LoginSession τ)

def loginTimeout : Nat :=
  if login.domainRoles.isOnly .ibmsa then jwtIbmSaTokenLife
  else if login.domainRoles.isOnly .importStatus then jwtImportStatusTokenLife
  else getUserTimeout login.timeout

/-- Enter a login session into the table, unless the user has reached the
limit; the result is the address of the object. -/
def registerLoginSession (now : Nat) : Except UserError (AuthController τ × Nat) :=
  let enter (count : Nat) : AuthController τ × Nat :=
    ({ ctrl with
        loginUserAccounting := Function.update ctrl.loginUserAccounting login.fullname (some count)
        objects := ctrl.objects.alloc { login with timer := some (now + loginTimeout login) }
        loginSessions := Function.update ctrl.loginSessions login.token (some ctrl.objects.next) },
      ctrl.objects.next)
  match ctrl.loginUserAccounting login.fullname with
  | none => .ok (enter 1)
  | some count =>
    if count = maxPerDomainLoginUsers then .error .tooMany
    else .ok (enter (count + 1))

variable (token : τ)

def newLoginSessionFromToken (claims : TokenClaim) (now : Nat) :
    Except UserError (AuthController τ × Nat) :=
  registerLoginSession ctrl
    { id := claims.id
      mainSessionID := claims.mainSessionID
      mainSessionUser := claims.mainSessionUser
      token := token
      fullname := claims.fullname
      server := claims.server
      timeout := claims.timeout
      remote := claims.remote
      loginAt := now
      lastAt := now
      eolAt := claims.eolAt
      timer := none
      domainRoles := claims.roles }
    now

structure LoginUser where
  fullname : String
  server : String
  timeout : UInt32
  lastLoginAt : Nat
  deriving DecidableEq

def jwtGenerateToken (user : LoginUser) (roles : DomainRole)
    (remote mainSessionID mainSessionUser id : String) (now : Nat) :
    TokenClaim :=
  let claims : TokenClaim :=
    { id := id
      fullname := user.fullname
      server := user.server
      remote := remote
      mainSessionID := mainSessionID
      mainSessionUser := mainSessionUser
      timeout := user.timeout
      roles := roles
      subject := env.installID
      expiresAt := (now + jwtTokenLife) / second }
  if roles.isOnly .ibmsa then
    { claims with timeout := 30 * 60, expiresAt := (now + jwtIbmSaTokenLife) / second }
  else if roles.isOnly .importStatus then
    { claims with timeout := 10 * 60, expiresAt := (now + jwtImportStatusTokenLife) / second }
  else claims

/-- A login from another cluster gets a longer idle time. -/
def newLoginSessionFromUser (user : LoginUser) (roles : DomainRole)
    (remote mainSessionID mainSessionUser id : String) (now : Nat) :
    Except UserError (AuthController τ × Nat) :=
  if !env.keys then .error .keyError
  else
    let claims := jwtGenerateToken env user roles remote mainSessionID mainSessionUser id now
    registerLoginSession ctrl
      { id := id
        mainSessionID := mainSessionID
        mainSessionUser := mainSessionUser
        token := env.jwt.sign claims
        fullname := user.fullname
        server := user.server
        timeout :=
          if mainSessionID = "" then user.timeout else user.timeout * 8
        remote := remote
        loginAt := user.lastLoginAt
        lastAt := user.lastLoginAt
        eolAt := claims.eolAt
        timer := none
        domainRoles := roles }
      now

def stopTimer : LoginSession τ := { login with timer := none }

def lowerAccounting (fullname : String) : AuthController τ :=
  match ctrl.loginUserAccounting fullname with
  | some (count + 1) =>
    { ctrl with
      loginUserAccounting := Function.update ctrl.loginUserAccounting fullname (some count) }
  | _ => ctrl

def dropSession : AuthController τ :=
  match ctrl.loginSessions login.token with
  | none => ctrl
  | some _ =>
    lowerAccounting
      { ctrl with loginSessions := Function.update ctrl.loginSessions login.token none }
      login.fullname

/-- The cluster session that is used once more for an expired token. -/
def reusedSession : Option Nat :=
  match ctrl.lastExpiredTokenSession with
  | none => none
  | some (session, createdAt) =>
    if now - createdAt > jwtExpiredTokenSessionWindow then none
    else some session

def blacklist (view : View τ) (login : LoginSession τ) (now : Nat) : View τ :=
  if now > login.eolAt then view
  else
    match reusedSession view.ctrl now with
    | some session => { view with cluster := view.cluster.acquire session login.token now }
    | none =>
      let session := view.cluster.sessions.next
      { view with
        cluster := (view.cluster.newSession now (login.eolAt - now)).acquire session login.token now
        ctrl := { view.ctrl with lastExpiredTokenSession := some (session, now) } }

def deleteSessionToken (view : View τ) (login : LoginSession τ) (now : Nat) : View τ :=
  let view := blacklist { view with ctrl := dropSession view.ctrl login } login now
  { view with log := view.log ++ [.deleted login.token] }

/-- Delete the token of a login object and stop the object's timer. -/
def deleteObject (view : View τ) (address : Nat) (now : Nat) : View τ :=
  match view.ctrl.objects.cells address with
  | none => view
  | some login =>
    deleteSessionToken
      { view with ctrl := { view.ctrl with objects := view.ctrl.objects.modify address stopTimer } }
      login now

/-- What a loop over the session table does with a login session. -/
inductive SessionAct where
  | skip
  | delete
  | expire (timeout : UInt32)
  | adjust (timeout : UInt32) (timer : Nat)
  deriving DecidableEq

def setTimeout : LoginSession τ := { login with timeout := timeout }

def adjustTimer (timer : Nat) (login : LoginSession τ) : LoginSession τ :=
  { login with timeout := timeout, timer := some timer }

def modifyObject (view : View τ) (address : Nat)
    (change : LoginSession τ → LoginSession τ) : View τ :=
  { view with ctrl := { view.ctrl with objects := view.ctrl.objects.modify address change } }

def SessionAct.apply (act : SessionAct) (view : View τ) (address : Nat) (now : Nat) : View τ :=
  match act with
  | .skip => view
  | .delete => deleteObject view address now
  | .expire timeout => deleteObject (modifyObject view address (setTimeout timeout)) address now
  | .adjust timeout timer => modifyObject view address (adjustTimer timeout timer)

def lookupSession : Option (Nat × LoginSession τ) :=
  match ctrl.loginSessions token with
  | none => none
  | some address =>
    match ctrl.objects.cells address with
    | none => none
    | some login => some (address, login)

/-- An entry that is gone when its turn comes is passed over. -/
def sweepOne (decision : LoginSession τ → SessionAct) (now : Nat)
    (view : View τ) (token : τ) : View τ :=
  match lookupSession view.ctrl token with
  | none => view
  | some (address, login) => (decision login).apply view address now

/-- A loop over the table in the order the map is enumerated. -/
def sweep (decision : LoginSession τ → SessionAct) (now : Nat) : List τ → View τ → View τ
  | [], view => view
  | token :: order, view => sweep decision now order (sweepOne decision now view token)

def deleteIf (condition : LoginSession τ → Bool) (login : LoginSession τ) : SessionAct :=
  if condition login then .delete else .skip

inductive Kick where
  | all
  | byUser (fullname : String)
  | byServer (server : String)
  | byFed
  | leaveFed
  deriving DecidableEq

def Kick.matches (kick : Kick) (login : LoginSession τ) : Bool :=
  match kick with
  | .all => true
  | .byUser fullname => login.fullname == fullname
  | .byServer server => server == "" || login.server == server
  | .byFed =>
    login.domainRoles.global == some .fedAdmin || login.domainRoles.global == some .fedReader
  | .leaveFed => login.mainSessionID != ""

def kickLoginSessions (view : View τ) (kick : Kick) (order : List τ) (now : Nat) : View τ :=
  sweep (deleteIf kick.matches) now order view

def tokenByHash (tokenHash : String) (order : List τ) : List τ :=
  (order.find? fun token =>
    (lookupSession ctrl token).isSome && env.hashPassword token == tokenHash).toList

def kickLoginSessionByToken (view : View τ) (tokenHash : String)
    (order : List τ) (now : Nat) : View τ :=
  sweep (deleteIf fun _ => true) now (tokenByHash env view.ctrl tokenHash order) view

def sameMainSession (other : LoginSession τ) : Bool :=
  login.mainSessionID != "" && other.mainSessionID == login.mainSessionID

/-- Delete all tokens of one login on the main cluster, and the given one. -/
def logoutFedSession (view : View τ) (address : Nat) (order : List τ) (now : Nat) : View τ :=
  match view.ctrl.objects.cells address with
  | none => view
  | some login => deleteObject (sweep (deleteIf (sameMainSession login)) now order view) address now

def updateTimeout (fullname : String) (timeout : UInt32) (now : Nat)
    (login : LoginSession τ) : SessionAct :=
  if login.fullname ≠ fullname then .skip
  else if now - login.lastAt ≥ getUserTimeout timeout then .expire timeout
  else .adjust timeout (login.lastAt + getUserTimeout timeout)

def changeTimeoutLoginSessions (view : View τ) (fullname : String)
    (timeout : UInt32) (order : List τ) (now : Nat) : View τ :=
  sweep (updateTimeout fullname timeout now) now order view

def importStatusObject : LoginSession τ :=
  { id := "", mainSessionID := "", mainSessionUser := "", token := token
    fullname := (env.jwt.claims token).fullname, server := "", timeout := 0
    remote := "", loginAt := 0, lastAt := 0, eolAt := env.eol token
    timer := none, domainRoles := [] }

def invalidateImportStatusToken (view : View τ) (token : τ) (now : Nat) : View τ :=
  if env.jwt.valid token now then deleteSessionToken view (importStatusObject env token) now
  else view

def restartTimer : LoginSession τ :=
  { login with timer := some (now + getUserTimeout login.timeout), lastAt := now }

/-- The idle timer starts again, except for the two hidden roles. -/
def touch : LoginSession τ :=
  if login.domainRoles.global = some .ibmsa ∨
      login.domainRoles.global = some .importStatus then login
  else restartTimer now login

/-- Another controller has seen a request with the token. -/
def resetLoginTokenTimer (view : View τ) (token : τ) (loginID : String) (now : Nat) : View τ :=
  if view.cluster.held token now then view
  else
    match lookupSession view.ctrl token with
    | none => view
    | some (address, login) =>
      if loginID = login.id then modifyObject view address (restartTimer now)
      else view

/-- A token on the list of expired tokens is taken out of the table. -/
def forgetToken : AuthController τ :=
  match lookupSession ctrl token with
  | none => ctrl
  | some (address, login) =>
    let ctrl := lowerAccounting ctrl login.fullname
    { ctrl with
      objects := ctrl.objects.modify address stopTimer
      loginSessions := Function.update ctrl.loginSessions token none }

/-- The login session of a request, which is entered when this controller does
not know the token yet. -/
def findLogin (now : Nat) : Except UserError (AuthController τ × Nat) :=
  match ctrl.loginSessions token with
  | some address => .ok (ctrl, address)
  | none =>
    if (env.jwt.claims token).mainSessionID = "" ∧
        env.installID ≠ (env.jwt.claims token).subject then
      .error .timeout
    else newLoginSessionFromToken ctrl token (env.jwt.claims token) now

def rejectRequest (view : View τ) (error : UserError) : View τ :=
  { view with log := view.log ++ [.rejected error] }

def restReq2User (view : View τ) (header : List τ) (now : Nat) : View τ :=
  match header with
  | [token] =>
    if !env.keys then rejectRequest view .keyError
    else if !env.jwt.valid token now then rejectRequest view .invalidRequest
    else if now / second ≥ (env.jwt.claims token).expiresAt then rejectRequest view .timeout
    else if view.cluster.held token now then
      rejectRequest { view with ctrl := forgetToken view.ctrl token } .timeout
    else
      match findLogin env view.ctrl token now with
      | .error error => rejectRequest view error
      | .ok (ctrl, address) =>
        { view with
          ctrl :=
            { ctrl with
              objects := ctrl.objects.modify address (touch now)
              handlers := ctrl.handlers ++ [address] }
          log := view.log ++ [.accepted token] }
  | _ => rejectRequest view .invalidRequest

end Functions

end NeuVector.Controller
