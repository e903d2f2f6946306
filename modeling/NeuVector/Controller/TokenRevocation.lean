import NeuVector.Controller.LoginSession

/-!
# Revoked tokens

The controllers of a cluster run in any interleaving and share the list of
expired tokens.  A deleted token stays refused until its end of life in every
run in which no token is attached to a cluster session that ends before the
token does.
-/

namespace NeuVector.Controller

open Library List

structure AuthSystem (τ : Type) where
  cluster : Leases τ
  controllers : Nat → AuthController τ
  log : List (AuthOutcome τ)
  clock : Nat

def AuthSystem.init {τ : Type} : AuthSystem τ :=
  { cluster := .empty, controllers := fun _ => .init, log := [], clock := 0 }

inductive AuthEvent (τ : Type) where
  | login (user : LoginUser) (roles : DomainRole) (remote mainSessionID mainSessionUser id : String)
  | request (header : List τ)
  /-- A handler logs out the login session of its request. -/
  | logout (address : Nat)
  | logoutFed (address : Nat) (order : List τ)
  | kick (kick : Kick) (order : List τ)
  | kickByToken (tokenHash : String) (order : List τ)
  /-- An idle timer runs out. -/
  | timerFires (address : Nat)
  /-- The callback of a timer gets the lock. -/
  | expire (address : Nat)
  | changeTimeout (fullname : String) (timeout : UInt32) (order : List τ)
  | resetTimer (token : τ) (loginID : String)
  | invalidate (token : τ)
  deriving DecidableEq

section System

variable {τ : Type} [DecidableEq τ]

def loginEvent (env : AuthEnv τ) (view : View τ) (user : LoginUser)
    (roles : DomainRole) (remote mainSessionID mainSessionUser id : String)
    (now : Nat) : View τ :=
  match newLoginSessionFromUser env view.ctrl user roles remote mainSessionID
      mainSessionUser id now with
  | .error error => { view with log := view.log ++ [.loginFailed error] }
  | .ok (ctrl, _) =>
    { view with
      ctrl := ctrl
      log := view.log ++
        [.loggedIn (env.jwt.sign (jwtGenerateToken env user roles remote
          mainSessionID mainSessionUser id now))] }

def timerFires (view : View τ) (address now : Nat) : View τ :=
  match view.ctrl.objects.cells address with
  | none => view
  | some login =>
    if login.timer.any (· ≤ now) then
      let view := modifyObject view address stopTimer
      { view with ctrl := { view.ctrl with callbacks := view.ctrl.callbacks ++ [address] } }
    else view

def takeCallback (view : View τ) (address : Nat) : View τ :=
  { view with ctrl := { view.ctrl with callbacks := view.ctrl.callbacks.erase address } }

def handleEvent (env : AuthEnv τ) (view : View τ) (now : Nat) : AuthEvent τ → View τ
  | .login user roles remote mainSessionID mainSessionUser id =>
    loginEvent env view user roles remote mainSessionID mainSessionUser id now
  | .request header => restReq2User env view header now
  | .logout address =>
    if address ∈ view.ctrl.handlers then deleteObject view address now
    else view
  | .logoutFed address order =>
    if address ∈ view.ctrl.handlers then logoutFedSession view address order now
    else view
  | .kick kick order => kickLoginSessions view kick order now
  | .kickByToken tokenHash order => kickLoginSessionByToken env view tokenHash order now
  | .timerFires address => timerFires view address now
  | .expire address =>
    if address ∈ view.ctrl.callbacks then deleteObject (takeCallback view address) address now
    else view
  | .changeTimeout fullname timeout order =>
    changeTimeoutLoginSessions view fullname timeout order now
  | .resetTimer token loginID => resetLoginTokenTimer view token loginID now
  | .invalidate token => invalidateImportStatusToken env view token now

structure AuthStep (τ : Type) where
  controller : Nat
  now : Nat
  event : AuthEvent τ
  deriving DecidableEq

def AuthSystem.view (system : AuthSystem τ) (controller : Nat) : View τ :=
  { ctrl := system.controllers controller, cluster := system.cluster, log := system.log }

def authStep (env : AuthEnv τ) (system : AuthSystem τ) (step : AuthStep τ) : AuthSystem τ :=
  let view := handleEvent env (system.view step.controller) step.now step.event
  { cluster := view.cluster
    controllers := Function.update system.controllers step.controller view.ctrl
    log := view.log
    clock := step.now }

def authRun (env : AuthEnv τ) (system : AuthSystem τ) (steps : List (AuthStep τ)) : AuthSystem τ :=
  steps.foldl (authStep env) system

end System

section Condition

variable {τ : Type} [DecidableEq τ]

/-- A cluster session that is used again lasts as long as the token. -/
def Covered (view : View τ) (login : LoginSession τ) (now : Nat) : Prop :=
  ∀ session, reusedSession view.ctrl now = some session →
    now ≤ login.eolAt → ∃ ends, view.cluster.sessions.cells session = some ends ∧ login.eolAt ≤ ends

def CoveredObject (view : View τ) (address now : Nat) : Prop :=
  ∀ login, view.ctrl.objects.cells address = some login → Covered view login now

def SessionAct.deletes : SessionAct → Bool
  | .delete => true
  | .expire _ => true
  | _ => false

def CoveredSweep (decision : LoginSession τ → SessionAct) (now : Nat) : List τ → View τ → Prop
  | [], _ => True
  | token :: order, view =>
    (∀ address login, lookupSession view.ctrl token = some (address, login) →
      (decision login).deletes = true → Covered view login now) ∧
    CoveredSweep decision now order (sweepOne decision now view token)

def CoveredEvent (env : AuthEnv τ) (view : View τ) (now : Nat) : AuthEvent τ → Prop
  | .login _ _ _ _ _ _ => True
  | .request _ => True
  | .logout address => CoveredObject view address now
  | .logoutFed address order =>
    ∀ login, view.ctrl.objects.cells address = some login →
      CoveredSweep (deleteIf (sameMainSession login)) now order view ∧
        CoveredObject (sweep (deleteIf (sameMainSession login)) now order view) address now
  | .kick kick order => CoveredSweep (deleteIf kick.matches) now order view
  | .kickByToken tokenHash order =>
    CoveredSweep (deleteIf fun _ => true) now (tokenByHash env view.ctrl tokenHash order) view
  | .timerFires _ => True
  | .expire address => CoveredObject view address now
  | .changeTimeout fullname timeout order =>
    CoveredSweep (updateTimeout fullname timeout now) now order view
  | .resetTimer _ _ => True
  | .invalidate token => Covered view (importStatusObject env token) now

/-- Time does not go back, and every step respects the condition in the state
before it. -/
def CoveredRun (env : AuthEnv τ) : AuthSystem τ → List (AuthStep τ) → Prop
  | _, [] => True
  | system, step :: steps =>
    system.clock ≤ step.now ∧ CoveredEvent env (system.view step.controller) step.now step.event ∧
      CoveredRun env (authStep env system step) steps

end Condition

/-- No token is accepted after it has been deleted. -/
def StaysRevoked {τ : Type} (log : List (AuthOutcome τ)) : Prop :=
  log.Pairwise fun earlier later => ∀ token, earlier = .deleted token → later ≠ .accepted token

section Blacklist

variable {τ : Type} {env : AuthEnv τ} {now : Nat}

/-- Every deleted token has ended or is on the list until it ends, and no other
token is on the list. -/
structure Blacklisted (env : AuthEnv τ) (now : Nat) (cluster : Leases τ)
    (log : List (AuthOutcome τ)) : Prop where
  secured : ∀ token, .deleted token ∈ log →
    env.eol token ≤ now ∨ cluster.SecuredUntil token (env.eol token)
  deleted : ∀ token, cluster.holder token ≠ none → .deleted token ∈ log
  revoked : StaysRevoked log

variable {cluster : Leases τ} {token : τ}
variable {log : List (AuthOutcome τ)}

theorem Blacklisted.later (listed : Blacklisted env now cluster log)
    {later : Nat} (order : now ≤ later) :
    Blacklisted env later cluster log where
  secured token member := by
    rcases listed.secured token member with ended | secured
    · exact Or.inl (Nat.le_trans ended order)
    · exact Or.inr secured
  deleted := listed.deleted
  revoked := listed.revoked

theorem staysRevoked_append {outcome : AuthOutcome τ} (revoked : StaysRevoked log)
    (last : ∀ token, .deleted token ∈ log → outcome ≠ .accepted token) :
    StaysRevoked (log ++ [outcome]) := by
  apply pairwise_append.mpr
  refine ⟨revoked, pairwise_singleton _ _, ?_⟩
  intro earlier member later single token deleted
  rw [mem_singleton.mp single]
  apply last
  rw [← deleted]
  exact member

section

variable (listed : Blacklisted env now cluster log)
include listed

theorem Blacklisted.append {outcome : AuthOutcome τ}
    (kept : ∀ token, outcome = .deleted token → env.eol token ≤ now)
    (last : ∀ token, .deleted token ∈ log → outcome ≠ .accepted token) :
    Blacklisted env now cluster (log ++ [outcome]) where
  secured token member := by
    rcases mem_append.mp member with before | single
    · exact listed.secured token before
    · exact Or.inl (kept token (mem_singleton.mp single).symm)
  deleted token holder := mem_append_left _ (listed.deleted token holder)
  revoked := staysRevoked_append listed.revoked last

theorem Blacklisted.accept (young : now < env.eol token) (absent : cluster.held token now = false) :
    Blacklisted env now cluster (log ++ [.accepted token]) := by
  apply listed.append
  · intro other same
    cases same
  · intro other member same
    cases same
    rcases listed.secured token member with ended | secured
    · exact Nat.not_lt.mpr ended young
    · rw [secured.held young] at absent
      cases absent

theorem Blacklisted.newSession (ttl : Nat) :
    Blacklisted env now (cluster.newSession now ttl) log where
  secured token member := by
    rcases listed.secured token member with ended | secured
    · exact Or.inl ended
    · exact Or.inr (secured.newSession ttl)
  deleted := listed.deleted
  revoked := listed.revoked

theorem Blacklisted.ended (ended : env.eol token ≤ now) :
    Blacklisted env now cluster (log ++ [.deleted token]) := by
  apply listed.append
  · intro other same
    cases same
    exact ended
  · intro other _ same
    cases same

theorem Blacklisted.acquire [DecidableEq τ] {session ends : Nat}
    (found : cluster.sessions.cells session = some ends) (late : env.eol token ≤ ends) :
    Blacklisted env now (cluster.acquire session token now) (log ++ [.deleted token]) where
  secured other member := by
    by_cases ended : env.eol other ≤ now
    · exact Or.inl ended
    · right
      have young := Nat.lt_of_not_le ended
      by_cases before : .deleted other ∈ log
      · have secured := (listed.secured other before).resolve_left ended
        exact secured.acquire young
      · have free : cluster.holder other = none := Classical.byContradiction fun some =>
            before (listed.deleted other some)
        have same : other = token := by
          rcases mem_append.mp member with earlier | single
          · exact absurd earlier before
          · cases mem_singleton.mp single
            rfl
        subst same
        exact Leases.acquire_secures free found (Nat.lt_of_lt_of_le young late) late
  deleted other holder := by
    by_cases same : other = token
    · rw [same]
      exact mem_append_right _ (mem_singleton_self _)
    · rw [Leases.holder_acquire_of_ne same] at holder
      exact mem_append_left _ (listed.deleted other holder)
  revoked := staysRevoked_append listed.revoked fun _ _ same => by cases same

end

end Blacklist

section Views

variable {τ : Type} {env : AuthEnv τ} {now : Nat}

/-- The end of life stored in a login object is that of its token. -/
def ObjectsSound (env : AuthEnv τ) (objects : Heap (LoginSession τ)) : Prop :=
  ∀ address login, objects.cells address = some login → login.eolAt = env.eol login.token

def KeepsToken (change : LoginSession τ → LoginSession τ) : Prop :=
  ∀ login, (change login).token = login.token ∧ (change login).eolAt = login.eolAt

structure ViewSound (env : AuthEnv τ) (now : Nat) (view : View τ) : Prop where
  objects : ObjectsSound env view.ctrl.objects
  listed : Blacklisted env now view.cluster view.log

theorem ObjectsSound.modify {objects : Heap (LoginSession τ)} (sound : ObjectsSound env objects)
    {change : LoginSession τ → LoginSession τ} (keeps : KeepsToken change)
    (address : Nat) : ObjectsSound env (objects.modify address change) := by
  intro other login stored
  rw [Heap.modify_cells] at stored
  obtain ⟨before, found, rfl⟩ := Option.map_eq_some_iff.mp stored
  split
  · rw [(keeps before).1, (keeps before).2]
    exact sound other before found
  · exact sound other before found

variable {login : LoginSession τ} (ctrl : AuthController τ) {address : Nat}

theorem ObjectsSound.alloc {objects : Heap (LoginSession τ)} (sound : ObjectsSound env objects)
    (eol : login.eolAt = env.eol login.token) :
    ObjectsSound env (objects.alloc login) := by
  intro address stored found
  by_cases same : address = objects.next
  · subst same
    rw [Heap.alloc_cells_next] at found
    cases found
    exact eol
  · rw [Heap.alloc_cells_of_ne _ _ same] at found
    exact sound address stored found

theorem lowerAccounting_objects (fullname : String) :
    (lowerAccounting ctrl fullname).objects = ctrl.objects := by
  unfold lowerAccounting
  split <;> rfl

theorem lowerAccounting_last (fullname : String) :
    (lowerAccounting ctrl fullname).lastExpiredTokenSession = ctrl.lastExpiredTokenSession := by
  unfold lowerAccounting
  split <;> rfl

theorem stopTimer_keeps : KeepsToken (stopTimer : LoginSession τ → LoginSession τ) :=
  fun _ => ⟨rfl, rfl⟩

theorem touch_keeps (now : Nat) : KeepsToken (touch now : LoginSession τ → LoginSession τ) := by
  intro login
  unfold touch
  split
  · exact ⟨rfl, rfl⟩
  · exact ⟨rfl, rfl⟩

variable {view : View τ}

theorem modifyObject_sound (sound : ViewSound env now view)
    {change : LoginSession τ → LoginSession τ} (keeps : KeepsToken change)
    (address : Nat) : ViewSound env now (modifyObject view address change) :=
  ⟨sound.objects.modify keeps address, sound.listed⟩

theorem lookupSession_found {ctrl : AuthController τ} {token : τ}
    (found : lookupSession ctrl token = some (address, login)) :
    ctrl.objects.cells address = some login := by
  unfold lookupSession at found
  split at found
  · cases found
  · split at found
    · cases found
    next stored =>
      cases found
      exact stored

theorem rejectRequest_sound (sound : ViewSound env now view)
    (error : UserError) : ViewSound env now (rejectRequest view error) where
  objects := sound.objects
  listed := sound.listed.append (by simp) (by simp)

theorem timerFires_sound (sound : ViewSound env now view) (address : Nat) :
    ViewSound env now (timerFires view address now) := by
  unfold timerFires
  split
  · exact sound
  · split
    · exact ⟨sound.objects.modify stopTimer_keeps address, sound.listed⟩
    · exact sound

theorem resetLoginTokenTimer_sound (sound : ViewSound env now view) (token : τ) (loginID : String) :
    ViewSound env now (resetLoginTokenTimer view token loginID now) := by
  unfold resetLoginTokenTimer
  split
  · exact sound
  · split
    · exact sound
    · split
      · apply modifyObject_sound sound
        exact fun _ => ⟨rfl, rfl⟩
      · exact sound

variable [DecidableEq τ]

theorem dropSession_objects (login : LoginSession τ) :
    (dropSession ctrl login).objects = ctrl.objects := by
  unfold dropSession
  split
  · rfl
  · exact lowerAccounting_objects _ _

theorem reusedSession_dropSession (login : LoginSession τ) :
    reusedSession (dropSession ctrl login) now = reusedSession ctrl now := by
  have same : (dropSession ctrl login).lastExpiredTokenSession = ctrl.lastExpiredTokenSession := by
    unfold dropSession
    split
    · rfl
    · exact lowerAccounting_last _ _
  unfold reusedSession
  rw [same]

theorem blacklist_rest (view : View τ) (login : LoginSession τ) :
    (blacklist view login now).ctrl.objects = view.ctrl.objects ∧
      (blacklist view login now).log = view.log := by
  unfold blacklist
  split
  · exact ⟨rfl, rfl⟩
  · split <;> exact ⟨rfl, rfl⟩

theorem blacklist_listed (listed : Blacklisted env now view.cluster view.log)
    (eol : login.eolAt = env.eol login.token) (covered : Covered view login now) :
    Blacklisted env now (blacklist view login now).cluster
      (view.log ++ [.deleted login.token]) := by
  unfold blacklist
  split
  next past =>
    apply listed.ended
    rw [← eol]
    exact Nat.le_of_lt past
  next young =>
    split
    next session reused =>
      obtain ⟨ends, found, late⟩ := covered session reused (Nat.not_lt.mp young)
      rw [eol] at late
      exact listed.acquire found late
    · have found := view.cluster.newSession_ends now (login.eolAt - now)
      rw [Nat.add_sub_cancel' (Nat.not_lt.mp young)] at found
      exact (listed.newSession _).acquire found (Nat.le_of_eq eol.symm)

section

variable (sound : ViewSound env now view)
include sound

theorem deleteSessionToken_sound (eol : login.eolAt = env.eol login.token)
    (covered : Covered view login now) :
    ViewSound env now (deleteSessionToken view login now) where
  objects := by
    change ObjectsSound env (blacklist _ login now).ctrl.objects
    rw [(blacklist_rest ..).1, dropSession_objects]
    exact sound.objects
  listed := by
    have dropped : Covered { view with ctrl := dropSession view.ctrl login } login now := by
      intro session reused
      rw [reusedSession_dropSession] at reused
      exact covered session reused
    change Blacklisted env now (blacklist _ login now).cluster
      ((blacklist _ login now).log ++ [.deleted login.token])
    rw [(blacklist_rest ..).2]
    exact blacklist_listed sound.listed eol dropped

theorem deleteObject_sound (covered : CoveredObject view address now) :
    ViewSound env now (deleteObject view address now) := by
  unfold deleteObject
  split
  · exact sound
  next login found =>
    apply deleteSessionToken_sound (modifyObject_sound sound stopTimer_keeps address)
      (sound.objects address login found)
    exact covered login found

theorem act_sound {act : SessionAct} (found : view.ctrl.objects.cells address = some login)
    (covered : act.deletes = true → Covered view login now) :
    ViewSound env now (act.apply view address now) := by
  cases act with
  | skip => exact sound
  | delete =>
    apply deleteObject_sound sound
    intro stored same
    rw [found] at same
    cases same
    exact covered rfl
  | expire timeout =>
    apply deleteObject_sound
    · apply modifyObject_sound sound
      exact fun _ => ⟨rfl, rfl⟩
    · intro stored same
      have changed : some (setTimeout timeout login) = some stored := by
        rw [← same]
        simp [modifyObject, found]
      cases changed
      exact covered rfl
  | adjust timeout timer =>
    apply modifyObject_sound sound
    exact fun _ => ⟨rfl, rfl⟩

theorem sweep_sound {decision : LoginSession τ → SessionAct} {order : List τ}
    (covered : CoveredSweep decision now order view) :
    ViewSound env now (sweep decision now order view) := by
  induction order generalizing view with
  | nil => exact sound
  | cons token order induction =>
    apply induction
    · unfold sweepOne
      split
      · exact sound
      next address login found =>
        exact act_sound sound (lookupSession_found found) (covered.1 address login found)
    · exact covered.2

end

theorem registerLoginSession_sound {ctrl entered : AuthController τ}
    (sound : ObjectsSound env ctrl.objects)
    (eol : login.eolAt = env.eol login.token) (registered :
      registerLoginSession ctrl login now = .ok (entered, address)) :
    ObjectsSound env entered.objects := by
  unfold registerLoginSession at registered
  split at registered
  · cases registered
    exact sound.alloc eol
  · split at registered
    · cases registered
    · cases registered
      exact sound.alloc eol

theorem findLogin_sound {ctrl entered : AuthController τ} {token : τ}
    (sound : ObjectsSound env ctrl.objects)
    (found : findLogin env ctrl token now = .ok (entered, address)) :
    ObjectsSound env entered.objects := by
  unfold findLogin at found
  split at found
  · cases found
    exact sound
  · split at found
    · cases found
    · exact registerLoginSession_sound sound rfl found

theorem forgetToken_objects (token : τ) :
    ObjectsSound env ctrl.objects → ObjectsSound env (forgetToken ctrl token).objects := by
  intro sound
  unfold forgetToken
  split
  · exact sound
  · apply ObjectsSound.modify _ stopTimer_keeps
    rw [lowerAccounting_objects]
    exact sound

theorem restReq2User_sound (sound : ViewSound env now view) (header : List τ) :
    ViewSound env now (restReq2User env view header now) := by
  unfold restReq2User
  split
  next token =>
    split
    · exact rejectRequest_sound sound _
    split
    · exact rejectRequest_sound sound _
    split
    · exact rejectRequest_sound sound _
    rename_i young
    split
    · apply rejectRequest_sound
      exact ⟨forgetToken_objects _ _ sound.objects, sound.listed⟩
    rename_i absent
    split
    · exact rejectRequest_sound sound _
    next entered address found =>
      constructor
      · exact (findLogin_sound sound.objects found).modify (touch_keeps now) address
      · apply sound.listed.accept
        · apply (Nat.div_lt_iff_lt_mul (by decide)).mp
          exact Nat.not_le.mp young
        · exact Bool.eq_false_iff.mpr absent
  · exact rejectRequest_sound sound _

theorem loginEvent_sound (sound : ViewSound env now view) (user : LoginUser)
    (roles : DomainRole) (remote mainSessionID mainSessionUser id : String) :
    ViewSound env now (loginEvent env view user roles remote mainSessionID mainSessionUser id
        now) := by
  unfold loginEvent
  split
  · exact ⟨sound.objects, sound.listed.append (by simp) (by simp)⟩
  next entered address registered =>
    constructor
    · unfold newLoginSessionFromUser at registered
      split at registered
      · cases registered
      · apply registerLoginSession_sound sound.objects _ registered
        simp only [AuthEnv.eol, env.jwt.claims_sign]
    · exact sound.listed.append (by simp) (by simp)

theorem handleEvent_sound (sound : ViewSound env now view)
    {event : AuthEvent τ} (covered : CoveredEvent env view now event) :
    ViewSound env now (handleEvent env view now event) := by
  cases event with
  | login user roles remote mainSessionID mainSessionUser id =>
    exact loginEvent_sound sound _ _ _ _ _ _
  | request header => exact restReq2User_sound sound header
  | logout address =>
    simp only [handleEvent]
    split
    · exact deleteObject_sound sound covered
    · exact sound
  | logoutFed address order =>
    simp only [handleEvent]
    split
    · unfold logoutFedSession
      split
      · exact sound
      next login found =>
        obtain ⟨all, own⟩ := covered login found
        exact deleteObject_sound (sweep_sound sound all) own
    · exact sound
  | kick kick order | kickByToken tokenHash order => exact sweep_sound sound covered
  | timerFires address => exact timerFires_sound sound address
  | expire address =>
    simp only [handleEvent]
    split
    · apply deleteObject_sound
      · exact ⟨sound.objects, sound.listed⟩
      · exact covered
    · exact sound
  | changeTimeout fullname timeout order => exact sweep_sound sound covered
  | resetTimer token loginID => exact resetLoginTokenTimer_sound sound token loginID
  | invalidate token =>
    change ViewSound env now (invalidateImportStatusToken env view token now)
    unfold invalidateImportStatusToken
    split
    · exact deleteSessionToken_sound sound rfl covered
    · exact sound

end Views

section Runs

variable {τ : Type} {env : AuthEnv τ}

structure AuthSound (env : AuthEnv τ) (system : AuthSystem τ) : Prop where
  objects : ∀ controller, ObjectsSound env (system.controllers controller).objects
  listed : Blacklisted env system.clock system.cluster system.log

theorem authSound_init (env : AuthEnv τ) : AuthSound env (AuthSystem.init : AuthSystem τ) where
  objects := by
    intro controller address login stored
    cases stored
  listed :=
    { secured := fun _ member => absurd member not_mem_nil
      deleted := fun _ holder => absurd rfl holder
      revoked := List.Pairwise.nil }

variable [DecidableEq τ]

theorem authStep_sound {system : AuthSystem τ} (sound : AuthSound env system)
    {step : AuthStep τ} (forward : system.clock ≤ step.now)
    (covered : CoveredEvent env (system.view step.controller) step.now
      step.event) : AuthSound env (authStep env system step) := by
  have view : ViewSound env step.now (system.view step.controller) :=
    ⟨sound.objects step.controller, sound.listed.later forward⟩
  have after := handleEvent_sound view covered
  constructor
  · intro controller
    simp only [authStep, Function.update_apply]
    split
    · exact after.objects
    · exact sound.objects controller
  · exact after.listed

theorem authRun_sound {system : AuthSystem τ} {steps : List (AuthStep τ)}
    (sound : AuthSound env system) (covered : CoveredRun env system steps) :
    AuthSound env (authRun env system steps) := by
  induction steps generalizing system with
  | nil => exact sound
  | cons step steps induction =>
    obtain ⟨forward, here, later⟩ := covered
    exact induction (authStep_sound sound forward here) later

/-- In every run in which no token is attached to a cluster session that ends
before it, a deleted token is never accepted again. -/
theorem deleted_tokens_stay_revoked (env : AuthEnv τ)
    (steps : List (AuthStep τ)) (covered : CoveredRun env .init steps) :
    StaysRevoked (authRun env .init steps).log :=
  (authRun_sound (authSound_init env) covered).listed.revoked

end Runs

/-- Tokens that are their own claims. -/
def plainEnv : AuthEnv TokenClaim where
  jwt :=
    { sign := id, claims := id, valid := fun _ _ => true, claims_sign := fun _ => rfl }
  keys := true
  installID := "install"
  hashPassword := fun token => token.id

def adminUser : LoginUser :=
  { fullname := "admin", server := "", timeout := 3600, lastLoginAt := 0 }

def adminRoles : DomainRole := [("", .admin)]

def adminToken (now : Nat) : TokenClaim :=
  jwtGenerateToken plainEnv adminUser adminRoles "" "" "" "a" now

def adminLogin : AuthEvent TokenClaim := .login adminUser adminRoles "" "" "" "a"

/-- A token for the state of an import, made at the time zero. -/
def importToken : TokenClaim :=
  jwtGenerateToken plainEnv adminUser [("", .importStatus)] "" "" "" "i" 0

/-- A login, two requests and a logout between them. -/
def loggedOutSteps : List (AuthStep TokenClaim) :=
  [⟨0, 0, adminLogin⟩, ⟨0, minute, .request [adminToken 0]⟩,
    ⟨0, minute, .logout 0⟩, ⟨1, 2 * minute, .request [adminToken 0]⟩]

theorem deleted_tokens_stay_revoked_logged_out :
    StaysRevoked (authRun plainEnv .init loggedOutSteps).log ∧
      .rejected .timeout ∈ (authRun plainEnv .init loggedOutSteps).log := by
  constructor
  · apply deleted_tokens_stay_revoked plainEnv loggedOutSteps
    refine ⟨by decide, trivial, by decide, trivial, by decide, ?_, by decide, trivial, trivial⟩
    intro login found session reused
    cases reused
  · decide

/-- The token of an import is invalidated four minutes before its end; a
logout one minute later uses the same cluster session. -/
def sharedSessionSteps : List (AuthStep TokenClaim) :=
  [⟨0, 6 * minute, adminLogin⟩, ⟨0, 6 * minute, .invalidate importToken⟩,
    ⟨0, 7 * minute, .request [adminToken (6 * minute)]⟩,
    ⟨0, 7 * minute, .logout 0⟩,
    ⟨0, 11 * minute, .request [adminToken (6 * minute)]⟩]

/-- After the shared session has ended the logged out token is accepted, hours
before its end of life. -/
theorem deleted_token_accepted_again :
    (sharedSessionSteps.map AuthStep.now).Pairwise (· ≤ ·) ∧
      11 * minute < plainEnv.eol (adminToken (6 * minute)) ∧
      ¬ StaysRevoked (authRun plainEnv .init sharedSessionSteps).log := by
  refine ⟨by decide, by decide, ?_⟩
  intro revoked
  have log : (authRun plainEnv .init sharedSessionSteps).log =
      [.loggedIn (adminToken (6 * minute)), .deleted importToken,
        .accepted (adminToken (6 * minute)),
        .deleted (adminToken (6 * minute)),
        .accepted (adminToken (6 * minute))] := by decide
  have tail := (pairwise_append.mp (show StaysRevoked ([.loggedIn (adminToken (6 * minute)),
        .deleted importToken, .accepted (adminToken (6 * minute))] ++
      [.deleted (adminToken (6 * minute)), .accepted (adminToken (6 * minute))]) from revoked)).2.1
  exact (pairwise_cons.mp tail).1 _ mem_cons_self _ rfl rfl

end NeuVector.Controller
