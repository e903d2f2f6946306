import Mathlib.Order.Basic

/-!
# Lockout after failed logins

An attempt with a local password reads the record of the user with its
revision and writes it back if the revision is unchanged.  An attempt that
fails does not look at the result of the write, so that failures which are
counted at the same time are counted once.  The lockout holds in every run in
which the writes of the attempts with a wrong password succeed.
-/

namespace NeuVector.Controller.Lockout

/-- The profile of passwords while blocking is enabled, which is checked to
have a positive threshold. -/
structure PwdProfile where
  blockAfterFailedCount : Nat
  blockMinutes : Nat
  positive : 0 < blockAfterFailedCount

/-- The zero time is `none`; other times are in nanoseconds. -/
structure LoginUser where
  failedLoginCount : UInt32
  blockLoginSince : Option Nat
  deriving DecidableEq

inductive LoginAnswer where
  | success
  | wrongPassword
  | expired
  | blocked
  deriving DecidableEq

def retryClusterMax : Nat := 3

structure Reading where
  rev : Nat
  now : Nat
  user : LoginUser

/-- An attempt under way.  It has read the record, or is about to read it
again; whether the password is right and expired is given. -/
structure Attempt where
  right : Bool
  expired : Bool
  retry : Nat
  read : Option Reading

structure LoginSystem where
  clock : Nat
  rev : Nat
  user : LoginUser
  attempts : Nat → Option Attempt
  /-- The attempts with a wrong password that have completed since the last
  success or end of a block, and the time of the last one. -/
  wrong : Nat
  lastWrong : Nat

def LoginSystem.start : LoginSystem :=
  { clock := 0, rev := 0, user := ⟨0, none⟩, attempts := fun _ => none, wrong := 0, lastWrong := 0 }

section Model

variable (profile : PwdProfile)

def PwdProfile.blockPeriod : Nat := 60000000000 * profile.blockMinutes

def LoginUser.isBlocked (user : LoginUser) (now : Nat) : Bool :=
  user.blockLoginSince.any fun since => now < since + profile.blockPeriod

def LoginUser.failed (user : LoginUser) (now : Nat) : LoginUser :=
  let count := 1 + if user.blockLoginSince.isSome then 0
    else user.failedLoginCount
  { failedLoginCount := count
    blockLoginSince :=
      if count.toNat ≥ profile.blockAfterFailedCount then some now else none }

/-- The record that an attempt leaves while the user is blocked. -/
def LoginUser.refused (user : LoginUser) (now : Nat) : LoginUser :=
  let count := user.failedLoginCount + 1
  { failedLoginCount :=
      if count = 0 then UInt32.ofNat profile.blockAfterFailedCount else count
    blockLoginSince := some now }

/-- The part of `localPasswordAuth` between the read and the write of the
record: the answer, and the record to be written. -/
def localPasswordAuth (user : LoginUser) (now : Nat) (right expired : Bool) :
    LoginAnswer × Option LoginUser :=
  if user.isBlocked profile now then (.blocked, some (user.refused profile now))
  else if right then
    if expired then (.expired, none) else (.success, some ⟨0, none⟩)
  else (.wrongPassword, if user.failed profile now = user then none
    else some (user.failed profile now))

variable (s : LoginSystem)

def LoginSystem.reading : Reading := ⟨s.rev, s.clock, s.user⟩

def LoginSystem.setAttempt (i : Nat) (attempt : Option Attempt) : LoginSystem :=
  { s with attempts := Function.update s.attempts i attempt }

def putUserRev (rev : Nat) (user : LoginUser) : LoginSystem :=
  if rev = s.rev then { s with user := user, rev := s.rev + 1 } else s

/-- The rest of the attempt after a reading.  Only a successful one looks at
the result of the write and tries again. -/
def finishAttempt (i : Nat) (attempt : Attempt) (read : Reading) : LoginSystem :=
  let answer := localPasswordAuth profile read.user read.now attempt.right attempt.expired
  let after := (answer.2.elim s (putUserRev s read.rev)).setAttempt i none
  if answer.1 = .success then
    if read.rev ≠ s.rev ∧ attempt.retry + 1 < retryClusterMax then
      s.setAttempt i (some { attempt with
        retry := attempt.retry + 1, read := none })
    else { after with wrong := 0 }
  else if attempt.right then after
  else
    { after with
      wrong := 1 + if answer.1 = .wrongPassword ∧
        read.user.blockLoginSince.isSome then 0 else s.wrong
      lastWrong := read.now }

inductive LoginEvent where
  | pass (time : Nat)
  | start (i : Nat) (right expired : Bool)
  | reread (i : Nat)
  | put (i : Nat)

def loginStep : LoginEvent → LoginSystem
  | .pass time => { s with clock := s.clock + time }
  | .start i right expired =>
    if (s.attempts i).isSome then s
    else s.setAttempt i (some ⟨right, expired, 0, some s.reading⟩)
  | .reread i =>
    match s.attempts i with
    | some ⟨right, expired, retry, none⟩ =>
      s.setAttempt i (some ⟨right, expired, retry, some s.reading⟩)
    | _ => s
  | .put i =>
    match s.attempts i with
    | some ⟨right, expired, retry, some read⟩ =>
      finishAttempt profile s i ⟨right, expired, retry, some read⟩ read
    | _ => s

/-- The record has not been written since an attempt with a wrong password,
which now writes it, has read it. -/
def Undisturbed : LoginEvent → Prop
  | .put i => ∀ expired retry read, s.attempts i = some ⟨false, expired, retry, some read⟩ →
      read.rev = s.rev
  | _ => True

def AllUndisturbed : LoginSystem → List LoginEvent → Prop
  | _, [] => True
  | s, event :: rest => Undisturbed s event ∧ AllUndisturbed (loginStep profile s event) rest

end Model

variable {profile : PwdProfile} {s : LoginSystem}

/-- What the record says of the failures: they are counted, or the user is
blocked since the last one. -/
structure Covers (profile : PwdProfile) (user : LoginUser)
    (wrong lastWrong clock : Nat) : Prop where
  free : user.blockLoginSince = none → wrong ≤ user.failedLoginCount.toNat ∧
      user.failedLoginCount.toNat < profile.blockAfterFailedCount
  held : ∀ since, user.blockLoginSince = some since → lastWrong ≤ since ∧ since ≤ clock

/-- A reading of the current revision is of the current record. -/
structure Current (s : LoginSystem) (read : Reading) : Prop where
  rev : read.rev ≤ s.rev
  now : read.now ≤ s.clock
  same : read.rev = s.rev → read.user = s.user ∧
    ∀ since, s.user.blockLoginSince = some since → since ≤ read.now

structure LockSound (profile : PwdProfile) (s : LoginSystem) : Prop where
  covers : Covers profile s.user s.wrong s.lastWrong s.clock
  reads : ∀ i attempt read, s.attempts i = some attempt → attempt.read = some read → Current s read

theorem failed_covers {user : LoginUser} {wrong lastWrong clock now : Nat}
    (covers : Covers profile user wrong lastWrong clock)
    (small : profile.blockAfterFailedCount < 4294967296) (inTime : now ≤ clock) :
    Covers profile (user.failed profile now)
      (1 + if user.blockLoginSince.isSome then 0 else wrong) now clock := by
  constructor
  · intro free
    have below : (user.failed profile now).failedLoginCount.toNat <
        profile.blockAfterFailedCount := by simpa [LoginUser.failed] using free
    refine ⟨?_, below⟩
    cases since : user.blockLoginSince with
    | some time => simp [LoginUser.failed, since]
    | none =>
      have counted := covers.free since
      simp [LoginUser.failed, since, UInt32.toNat_add]
      omega
  · intro since held
    have same : since = now := by
      simp only [LoginUser.failed] at held
      split at held <;> simp_all
    exact ⟨same ▸ Nat.le_refl _, same ▸ inTime⟩

theorem lockSound_of_record (s : LoginSystem) {after : LoginSystem} (clock : after.clock = s.clock)
    (record : after.rev = s.rev ∧ after.user = s.user ∨ after.rev = s.rev + 1)
    (attempts : ∀ i attempt read, after.attempts i = some attempt →
      attempt.read = some read → Current s read)
    (covers : Covers profile after.user after.wrong after.lastWrong
      after.clock) : LockSound profile after := by
  refine ⟨covers, fun i attempt read found isRead => ?_⟩
  obtain ⟨rev, now, same⟩ := attempts i attempt read found isRead
  rcases record with ⟨sameRev, sameUser⟩ | next
  · exact ⟨by omega, by omega, by rw [sameRev, sameUser]; exact same⟩
  · exact ⟨by omega, by omega, by omega⟩

theorem setAttempt_reads (sound : LockSound profile s) (i : Nat) (attempt : Option Attempt)
    (own : ∀ read, (attempt.bind Attempt.read) = some read → Current s read)
    (j : Nat) (other : Attempt) (read : Reading)
    (found : Function.update s.attempts i attempt j = some other)
    (isRead : other.read = some read) : Current s read := by
  rw [Function.update_apply] at found
  split at found
  · apply own
    simp [found, isRead]
  · exact sound.reads j other read found isRead

section Finish

variable {i : Nat} {attempt : Attempt} {read : Reading}
  (sound : LockSound profile s) (current : Current s read)
include sound

/-- The write has failed, so that the password is right. -/
theorem finishAttempt_disturbed (right : attempt.right = true) (different : read.rev ≠ s.rev) :
    LockSound profile (finishAttempt profile s i attempt read) := by
  have gone := setAttempt_reads sound i none (by simp)
  have same : ∀ change : Option LoginUser, change.elim s (putUserRev s read.rev) = s := by
    intro change
    cases change <;> simp [putUserRev, different]
  simp only [finishAttempt, same, right, if_true]
  split_ifs
  · exact lockSound_of_record s rfl (.inl ⟨rfl, rfl⟩)
      (setAttempt_reads sound i _ nofun) sound.covers
  · exact lockSound_of_record s rfl (.inl ⟨rfl, rfl⟩) gone
      ⟨fun free => ⟨Nat.zero_le _, (sound.covers.free free).2⟩, sound.covers.held⟩
  · exact lockSound_of_record s rfl (.inl ⟨rfl, rfl⟩) gone sound.covers
include current

theorem finishAttempt_current (small : profile.blockAfterFailedCount < 4294967296)
    (same : read.rev = s.rev) :
    LockSound profile (finishAttempt profile s i attempt read) := by
  have gone := setAttempt_reads sound i none (by simp)
  obtain ⟨user, before⟩ := current.same same
  simp only [finishAttempt, user, same, ne_eq, not_true, false_and, if_false]
  by_cases blocked : s.user.isBlocked profile read.now = true
  · obtain ⟨since, isSince, _⟩ := (Option.any_eq_true ..).mp blocked
    have late := before since isSince
    have held := sound.covers.held since isSince
    have kept : ∀ lastWrong wrong, lastWrong ≤ read.now →
        Covers profile (s.user.refused profile read.now) wrong lastWrong s.clock := by
      intro lastWrong wrong inTime
      refine ⟨nofun, fun time isTime => ?_⟩
      cases isTime
      exact ⟨inTime, current.now⟩
    simp only [localPasswordAuth, blocked, if_true, Option.elim_some,
      putUserRev, reduceCtorEq, if_false, false_and]
    split
    · exact lockSound_of_record s rfl (.inr rfl) gone
        (kept s.lastWrong s.wrong (Nat.le_trans held.1 late))
    · exact lockSound_of_record s rfl (.inr rfl) gone (kept read.now _ (Nat.le_refl _))
  · cases right : attempt.right with
    | false =>
      have covers := failed_covers sound.covers small current.now
      simp only [localPasswordAuth, blocked, reduceCtorEq, if_false, true_and]
      split
      next unchanged =>
        rw [unchanged] at covers
        exact lockSound_of_record s rfl (.inl ⟨rfl, rfl⟩) gone covers
      · simp only [Option.elim_some, putUserRev, if_true]
        exact lockSound_of_record s rfl (.inr rfl) gone covers
    | true =>
      cases expired : attempt.expired with
      | true =>
        simp only [localPasswordAuth, blocked, if_true, if_false, reduceCtorEq, Option.elim_none]
        exact lockSound_of_record s rfl (.inl ⟨rfl, rfl⟩) gone sound.covers
      | false =>
        simp only [localPasswordAuth, blocked, if_true, if_false,
          Bool.false_eq_true, Option.elim_some, putUserRev]
        exact lockSound_of_record s rfl (.inr rfl) gone
          ⟨fun _ => ⟨Nat.zero_le _, profile.positive⟩, nofun⟩

end Finish

theorem loginStep_sound (sound : LockSound profile s) {event : LoginEvent}
    (small : profile.blockAfterFailedCount < 4294967296) (undisturbed : Undisturbed s event) :
    LockSound profile (loginStep profile s event) := by
  have now : Current s s.reading := ⟨Nat.le_refl _, Nat.le_refl _,
    fun _ => ⟨rfl, fun since held => (sound.covers.held since held).2⟩⟩
  cases event with
  | pass time =>
    refine ⟨⟨sound.covers.free, fun since held => ?_⟩, fun i attempt read found isRead => ?_⟩
    · have kept := sound.covers.held since held
      exact ⟨kept.1, Nat.le_add_right_of_le kept.2⟩
    · obtain ⟨rev, inTime, same⟩ := sound.reads i attempt read found isRead
      exact ⟨rev, Nat.le_add_right_of_le inTime, same⟩
  | start i right expired =>
    simp only [loginStep]
    split
    · exact sound
    · exact lockSound_of_record s rfl (.inl ⟨rfl, rfl⟩)
        (setAttempt_reads sound i _ (by simpa using now)) sound.covers
  | reread i =>
    simp only [loginStep]
    split
    · exact lockSound_of_record s rfl (.inl ⟨rfl, rfl⟩)
        (setAttempt_reads sound i _ (by simpa using now)) sound.covers
    · exact sound
  | put i =>
    simp only [loginStep]
    split
    next right expired retry read found =>
      have current := sound.reads i _ read found rfl
      by_cases same : read.rev = s.rev
      · exact finishAttempt_current sound current small same
      · cases right with
        | true => exact finishAttempt_disturbed sound rfl same
        | false => exact absurd (undisturbed expired retry read found) same
    · exact sound

def loginRun (profile : PwdProfile) (events : List LoginEvent) : LoginSystem :=
  events.foldl (loginStep profile) .start

theorem loginRun_sound {events : List LoginEvent}
    (small : profile.blockAfterFailedCount < 4294967296)
    (undisturbed : AllUndisturbed profile .start events) :
    LockSound profile (loginRun profile events) := by
  have start : LockSound profile .start :=
    ⟨⟨fun _ => ⟨Nat.le_refl _, profile.positive⟩, nofun⟩, nofun⟩
  unfold loginRun
  generalize LoginSystem.start = s at start undisturbed ⊢
  induction events generalizing s with
  | nil => exact start
  | cons event rest induction =>
    exact induction _ (loginStep_sound start small undisturbed.1) undisturbed.2

theorem lockout_holds (profile : PwdProfile) (small : profile.blockAfterFailedCount < 4294967296)
    (events : List LoginEvent) (undisturbed : AllUndisturbed profile .start events)
    (failures : profile.blockAfterFailedCount ≤ (loginRun profile events).wrong)
    (inTime : (loginRun profile events).clock <
      (loginRun profile events).lastWrong + profile.blockPeriod)
    (right expired : Bool) :
    (localPasswordAuth profile (loginRun profile events).user
      (loginRun profile events).clock right expired).1 = .blocked := by
  have sound := loginRun_sound small undisturbed
  generalize loginRun profile events = s at sound failures inTime ⊢
  have blocked : s.user.isBlocked profile s.clock = true := by
    cases since : s.user.blockLoginSince with
    | none =>
      have counted := sound.covers.free since
      omega
    | some time =>
      have kept := sound.covers.held time since
      simp only [LoginUser.isBlocked, since, Option.any_some, decide_eq_true_eq]
      omega
  simp only [localPasswordAuth, blocked, if_true]

def twoFailures : PwdProfile := ⟨2, 1, by decide⟩

theorem lockout_holds_second :
    (localPasswordAuth twoFailures (loginRun twoFailures [.start 0 false false, .put 0,
        .start 1 false false, .put 1]).user 0 true false).1 = .blocked := by
  apply lockout_holds twoFailures (by decide) [.start 0 false false, .put 0,
    .start 1 false false, .put 1] _ (by decide) (by decide) true false
  refine ⟨trivial, ?_, trivial, ?_, trivial⟩
  · rintro _ _ _ ⟨⟩
    rfl
  · rintro _ _ _ ⟨⟩
    rfl

/-- Two attempts that read the same record are counted once. -/
theorem overlapping_failures_lost :
    (loginRun twoFailures [.start 0 false false, .start 1 false false, .put 0, .put 1]).wrong = 2 ∧
      (localPasswordAuth twoFailures
        (loginRun twoFailures [.start 0 false false, .start 1 false false,
          .put 0, .put 1]).user 0 true false).1 = .success := by decide

end NeuVector.Controller.Lockout
