import Mathlib.Data.Finset.Basic

/-!
# Ticks of a session

A session has one entry for its ticks on the timer wheel and a flag for every
purpose that needs them.  The wheel removes the entry before it calls the
handler, which puts it back while a flag is left, except where it resets the
session.  The flags and the wheel agree in every state of a run exactly when
no reset for one purpose meets the flag of the other, and both are never set
unless the detection of both attacks is enabled, which it is not
(`threat_config` of `dpi_log.c`, which nothing writes).
-/

namespace NeuVector.DataPath.Tick

inductive TickFlag where
  | smallWindows
  | slowloris
  deriving DecidableEq

/-- The threats whose detection needs ticks. -/
inductive Threat where
  | tcpSmallWindow
  | httpSlowloris
  deriving DecidableEq

/-- Whether a threat is enabled. -/
abbrev ThreatConfig := Threat → Bool

def threatConfig : ThreatConfig
  | .tcpSmallWindow => false
  | .httpSlowloris => false

def TickFlag.threat : TickFlag → Threat
  | .smallWindows => .tcpSmallWindow
  | .slowloris => .httpSlowloris

def TickFlag.other : TickFlag → TickFlag
  | .smallWindows => .slowloris
  | .slowloris => .smallWindows

/-- A session with its entry on the wheel, as far as the ticks look at it. -/
structure TickSession where
  tickFlags : Finset TickFlag
  linked : Bool
  smallWindowTick : UInt32
  urlStartTick : UInt32
  lastBodyTick : UInt32
  /-- An entry has been removed that was not linked. -/
  badRemoval : Bool
  freed : Bool

def dpiSessionCreate : TickSession :=
  { tickFlags := ∅, linked := false, smallWindowTick := 0, urlStartTick := 0
    lastBodyTick := 0, badRemoval := false, freed := false }

section Model

variable (s : TickSession) (flag : TickFlag) (tick : UInt32)

def TickSession.setTick : TickSession := { s with tickFlags := insert flag s.tickFlags }

def TickSession.unsetTick : TickSession := { s with tickFlags := s.tickFlags.erase flag }

def TickSession.entryStart : TickSession := { s with linked := true }

def TickSession.entryRemove : TickSession :=
  { s with linked := false, badRemoval := s.badRemoval || !s.linked }

def dpiSessionStartTickFor : TickSession :=
  if s.tickFlags = ∅ then (s.setTick flag).entryStart else s.setTick flag

def dpiSessionStopTickFor : TickSession :=
  if (s.unsetTick flag).tickFlags = ∅ then (s.unsetTick flag).entryRemove
  else s.unsetTick flag

def dpiSessionRelease : TickSession :=
  { (if s.linked then s.entryRemove else s) with freed := true }

/-- The entry is put back while a flag is left. -/
def dpiSessionResumeTick : TickSession :=
  if s.tickFlags ≠ ∅ then s.entryStart else s

inductive TickAnswer where
  | tickContinue
  | tickStop
  | tickReset
  deriving DecidableEq

def dpiHttpTickTimeout (firstBody : Bool) : TickAnswer :=
  if s.urlStartTick > 0 then
    if tick - s.urlStartTick ≥ 3 then .tickReset else .tickContinue
  else if s.lastBodyTick > 0 ∧ firstBody = true ∧ tick - s.lastBodyTick ≥ 30 then .tickReset
  else .tickContinue

def smallWindowOver : Bool := s.smallWindowTick > 0 && tick - s.smallWindowTick ≥ 8

def dpiSessionTickTimeout (firstBody : Bool) : TickSession :=
  if smallWindowOver s tick then { s.unsetTick .smallWindows with smallWindowTick := 0 }
  else if .slowloris ∈ s.tickFlags then
    match dpiHttpTickTimeout s tick firstBody with
    | .tickReset => s.unsetTick .slowloris
    | .tickStop => dpiSessionResumeTick (s.unsetTick .slowloris)
    | .tickContinue => dpiSessionResumeTick s
  else dpiSessionResumeTick s

/-- The check of the window of a packet from the client; `drops` is whether it
has become small in the way of an attack.  The tracker makes it only if the
detection is enabled. -/
def checkSmallWindowAttack (tcpWin : UInt32) (drops : Bool) : TickSession :=
  if s.smallWindowTick > 0 then
    if tcpWin ≥ 16 then dpiSessionStopTickFor { s with smallWindowTick := 0 } .smallWindows
    else s
  else if tcpWin < 16 ∧ drops = true then
    dpiSessionStartTickFor { s with smallWindowTick := tick } .smallWindows
  else s

/-- The request line has been parsed. -/
def httpRequestLine (config : ThreatConfig) : TickSession :=
  if config .httpSlowloris then
    dpiSessionStartTickFor { s with urlStartTick := tick } .slowloris
  else s

def httpHeaderDone (detectBody : Bool) : TickSession :=
  if .slowloris ∈ s.tickFlags then
    if detectBody then { s with urlStartTick := 0, lastBodyTick := tick }
    else dpiSessionStopTickFor { s with urlStartTick := 0 } .slowloris
  else s

def httpBody (done : Bool) : TickSession :=
  if .slowloris ∈ s.tickFlags then
    if done then dpiSessionStopTickFor { s with lastBodyTick := tick } .slowloris
    else { s with lastBodyTick := tick }
  else s

end Model

inductive TickEvent where
  | requestLine (tick : UInt32)
  | headerDone (tick : UInt32) (detectBody : Bool)
  | body (tick : UInt32) (done : Bool)
  | window (tick tcpWin : UInt32) (drops : Bool)
  | expire (tick : UInt32) (firstBody : Bool)
  | release

variable (config : ThreatConfig) (s : TickSession)

/-- An entry that is linked is removed before its handler is called, and a
session that is freed takes no part any more. -/
def tickStep (event : TickEvent) : TickSession :=
  if s.freed then s
  else
    match event with
    | .requestLine tick => httpRequestLine s tick config
    | .headerDone tick detectBody => httpHeaderDone s tick detectBody
    | .body tick done => httpBody s tick done
    | .window tick tcpWin drops =>
      if config .tcpSmallWindow then checkSmallWindowAttack s tick tcpWin drops else s
    | .expire tick firstBody =>
      if s.linked then dpiSessionTickTimeout s.entryRemove tick firstBody
      else s
    | .release => dpiSessionRelease s

/-- The flags of a live session say whether its entry is linked, and no entry
has been removed that was not. -/
def TickSession.Agrees : Prop :=
  (s.freed = false → (s.tickFlags ≠ ∅ ↔ s.linked = true)) ∧ s.badRemoval = false

/-- The purpose for which an expiration resets the session. -/
def resetFor (tick : UInt32) (firstBody : Bool) : Option TickFlag :=
  if smallWindowOver s tick then some .smallWindows
  else if .slowloris ∈ s.tickFlags ∧
      dpiHttpTickTimeout s tick firstBody = .tickReset then some .slowloris
  else none

/-- An expiration that resets a session finds no flag of the other purpose. -/
def ResetsAlone : TickEvent → Prop
  | .expire tick firstBody => s.freed = false → s.linked = true → ∀ flag,
      resetFor s tick firstBody = some flag → flag.other ∉ s.tickFlags
  | _ => True

def AllResetAlone : TickSession → List TickEvent → Prop
  | _, [] => True
  | s, event :: rest => ResetsAlone s event ∧ AllResetAlone (tickStep config s event) rest

/-- What is kept, with the tick of the small window only under its flag. -/
structure TickSound (s : TickSession) : Prop where
  agrees : s.Agrees
  window : 0 < s.smallWindowTick → .smallWindows ∈ s.tickFlags

section Steps

variable {config : ThreatConfig} {s : TickSession} {flag : TickFlag} {tick : UInt32}

theorem erase_ne_empty (flags : Finset TickFlag) (flag : TickFlag) :
    flags.erase flag ≠ ∅ ↔ flag.other ∈ flags := by
  have different : flag.other ≠ flag := by cases flag <;> decide
  rw [← Finset.nonempty_iff_ne_empty]
  constructor
  · rintro ⟨found, member⟩
    obtain ⟨left, inside⟩ := Finset.mem_erase.mp member
    have same : found = flag.other := by
      cases found <;> cases flag <;> first | rfl | exact absurd rfl left
    rw [← same]
    exact inside
  · intro member
    exact ⟨flag.other, Finset.mem_erase.mpr ⟨different, member⟩⟩

section

variable (sound : TickSound s)
include sound

theorem TickSound.withTicks (url body : UInt32) :
    TickSound { s with urlStartTick := url, lastBodyTick := body } :=
  ⟨sound.agrees, sound.window⟩

variable (live : s.freed = false)
include live

theorem TickSound.start (window : UInt32)
    (allowed : window = s.smallWindowTick ∨ flag = .smallWindows) :
    TickSound (dpiSessionStartTickFor { s with smallWindowTick := window } flag) := by
  have kept : 0 < window → .smallWindows ∈ insert flag s.tickFlags := by
    intro positive
    rcases allowed with rfl | rfl
    · exact Finset.mem_insert_of_mem (sound.window positive)
    · exact Finset.mem_insert_self _ _
  have active : insert flag s.tickFlags ≠ ∅ := Finset.insert_ne_empty _ _
  unfold dpiSessionStartTickFor
  split
  · exact ⟨⟨fun _ => iff_of_true active rfl, sound.agrees.2⟩, kept⟩
  next already =>
    have linked := (sound.agrees.1 live).mp already
    exact ⟨⟨fun _ => iff_of_true active linked, sound.agrees.2⟩, kept⟩

theorem TickSound.stop (member : flag ∈ s.tickFlags)
    (window : 0 < s.smallWindowTick → flag ≠ .smallWindows) :
    TickSound (dpiSessionStopTickFor s flag) := by
  have linked : s.linked = true := (sound.agrees.1 live).mp (Finset.ne_empty_of_mem member)
  have kept : 0 < s.smallWindowTick → .smallWindows ∈ s.tickFlags.erase flag := fun positive =>
    Finset.mem_erase.mpr ⟨(window positive).symm, sound.window positive⟩
  unfold dpiSessionStopTickFor
  split
  next none =>
    refine ⟨⟨fun _ => iff_of_false (not_not.mpr none) nofun, ?_⟩, kept⟩
    simp [TickSession.unsetTick, TickSession.entryRemove, sound.agrees.2, linked]
  next left => exact ⟨⟨fun _ => iff_of_true left linked, sound.agrees.2⟩, kept⟩

end

theorem tickTimeout_cases (s : TickSession) (tick : UInt32) (firstBody : Bool) :
    (∃ flag, resetFor s tick firstBody = some flag ∧
      dpiSessionTickTimeout s.entryRemove tick firstBody =
        { s.entryRemove.unsetTick flag with
          smallWindowTick :=
            if flag = .smallWindows then 0 else s.smallWindowTick }) ∨
      resetFor s tick firstBody = none ∧ dpiSessionTickTimeout s.entryRemove tick firstBody =
          dpiSessionResumeTick s.entryRemove := by
  have same : smallWindowOver s.entryRemove tick = smallWindowOver s tick := rfl
  have flags : s.entryRemove.tickFlags = s.tickFlags := rfl
  have answer : dpiHttpTickTimeout s.entryRemove tick firstBody =
      dpiHttpTickTimeout s tick firstBody := rfl
  unfold dpiSessionTickTimeout resetFor
  rw [same, flags, answer]
  by_cases small : smallWindowOver s tick = true
  · simp [small]
  · by_cases slow : .slowloris ∈ s.tickFlags
    · cases result : dpiHttpTickTimeout s tick firstBody with
      | tickContinue => simp [small, slow]
      | tickStop =>
        unfold dpiHttpTickTimeout at result
        split_ifs at result
      | tickReset => simp [small, slow, TickSession.unsetTick]; rfl
    · simp [small, slow]

theorem expire_sound (sound : TickSound s) (live : s.freed = false)
    (linked : s.linked = true) {firstBody : Bool}
    (alone : ∀ flag, resetFor s tick firstBody = some flag → flag.other ∉ s.tickFlags) :
    TickSound (dpiSessionTickTimeout s.entryRemove tick firstBody) := by
  have good : s.entryRemove.badRemoval = false := by
    simp [TickSession.entryRemove, sound.agrees.2, linked]
  rcases tickTimeout_cases s tick firstBody with
    ⟨flag, resets, result⟩ | ⟨_, result⟩
  · have none : s.tickFlags.erase flag = ∅ :=
      not_not.mp fun left => alone flag resets ((erase_ne_empty _ _).mp left)
    rw [result]
    refine ⟨⟨fun _ => iff_of_false (not_not.mpr none) nofun, good⟩, ?_⟩
    intro positive
    have slow : flag ≠ .smallWindows := by
      rintro rfl
      cases positive
    rw [if_neg slow] at positive
    exact Finset.mem_erase.mpr ⟨slow.symm, sound.window positive⟩
  · have active : s.entryRemove.tickFlags ≠ ∅ := (sound.agrees.1 live).mpr linked
    rw [result, dpiSessionResumeTick, if_pos active]
    exact ⟨⟨fun _ => iff_of_true active rfl, good⟩, sound.window⟩

theorem tickStep_sound (sound : TickSound s) {event : TickEvent}
    (alone : ResetsAlone s event) : TickSound (tickStep config s event) := by
  unfold tickStep
  split
  · exact sound
  next notFreed =>
    have live : s.freed = false := Bool.eq_false_iff.mpr notFreed
    cases event with
    | requestLine tick =>
      simp only [httpRequestLine]
      split_ifs
      · exact (sound.withTicks tick _).start live _ (.inl rfl)
      · exact sound
    | headerDone tick detectBody =>
      simp only [httpHeaderDone]
      split_ifs with member body
      · exact sound.withTicks 0 tick
      · exact (sound.withTicks 0 _).stop live member fun _ => nofun
      · exact sound
    | body tick done =>
      simp only [httpBody]
      split_ifs with member ended
      · exact (sound.withTicks _ tick).stop live member fun _ => nofun
      · exact sound.withTicks _ tick
      · exact sound
    | window tick tcpWin drops =>
      simp only [checkSmallWindowAttack]
      split_ifs with _ counting large drop
      · have reset : TickSound { s with smallWindowTick := 0 } := ⟨sound.agrees, nofun⟩
        exact reset.stop live (sound.window counting) nofun
      · exact sound
      · exact sound.start live tick (.inr rfl)
      · exact sound
      · exact sound
    | expire tick firstBody =>
      dsimp only
      split_ifs with linked
      · exact expire_sound sound live linked (alone live linked)
      · exact sound
    | release =>
      dsimp only [dpiSessionRelease]
      refine ⟨⟨nofun, ?_⟩, ?_⟩
      · split_ifs with linked
        · simp [TickSession.entryRemove, sound.agrees.2, linked]
        · exact sound.agrees.2
      · split_ifs <;> exact sound.window

theorem tickStep_alone {event : TickEvent}
    (agrees : (tickStep config s event).Agrees) : ResetsAlone s event := by
  cases event with
  | expire tick firstBody =>
    intro live linked flag resets other
    have after : (dpiSessionTickTimeout s.entryRemove tick firstBody).Agrees := by
      simpa [tickStep, live, linked] using agrees
    rcases tickTimeout_cases s tick firstBody with
      ⟨found, same, result⟩ | ⟨none, _⟩
    · cases resets.symm.trans same
      rw [result] at after
      cases (after.1 live).mp ((erase_ne_empty _ _).mpr other)
    · cases resets.symm.trans none
  | _ => trivial

/-- Only enabled detections have set their flags. -/
def OnlyEnabled (config : ThreatConfig) (s : TickSession) : Prop :=
  ∀ flag ∈ s.tickFlags, config flag.threat

theorem OnlyEnabled.start {new : TickFlag} (enabled : OnlyEnabled config s)
    (allowed : config new.threat) : OnlyEnabled config (dpiSessionStartTickFor s new) := by
  intro flag member
  have inserted : flag ∈ insert new s.tickFlags := by
    unfold dpiSessionStartTickFor at member
    split at member <;> exact member
  rcases Finset.mem_insert.mp inserted with rfl | old
  · exact allowed
  · exact enabled flag old

theorem OnlyEnabled.stop {gone : TickFlag} (enabled : OnlyEnabled config s) :
    OnlyEnabled config (dpiSessionStopTickFor s gone) := by
  intro flag member
  apply enabled
  unfold dpiSessionStopTickFor at member
  split at member <;> exact Finset.mem_of_mem_erase member

theorem OnlyEnabled.step {event : TickEvent} (enabled : OnlyEnabled config s) :
    OnlyEnabled config (tickStep config s event) := by
  unfold tickStep
  split
  · exact enabled
  cases event with
  | requestLine tick =>
    simp only [httpRequestLine]
    split_ifs with allowed
    · exact OnlyEnabled.start enabled allowed
    · exact enabled
  | headerDone tick detectBody =>
    simp only [httpHeaderDone]
    split_ifs
    · exact enabled
    · exact OnlyEnabled.stop enabled
    · exact enabled
  | body tick done =>
    simp only [httpBody]
    split_ifs
    · exact OnlyEnabled.stop enabled
    · exact enabled
    · exact enabled
  | window tick tcpWin drops =>
    simp only [checkSmallWindowAttack]
    split_ifs with allowed
    · exact OnlyEnabled.stop enabled
    · exact enabled
    · exact OnlyEnabled.start enabled allowed
    · exact enabled
    · exact enabled
  | expire tick firstBody =>
    dsimp only
    split_ifs
    · rcases tickTimeout_cases s tick firstBody with ⟨gone, _, result⟩ | ⟨_, result⟩
      · rw [result]
        exact fun flag member => enabled flag (Finset.mem_of_mem_erase member)
      · rw [result, dpiSessionResumeTick]
        split_ifs <;> exact enabled
    · exact enabled
  | release =>
    dsimp only [dpiSessionRelease]
    split_ifs <;> exact enabled

/-- With one detection only, every reset is alone. -/
theorem allResetAlone_of_single (single : ¬(config .tcpSmallWindow ∧ config .httpSlowloris))
    (enabled : OnlyEnabled config s) (sound : TickSound s)
    (events : List TickEvent) : AllResetAlone config s events := by
  induction events generalizing s with
  | nil => trivial
  | cons event rest induction =>
    have alone : ResetsAlone s event := by
      cases event with
      | expire tick firstBody =>
        intro _ _ flag resets other
        have own : flag ∈ s.tickFlags := by
          simp only [resetFor, smallWindowOver, Bool.and_eq_true, decide_eq_true_eq] at resets
          split_ifs at resets with small slow
          · cases resets
            exact sound.window small.1
          · cases resets
            exact slow.1
        have first := enabled flag own
        have second := enabled flag.other other
        cases flag with
        | smallWindows => exact single ⟨first, second⟩
        | slowloris => exact single ⟨second, first⟩
      | _ => trivial
    exact ⟨alone, induction enabled.step (tickStep_sound sound alone)⟩

theorem tickSound_create : TickSound dpiSessionCreate :=
  ⟨⟨fun _ => iff_of_false (not_not.mpr rfl) nofun, rfl⟩, nofun⟩

/-- In every run of a session, the flags and the wheel agree in all states, and
no entry is removed that is not linked, if and only if every reset finds the
flag of its own purpose only. -/
theorem agrees_iff_allResetAlone (sound : TickSound s) (events : List TickEvent) :
    (∀ state ∈ events.scanl (tickStep config) s, state.Agrees) ↔
      AllResetAlone config s events := by
  induction events generalizing s with
  | nil => simpa [AllResetAlone] using sound.agrees
  | cons event rest induction =>
    simp only [List.scanl_cons, List.mem_cons, forall_eq_or_imp, AllResetAlone]
    constructor
    · rintro ⟨_, later⟩
      have next : (tickStep config s event).Agrees := by
        apply later
        cases rest <;> simp
      have alone := tickStep_alone next
      exact ⟨alone, (induction (tickStep_sound sound alone)).mp later⟩
    · rintro ⟨alone, later⟩
      exact ⟨sound.agrees, (induction (tickStep_sound sound alone)).mpr later⟩

end Steps

/-- The flags and the wheel agree in every state of every run, and no entry is
removed that is not linked: with the detections as they are configured, and
with every configuration that enables one of the two at most.  With both, they
do so exactly in the runs in which every reset finds its own flag only. -/
theorem tick_flags_agree (events : List TickEvent) :
    (∀ s ∈ events.scanl (tickStep threatConfig) dpiSessionCreate, s.Agrees) ∧
    ∀ config : ThreatConfig,
      (¬(config .tcpSmallWindow ∧ config .httpSlowloris) →
        ∀ s ∈ events.scanl (tickStep config) dpiSessionCreate, s.Agrees) ∧
      ((∀ s ∈ events.scanl (tickStep config) dpiSessionCreate, s.Agrees) ↔
        AllResetAlone config dpiSessionCreate events) := by
  have single : ∀ config : ThreatConfig, ¬(config .tcpSmallWindow ∧ config .httpSlowloris) →
      ∀ s ∈ events.scanl (tickStep config) dpiSessionCreate, s.Agrees := by
    intro config one
    apply (agrees_iff_allResetAlone tickSound_create events).mpr
    exact allResetAlone_of_single one (fun _ none => absurd none (Finset.notMem_empty _))
      tickSound_create events
  exact ⟨single threatConfig (by decide), fun config =>
    ⟨single config, agrees_iff_allResetAlone tickSound_create events⟩⟩

example : ∃ s ∈ [TickEvent.requestLine 1, .window 1 0 true, .expire 9 false,
    .headerDone 9 false].scanl (tickStep fun _ => true) dpiSessionCreate, s.badRemoval = true :=
  ⟨_, List.mem_of_getLast? rfl, rfl⟩

end NeuVector.DataPath.Tick
