import NeuVector.DataPath.HttpParser

/-!
# First lines that are no status line

`http_parse_response` refuses a line as soon as a byte of it cannot stand there.
The refused lines are described by their bytes: the version, the blanks behind
it, and the digits of the status.
-/

namespace NeuVector.DataPath

/-- The digits of a status and, behind them, a byte that is neither a blank nor
a digit within the first three. -/
def BadStatus (read : Nat) (bytes : List UInt8) : Prop :=
  ∃ digits c rest, bytes = digits ++ c :: rest ∧ (∀ b ∈ digits, isDigit b = true) ∧
    read + digits.length ≤ 3 ∧ c ≠ 32 ∧ (isDigit c = true → read + digits.length = 3)

/-- Blanks and a bad status. -/
def BadBlanks (bytes : List UInt8) : Prop :=
  ∃ blanks status, bytes = blanks ++ status ∧ (∀ b ∈ blanks, b = 32) ∧ BadStatus 0 status

/-- A version and, behind it, a byte that cannot be printed or a blank before a
bad status. -/
def BadVersion (bytes : List UInt8) : Prop :=
  ∃ version c rest, bytes = version ++ c :: rest ∧
    (∀ b ∈ version, isPrint b = true ∧ b ≠ 32) ∧ (isPrint c = false ∨ c = 32 ∧ BadBlanks rest)

/-- At least four bytes that cannot become the status line of a response. -/
def NoStatusLine (bytes : List UInt8) : Prop :=
  4 ≤ bytes.length ∧ ((startsWith (ascii ['H', 'T', 'T', 'P']) bytes ||
    startsWith (ascii ['R', 'T', 'S', 'P']) bytes ||
    startsWith (ascii ['S', 'I', 'P']) bytes) = true → BadVersion bytes)

theorem isPrint_of_isDigit {c : UInt8} (digit : isDigit c = true) : isPrint c = true ∧ c ≠ 32 := by
  simp only [isDigit, isPrint, Bool.and_eq_true, decide_eq_true_eq,
    UInt8.le_iff_toNat_le] at digit ⊢
  refine ⟨⟨?_, ?_⟩, ?_⟩
  · exact Nat.le_trans (by decide) digit.1
  · exact Nat.le_trans digit.2 (by decide)
  · rintro rfl
    exact absurd digit.1 (by decide)

theorem isBlank_iff {c : UInt8} (print : isPrint c = true) : isBlank c = true ↔ c = 32 := by
  simp only [isBlank, isPrint, Bool.and_eq_true, Bool.or_eq_true, decide_eq_true_eq,
    beq_iff_eq] at *
  constructor
  · rintro (blank | rfl)
    · exact blank
    · exact absurd print.1 (by decide)
  · exact .inl

theorem BadStatus.cons_iff {read : Nat} {c : UInt8} {rest : List UInt8} (few : read ≤ 3) :
    BadStatus read (c :: rest) ↔
      c ≠ 32 ∧ (isDigit c = true → read = 3) ∨
        isDigit c = true ∧ read < 3 ∧ BadStatus (read + 1) rest := by
  constructor
  · rintro ⟨digits, stray, later, split, all, fits, notBlank, full⟩
    cases digits with
    | nil =>
      cases split
      exact .inl ⟨notBlank, full⟩
    | cons first digits =>
      cases split
      simp only [List.length_cons] at fits full
      refine .inr ⟨all _ (.head _), by omega, digits, stray, later, rfl, ?_, by omega, notBlank, ?_⟩
      · exact fun b member => all b (.tail _ member)
      · intro digit
        have := full digit
        omega
  · rintro (⟨notBlank, full⟩ | ⟨digit, more, digits, stray, later, rfl, all, fits, notBlank, full⟩)
    · exact ⟨[], c, rest, rfl, by simp, few, notBlank, full⟩
    · refine ⟨c :: digits, stray, later, rfl, ?_, ?_, notBlank, ?_⟩
      · intro b member
        rcases List.mem_cons.mp member with rfl | member
        · exact digit
        · exact all b member
      · simp only [List.length_cons]
        omega
      · intro isDigit
        have := full isDigit
        simp only [List.length_cons]
        omega

section Scan

variable {l start : Nat} {scan : ResponseScan} {c : UInt8} {rest : List UInt8}

theorem scanResponse_stray (stray : isPrint c = false) :
    scanResponse l scan (c :: rest) = (0, .bad) := by simp [scanResponse, stray]

theorem scanResponse_letter (print : isPrint c = true) (letter : c ≠ 32) :
    scanResponse l scan (c :: rest) =
      if scan.versionEnd > 0 then
        if !isDigit c then (0, .bad)
        else if l - scan.statusStart.getD l ≥ 3 then (0, .bad)
        else
          scanResponse (l + 1)
            { scan with
              statusStart := some (scan.statusStart.getD l)
              status := scan.status * 10 + (c.toNat - 48) } rest
      else scanResponse (l + 1) scan rest := by
  have notBlank : isBlank c = false := by
    rw [Bool.eq_false_iff]
    exact fun blank => letter ((isBlank_iff print).mp blank)
  rw [scanResponse]
  simp only [print, notBlank, Bool.not_true, Bool.false_eq_true, if_false]

theorem scanResponse_space : scanResponse l scan (32 :: rest) =
    if scan.statusStart.isSome then
      match consumeLine (32 :: rest) with
      | some (shift, _) => (scan.status, .line (l + shift))
      | none => (0, .wait)
    else scanResponse (l + 1) { scan with versionEnd := l } rest := by
  rw [scanResponse]
  rfl

/-- The scanner inside the status, of which it has read some digits. -/
theorem scanResponse_status (bytes : List UInt8) (behind : 0 < scan.versionEnd)
    (begun : scan.statusStart = some start) (order : start ≤ l) (few : l - start ≤ 3) :
    (scanResponse l scan bytes).2 = .bad ↔ BadStatus (l - start) bytes := by
  induction bytes generalizing l scan with
  | nil => simp [scanResponse, BadStatus]
  | cons c rest induction =>
    rw [BadStatus.cons_iff few]
    by_cases print : isPrint c = true
    · by_cases space : c = 32
      · subst space
        rw [scanResponse_space, begun]
        have notDigit : isDigit 32 = false := by decide
        cases consumeLine (32 :: rest) <;> simp [notDigit]
      · rw [scanResponse_letter print space, if_pos behind, begun, Option.getD_some]
        by_cases digit : isDigit c = true
        · by_cases full : 3 ≤ l - start
          · have read : l - start = 3 := by omega
            simp [digit, space, read]
          · have next := @induction (l + 1) { scan with statusStart := some start, status :=
              scan.status * 10 + (c.toNat - 48) } behind rfl (by omega) (by omega)
            rw [show l + 1 - start = l - start + 1 by omega] at next
            have below : l - start < 3 := Nat.lt_of_not_le full
            have notFull : l - start ≠ 3 := Nat.ne_of_lt below
            simp [digit, full, next, below, notFull]
        · simp [digit, space]
    · have notDigit : isDigit c = false := by
        rw [Bool.eq_false_iff]
        exact fun digit => print (isPrint_of_isDigit digit).1
      have notSpace : c ≠ 32 := by
        rintro rfl
        exact print rfl
      rw [scanResponse_stray (Bool.eq_false_iff.mpr print)]
      simp [notDigit, notSpace]

theorem BadBlanks.cons_iff : BadBlanks (c :: rest) ↔
    c = 32 ∧ BadBlanks rest ∨ c ≠ 32 ∧ BadStatus 0 (c :: rest) := by
  constructor
  · rintro ⟨blanks, status, split, all, bad⟩
    cases blanks with
    | nil =>
      cases split
      refine .inr ⟨?_, bad⟩
      rintro rfl
      rcases (BadStatus.cons_iff (by omega)).mp bad with ⟨notBlank, _⟩ | ⟨digit, _⟩
      · exact notBlank rfl
      · cases digit
    | cons first blanks =>
      cases split
      exact .inl ⟨all c (.head _), blanks, status, rfl, fun b member => all b (.tail _ member), bad⟩
  · rintro (⟨rfl, blanks, status, rfl, all, bad⟩ | ⟨_, bad⟩)
    · refine ⟨32 :: blanks, status, rfl, ?_, bad⟩
      intro b member
      rcases List.mem_cons.mp member with rfl | member
      · rfl
      · exact all b member
    · exact ⟨[], _, rfl, by simp, bad⟩

theorem BadVersion.cons_iff : BadVersion (c :: rest) ↔
    isPrint c = false ∨ c = 32 ∧ BadBlanks rest ∨
      isPrint c = true ∧ c ≠ 32 ∧ BadVersion rest := by
  constructor
  · rintro ⟨version, stop, later, split, all, bad⟩
    cases version with
    | nil =>
      cases split
      exact bad.imp_right .inl
    | cons first version =>
      cases split
      obtain ⟨print, letter⟩ := all c (.head _)
      exact .inr (.inr ⟨print, letter, version, stop, later, rfl,
        fun b member => all b (.tail _ member), bad⟩)
  · rintro (stray | blank | ⟨print, letter, version, stop, later, rfl, all, bad⟩)
    · exact ⟨[], c, rest, rfl, by simp, .inl stray⟩
    · exact ⟨[], c, rest, rfl, by simp, .inr blank⟩
    · refine ⟨c :: version, stop, later, rfl, ?_, bad⟩
      intro b member
      rcases List.mem_cons.mp member with rfl | member
      · exact ⟨print, letter⟩
      · exact all b member

/-- The scanner in the blanks behind the version. -/
theorem scanResponse_blanks (bytes : List UInt8) (behind : 0 < scan.versionEnd)
    (noStatus : scan.statusStart = none) (position : 0 < l) :
    (scanResponse l scan bytes).2 = .bad ↔ BadBlanks bytes := by
  induction bytes generalizing l scan with
  | nil => simp [scanResponse, BadBlanks, BadStatus]
  | cons c rest induction =>
    rw [BadBlanks.cons_iff]
    by_cases space : c = 32
    · subst space
      have next := @induction (l + 1) { scan with versionEnd := l } position noStatus (by omega)
      rw [scanResponse_space, noStatus]
      simp [noStatus ▸ next]
    · rw [BadStatus.cons_iff (by omega)]
      by_cases print : isPrint c = true
      · rw [scanResponse_letter print space, if_pos behind, noStatus, Option.getD_none]
        by_cases digit : isDigit c = true
        · have next := @scanResponse_status (l + 1) l { scan with statusStart := some l, status :=
            scan.status * 10 + (c.toNat - 48) } rest behind rfl (by omega) (by omega)
          rw [show l + 1 - l = 1 by omega] at next
          simp [digit, space, next]
        · simp [digit, space]
      · have notDigit : isDigit c = false := by
          rw [Bool.eq_false_iff]
          exact fun digit => print (isPrint_of_isDigit digit).1
        rw [scanResponse_stray (Bool.eq_false_iff.mpr print)]
        simp [notDigit, space]

/-- The scanner in the version. -/
theorem scanResponse_version (bytes : List UInt8) (noBlank : scan.versionEnd = 0)
    (noStatus : scan.statusStart = none) (begun : 0 < l ∨ bytes.head? ≠ some 32) :
    (scanResponse l scan bytes).2 = .bad ↔ BadVersion bytes := by
  induction bytes generalizing l scan with
  | nil => simp [scanResponse, BadVersion]
  | cons c rest induction =>
    rw [BadVersion.cons_iff]
    by_cases print : isPrint c = true
    · by_cases space : c = 32
      · subst space
        have position : 0 < l := begun.resolve_right (by simp)
        have next := @scanResponse_blanks (l + 1) { scan with versionEnd := l } rest position
          noStatus (by omega)
        rw [scanResponse_space, noStatus]
        simp [noStatus ▸ next, print]
      · have next := @induction (l + 1) scan noBlank noStatus (.inl (by omega))
        rw [scanResponse_letter print space, noBlank]
        simp [next, print, space]
    · rw [scanResponse_stray (Bool.eq_false_iff.mpr print)]
      simp [print]

end Scan

theorem httpParseResponse_bad_iff (shared : HttpShared) (bytes : List UInt8) :
    (httpParseResponse shared bytes).2 = .bad ↔ NoStatusLine bytes := by
  unfold httpParseResponse NoStatusLine
  by_cases short : bytes.length < 4
  · have few : ¬4 ≤ bytes.length := Nat.not_le_of_lt short
    simp [short, few]
  · rw [if_neg short]
    split
    next begins =>
      have letter : bytes.head? ≠ some 32 := by
        intro blank
        obtain ⟨rest, rfl⟩ := List.head?_eq_some_iff.mp blank
        have others : 32 ≠ 'H'.toUInt8 ∧ 32 ≠ 'R'.toUInt8 ∧ 32 ≠ 'S'.toUInt8 := by decide
        simp [startsWith, ascii, others] at begins
      have scanned := @scanResponse_version 0 ⟨0, none, 0⟩ bytes rfl rfl (.inr letter)
      simp only [begins, true_imp_iff, Nat.le_of_not_lt short, true_and, ← scanned]
      split <;> simp_all
    next other => simp [Nat.le_of_not_lt short, other]

end NeuVector.DataPath
