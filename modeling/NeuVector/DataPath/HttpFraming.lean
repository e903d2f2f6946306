import NeuVector.DataPath.HttpParser

/-!
# Framing flags as a state machine

The effect of a header line on the framing of the body depends only on a few
facts about its text: a content length, a chunked transfer encoding, or a
request to close the connection.  This module reads these facts off a line and
shows that the flags of the parser follow a small machine over them.
-/

namespace NeuVector.DataPath

open Library

def tokensFrom (token : List UInt8) : List UInt8 → List (List UInt8)
  | [] => if token = [] then [] else [token]
  | c :: rest =>
    if c = 32 then
      if token = [] then tokensFrom [] rest
      else token :: tokensFrom [] rest
    else tokensFrom (token ++ [c]) rest

def tokens (bytes : List UInt8) : List (List UInt8) := tokensFrom [] bytes

def feedTokens {σ : Type} (func : σ → List UInt8 → Nat → σ × Bool)
    (idx : Nat) : List (List UInt8) → σ → σ
  | [], state => state
  | token :: rest, state =>
    if (func state token idx).2 then (func state token idx).1
    else feedTokens func (idx + 1) rest (func state token idx).1

variable (w : HttpWing) {σ : Type}

theorem consumeTokensFrom_eq (func : σ → List UInt8 → Nat → σ × Bool)
    (token : List UInt8) (idx : Nat) (bytes : List UInt8) (state : σ) :
    consumeTokensFrom func token idx bytes state =
      feedTokens func idx (tokensFrom token bytes) state := by
  induction bytes generalizing token idx state with
  | nil =>
    simp only [consumeTokensFrom, tokensFrom]
    split
    · rfl
    · simp [feedTokens]
  | cons c rest induction =>
    simp only [consumeTokensFrom, tokensFrom]
    split
    · split
      · exact induction [] idx state
      · simp only [feedTokens]
        split
        · rfl
        · exact induction [] (idx + 1) _
    · exact induction (token ++ [c]) idx state

theorem consumeTokens_eq (func : σ → List UInt8 → Nat → σ × Bool) (bytes : List UInt8) (state : σ) :
    consumeTokens func bytes state = feedTokens func 0 (tokens bytes) state :=
  consumeTokensFrom_eq func [] 0 bytes state

/-- A function that ignores every token but those that make it skip the line
acts once, on the first of them. -/
theorem feedTokens_find {func : σ → List UInt8 → Nat → σ × Bool}
    (hit : List UInt8 → Bool) (act : σ → σ)
    (acts : ∀ state token idx, func state token idx =
      if hit token then (act state, true) else (state, false)) (idx : Nat)
    (tokens : List (List UInt8)) (state : σ) :
    feedTokens func idx tokens state =
      if tokens.any hit then act state else state := by
  induction tokens generalizing idx with
  | nil => rfl
  | cons token rest induction =>
    cases found : hit token with
    | true => simp [feedTokens, acts, found]
    | false =>
      simp only [feedTokens, acts, found, Bool.false_eq_true, if_false,
        List.any_cons, Bool.false_or]
      exact induction (idx + 1)

/-- The value of a content length header, without the limit of the machine. -/
inductive LengthField where
  | empty
  | negative
  | value (n : Nat)
  deriving DecidableEq

inductive LineEffect where
  | length (field : LengthField)
  | chunked
  | close
  | neutral
  deriving DecidableEq

def decimalValue (digits : List UInt8) : Nat :=
  digits.foldl (fun value c => if isDigit c then value * 10 + (c.toNat - 48) else value) 0

def lengthField (value : List UInt8) : LengthField :=
  match (tokens value).head? with
  | none => .empty
  | some token =>
    if token.head? = some 45 then .negative
    else if token.head? = some 43 then .value (decimalValue token.tail)
    else .value (decimalValue token)

def isClose (token : List UInt8) : Bool := startsNoCase (ascii ['c', 'l', 'o', 's', 'e']) token

def isChunked (token : List UInt8) : Bool :=
  token.length == 7 && startsNoCase (ascii ['c', 'h', 'u', 'n', 'k', 'e', 'd']) token

def lineEffect (line : List UInt8) : LineEffect :=
  if startsNoCase contentLengthName line then .length (lengthField (line.drop 15))
  else if startsNoCase connectionName line then
    if (tokens (line.drop 11)).any isClose then .close else .neutral
  else if startsNoCase transferEncodingName line then
    if (tokens (line.drop 18)).any isChunked then .chunked else .neutral
  else .neutral

theorem decimal_eq (digits : List UInt8) : decimal digits = UInt32.ofNat (decimalValue digits) := by
  apply List.foldl_hom UInt32.ofNat
  intro value c
  split
  next digit =>
    have low : 48 ≤ c := by
      simp only [isDigit, Bool.and_eq_true, decide_eq_true_eq] at digit
      exact digit.1
    have digitValue : (c - 48).toUInt32 = UInt32.ofNat (c.toNat - 48) := by
      have value : (c - 48).toNat = c.toNat - 48 := UInt8.toNat_sub_of_le _ _ low
      rw [← value]
      exact UInt32.ofNat_toNat.symm
    rw [digitValue, UInt32.ofNat_add, UInt32.ofNat_mul]
    rfl
  · rfl

inductive BodyMode where
  | unset
  | length (n : UInt32)
  | chunked
  | close
  deriving DecidableEq

structure Frame where
  mode : BodyMode
  negative : Bool
  deriving DecidableEq

def Frame.init : Frame := { mode := .unset, negative := false }

/-- The mode after a content length; a mode other than a length holds the
length zero. -/
def BodyMode.withLength (mode : BodyMode) : LengthField → BodyMode
  | .empty =>
    match mode with
    | .length m => .length m
    | _ => .length 0
  | .negative => .close
  | .value n =>
    match mode with
    | .length m =>
      if m = UInt32.ofNat n then .length (UInt32.ofNat n) else .close
    | _ => .length (UInt32.ofNat n)

def BodyMode.withClose : BodyMode → BodyMode
  | .chunked => .chunked
  | .length n => if n > 0 then .length n else .close
  | _ => .close

def Frame.next (frame : Frame) : LineEffect → Frame
  | .length field =>
    if frame.negative ∨ field = .negative then { mode := .close, negative := true }
    else { frame with mode := frame.mode.withLength field }
  | .chunked => { frame with mode := .chunked }
  | .close => { frame with mode := frame.mode.withClose }
  | .neutral => frame

def Frame.alarm (frame : Frame) : LineEffect → Bool
  | .length field => frame.negative || field == .negative || frame.mode.withLength field == .close
  | _ => false

/-- The flags of a wing show a state of the machine. -/
structure Shows (w : HttpWing) (frame : Frame) : Prop where
  hasContentLen : w.hasContentLen = true ↔ ∃ n, frame.mode = .length n
  contentLen : ∀ n, frame.mode = .length n → w.contentLen = n
  noContentLen : (∀ n, frame.mode ≠ .length n) → w.contentLen = 0
  chunked : w.chunked = true ↔ frame.mode = .chunked
  connClose : w.connClose = true ↔ frame.mode = .close
  negative : w.negativeLen = frame.negative

def LengthField.read (w : HttpWing) : LengthField → HttpWing
  | .empty => w
  | .negative => { w with negativeLen := true }
  | .value n => { w with contentLen := UInt32.ofNat n }

theorem LengthField.read_hasContentLen (field : LengthField) :
    (field.read w).hasContentLen = w.hasContentLen := by cases field <;> rfl

theorem LengthField.read_negativeLen (field : LengthField) :
    (field.read w).negativeLen = true ↔ w.negativeLen = true ∨ field = .negative := by
  cases field <;> simp [LengthField.read]

theorem consumeTokens_contentLength (value : List UInt8) :
    consumeTokens httpHeaderContentLengthToken value w = (lengthField value).read w := by
  rw [consumeTokens_eq]
  unfold lengthField
  cases tokens value with
  | nil => rfl
  | cons token rest =>
    simp only [List.head?_cons, feedTokens, httpHeaderContentLengthToken]
    by_cases minus : token.head? = some 45
    · simp [minus, LengthField.read]
    · by_cases plus : token.head? = some 43
      · simp [plus, LengthField.read, decimal_eq]
      · simp [minus, plus, LengthField.read, decimal_eq]

section Handlers

variable {w : HttpWing} {frame : Frame}
variable {negative : Bool}

theorem shows_connClose (flag : w.negativeLen = negative) :
    Shows (setBodyConnClose w) { mode := .close, negative := negative } :=
  { hasContentLen := by simp [setBodyConnClose]
    contentLen := by simp
    noContentLen := fun _ => rfl
    chunked := by simp [setBodyConnClose]
    connClose := by simp [setBodyConnClose]
    negative := flag }

theorem shows_chunked (flag : w.negativeLen = negative) :
    Shows (setBodyChunked w) { mode := .chunked, negative := negative } :=
  { hasContentLen := by simp [setBodyChunked]
    contentLen := by simp
    noContentLen := fun _ => rfl
    chunked := by simp [setBodyChunked]
    connClose := by simp [setBodyChunked]
    negative := flag }

theorem shows_contentLength (flag : w.negativeLen = negative) :
    Shows (setBodyContentLength w)
      { mode := .length w.contentLen, negative := negative } :=
  { hasContentLen := by simp [setBodyContentLength]
    contentLen := by simp [setBodyContentLength]
    noContentLen := fun none => absurd rfl (none _)
    chunked := by simp [setBodyContentLength]
    connClose := by simp [setBodyContentLength]
    negative := flag }

theorem withLength_of_eq {n : UInt32} {field : LengthField}
    (shows : Shows w frame) (positive : field ≠ .negative) (same : (field.read w).contentLen = n)
    (kept : w.hasContentLen = true → w.contentLen = n) :
    frame.mode.withLength field = .length n := by
  subst same
  cases field with
  | negative => exact absurd rfl positive
  | empty =>
    cases mode : frame.mode with
    | length m => simp [BodyMode.withLength, LengthField.read, shows.contentLen m mode]
    | unset | chunked | close => simp [BodyMode.withLength, LengthField.read,
        shows.noContentLen, mode]
  | value n =>
    cases mode : frame.mode with
    | length m =>
      have stored := shows.contentLen m mode
      have set := shows.hasContentLen.mpr ⟨m, mode⟩
      have equal := kept set
      simp [BodyMode.withLength, LengthField.read, ← stored, equal]
    | unset | chunked | close => rfl

theorem withLength_of_ne {field : LengthField} (shows : Shows w frame)
    (set : w.hasContentLen = true) (different : w.contentLen ≠ (field.read w).contentLen) :
    frame.mode.withLength field = .close := by
  obtain ⟨m, mode⟩ := shows.hasContentLen.mp set
  have stored := shows.contentLen m mode
  cases field with
  | negative | empty => exact absurd rfl different
  | value n =>
    rw [stored] at different
    simp only [mode, BodyMode.withLength]
    exact if_neg different

theorem httpHeaderContentLength_shows (shows : Shows w frame) (value : List UInt8) :
    Shows (httpHeaderContentLength w value).1 (frame.next (.length (lengthField value))) ∧
      ((httpHeaderContentLength w value).2 ≠ [] ↔
        frame.alarm (.length (lengthField value)) = true) := by
  unfold httpHeaderContentLength
  rw [consumeTokens_contentLength]
  generalize lengthField value = field
  have negative := field.read_negativeLen w
  have flag := field.read_hasContentLen w
  rw [shows.negative] at negative
  by_cases ends : frame.negative = true ∨ field = .negative
  · have set := negative.mpr ends
    have alarm : frame.alarm (.length field) = true := by
      rcases ends with before | here
      · simp [Frame.alarm, before]
      · simp [Frame.alarm, here]
    simp only [if_pos set, Frame.next, if_pos ends]
    have shown : Shows (setBodyConnClose (field.read w)) ⟨.close, true⟩ := shows_connClose set
    exact ⟨shown, by simp [alarm]⟩
  · have clear : ¬ (field.read w).negativeLen = true := fun set => ends (negative.mp set)
    have before : frame.negative = false := by
      cases value : frame.negative with
      | false => rfl
      | true => exact absurd (Or.inl value) ends
    have positive : field ≠ .negative := fun here => ends (Or.inr here)
    have kept : (field.read w).negativeLen = frame.negative := by
      rw [before]
      exact Bool.eq_false_iff.mpr clear
    have alarm : frame.alarm (.length field) = (frame.mode.withLength field == .close) := by
      simp [Frame.alarm, before, positive]
    simp only [if_neg clear, Frame.next, if_neg ends, flag, alarm]
    by_cases differs : w.hasContentLen = true ∧ w.contentLen ≠ (field.read w).contentLen
    · have close := withLength_of_ne shows differs.1 differs.2
      rw [if_pos (by simpa using differs), close]
      exact ⟨shows_connClose kept, by simp⟩
    · have length := withLength_of_eq shows positive rfl
        (fun set => Decidable.byContradiction fun different => differs ⟨set, different⟩)
      rw [if_neg (by simpa using differs), length]
      exact ⟨shows_contentLength kept, by simp⟩

def closing (w : HttpWing) : HttpWing :=
  if w.chunked || (w.hasContentLen && w.contentLen > 0) then w
  else setBodyConnClose w

theorem closing_shows (shows : Shows w frame) : Shows (closing w) (frame.next .close) := by
  obtain ⟨mode, negative⟩ := frame
  have close : w.chunked = false → w.hasContentLen = false →
      Shows (closing w) { mode := .close, negative := negative } := by
    intro notChunked noLength
    unfold closing
    rw [notChunked, noLength]
    exact shows_connClose shows.negative
  cases mode with
  | unset | close => exact close (by simpa using shows.chunked) (by simpa using shows.hasContentLen)
  | chunked =>
    have set : w.chunked = true := shows.chunked.mpr rfl
    unfold closing
    rw [set]
    exact shows
  | length n =>
    have set : w.hasContentLen = true := shows.hasContentLen.mpr ⟨n, rfl⟩
    have value : w.contentLen = n := shows.contentLen n rfl
    have notChunked : w.chunked = false := by simpa using shows.chunked
    unfold closing
    rw [notChunked, set, value]
    simp only [Frame.next, BodyMode.withClose, Bool.false_or, Bool.true_and, decide_eq_true_eq]
    split
    · exact shows
    · exact shows_connClose shows.negative

theorem httpHeaderConnection_eq (w : HttpWing) (value : List UInt8) :
    httpHeaderConnection w value =
      if (tokens value).any isClose then closing w else w := by
  unfold httpHeaderConnection
  rw [consumeTokens_eq]
  apply feedTokens_find
  intro state token idx
  unfold httpHeaderConnectionToken closing
  by_cases hit : isClose token = true
  · have named := hit
    unfold isClose at named
    rw [if_pos named]
    split <;> rfl
  · have named := hit
    unfold isClose at named
    rw [if_neg hit, if_neg named]

theorem httpHeaderXfrEncoding_eq (w : HttpWing) (value : List UInt8) :
    httpHeaderXfrEncoding w value =
      if (tokens value).any isChunked || w.chunked then setBodyChunked w
      else w := by
  have read : consumeTokens httpHeaderXfrEncodingToken value w =
      if (tokens value).any isChunked then { w with chunked := true }
      else w := by
    rw [consumeTokens_eq]
    apply feedTokens_find isChunked (fun wing : HttpWing => { wing with chunked := true })
    intro state token idx
    simp only [httpHeaderXfrEncodingToken, isChunked, Bool.and_eq_true, beq_iff_eq]
  unfold httpHeaderXfrEncoding
  rw [read]
  cases (tokens value).any isChunked with
  | true | false => rfl

theorem httpHeaderConnection_shows (shows : Shows w frame) (value : List UInt8) :
    Shows (httpHeaderConnection w value) (frame.next
        (if (tokens value).any isClose then .close else .neutral)) := by
  rw [httpHeaderConnection_eq]
  split
  · exact closing_shows shows
  · exact shows

theorem httpHeaderXfrEncoding_shows (shows : Shows w frame) (value : List UInt8) :
    Shows (httpHeaderXfrEncoding w value) (frame.next
        (if (tokens value).any isChunked then .chunked else .neutral)) := by
  rw [httpHeaderXfrEncoding_eq]
  cases (tokens value).any isChunked with
  | true => exact shows_chunked shows.negative
  | false =>
    split
    next set =>
      have mode : frame.mode = .chunked := shows.chunked.mp set
      have same : frame = { mode := .chunked, negative := frame.negative } := by rw [← mode]
      rw [same]
      exact shows_chunked shows.negative
    · exact shows

/-- The flags follow the machine over the effects of the lines, and a threat
is reported exactly when the machine raises one. -/
theorem httpHeaderLine_shows (shows : Shows w frame) (line : List UInt8) :
    Shows (httpHeaderLine w line).1 (frame.next (lineEffect line)) ∧
      ((httpHeaderLine w line).2 ≠ [] ↔ frame.alarm (lineEffect line) = true) := by
  unfold httpHeaderLine lineEffect
  split
  · exact httpHeaderContentLength_shows shows (line.drop 15)
  · split
    · refine ⟨httpHeaderConnection_shows shows (line.drop 11), ?_⟩
      split <;> simp [Frame.alarm]
    · split
      · refine ⟨httpHeaderXfrEncoding_shows shows (line.drop 18), ?_⟩
        split <;> simp [Frame.alarm]
      · exact ⟨shows, by simp [Frame.alarm]⟩

end Handlers

/-- The fields of a wing that no header line changes. -/
structure SameOutsideFraming (before after : HttpWing) : Prop where
  seq : after.seq = before.seq
  request : after.request = before.request
  sect : after.sect = before.sect
  chunk : after.chunk = before.chunk
  cmdStart : after.cmdStart = before.cmdStart
  bodyStart : after.bodyStart = before.bodyStart
  hdrStart : after.hdrStart = before.hdrStart

theorem SameOutsideFraming.refl : SameOutsideFraming w w := ⟨rfl, rfl, rfl, rfl, rfl, rfl, rfl⟩

theorem SameOutsideFraming.trans {first second third : HttpWing}
    (left : SameOutsideFraming first second) (right : SameOutsideFraming second third) :
    SameOutsideFraming first third :=
  ⟨right.seq.trans left.seq, right.request.trans left.request,
    right.sect.trans left.sect, right.chunk.trans left.chunk,
    right.cmdStart.trans left.cmdStart,
    right.bodyStart.trans left.bodyStart,
    right.hdrStart.trans left.hdrStart⟩

theorem httpHeaderLine_outside (line : List UInt8) :
    SameOutsideFraming w (httpHeaderLine w line).1 := by
  have read : ∀ field : LengthField, SameOutsideFraming w (field.read w) := by
    intro field
    cases field <;> exact ⟨rfl, rfl, rfl, rfl, rfl, rfl, rfl⟩
  unfold httpHeaderLine
  split
  · have same := read (lengthField (line.drop 15))
    unfold httpHeaderContentLength
    rw [consumeTokens_contentLength]
    simp only
    split
    · exact same.trans ⟨rfl, rfl, rfl, rfl, rfl, rfl, rfl⟩
    · split
      · exact same.trans ⟨rfl, rfl, rfl, rfl, rfl, rfl, rfl⟩
      · exact same.trans ⟨rfl, rfl, rfl, rfl, rfl, rfl, rfl⟩
  · split
    · simp only [httpHeaderConnection_eq, closing]
      split
      · split
        · exact .refl w
        · exact ⟨rfl, rfl, rfl, rfl, rfl, rfl, rfl⟩
      · exact .refl w
    · split
      · simp only [httpHeaderXfrEncoding_eq]
        split
        · exact ⟨rfl, rfl, rfl, rfl, rfl, rfl, rfl⟩
        · exact .refl w
      · exact .refl w

theorem headerLines_outside (lines : List LineText) :
    SameOutsideFraming w (headerLines w lines).1 := by
  induction lines generalizing w with
  | nil => exact .refl w
  | cons line lines induction => exact (httpHeaderLine_outside w line.text).trans (induction _)

def lineEffects (lines : List LineText) : List LineEffect :=
  lines.map fun line => lineEffect line.text

def Frame.run (frame : Frame) (effects : List LineEffect) : Frame := effects.foldl Frame.next frame

def Frame.alarms (frame : Frame) : List LineEffect → Bool
  | [] => false
  | effect :: rest => frame.alarm effect || (frame.next effect).alarms rest

theorem headerLines_shows {w : HttpWing} {frame : Frame}
    (shows : Shows w frame) (lines : List LineText) :
    Shows (headerLines w lines).1 (frame.run (lineEffects lines)) ∧
      ((headerLines w lines).2 ≠ [] ↔ frame.alarms (lineEffects lines) = true) := by
  induction lines generalizing w frame with
  | nil => exact ⟨shows, by simp [headerLines, lineEffects, Frame.alarms]⟩
  | cons line lines induction =>
    obtain ⟨here, alarm⟩ := httpHeaderLine_shows shows line.text
    obtain ⟨later, alarms⟩ := induction here
    refine ⟨later, ?_⟩
    simp only [headerLines, lineEffects, List.map_cons, Frame.alarms, Bool.or_eq_true, ← alarm]
    rw [← lineEffects, ← alarms]
    simp only [ne_eq, List.append_eq_nil_iff]
    exact Classical.not_and_iff_not_or_not

/-- How `http_parse_body` reads the flags. -/
inductive BodyFraming where
  | close
  | chunked
  | length (n : Nat)
  deriving DecidableEq

def bodyFraming (w : HttpWing) : BodyFraming :=
  if w.connClose then .close
  else if w.chunked then .chunked
  else .length w.contentLen.toNat

/-- The framing in which a header block leaves its body. -/
def headerFraming (shared : HttpShared) (w : HttpWing) (lines : List LineText) : BodyFraming :=
  bodyFraming (closeUnlessFramed shared (httpParseHeader w (linesBytes lines ++ crlf)).wing)

def headerThreats (w : HttpWing) (lines : List LineText) : List HttpThreat :=
  (httpParseHeader w (linesBytes lines ++ crlf)).threats

/-- The framing of a mode; without a length and without chunks it depends on
the kind of message. -/
def BodyMode.framing (bare : BodyFraming) : BodyMode → BodyFraming
  | .unset => bare
  | .length n => .length n.toNat
  | .chunked => .chunked
  | .close => .close

def bareFraming (shared : HttpShared) (request : Bool) : BodyFraming :=
  if request then if shared.method = .get then .length 0 else .close
  else if shared.method = .head ∨ shared.status = 204 ∨
      (shared.status / 100 ≠ 2 ∧ shared.status < 500) then .length 0
  else .close

theorem bodyFraming_closeUnlessFramed {w : HttpWing} {frame : Frame}
    (shows : Shows w frame) (shared : HttpShared) :
    bodyFraming (closeUnlessFramed shared w) =
      frame.mode.framing (bareFraming shared w.request) := by
  cases mode : frame.mode with
  | length n =>
    have set := shows.hasContentLen.mpr ⟨n, mode⟩
    have value := shows.contentLen n mode
    have notChunked : w.chunked = false := by simpa [mode] using shows.chunked
    have notClose : w.connClose = false := by simpa [mode] using shows.connClose
    simp [closeUnlessFramed, bodyFraming, set, notClose, notChunked, value, BodyMode.framing]
  | chunked =>
    have set := shows.chunked.mpr mode
    have notClose : w.connClose = false := by simpa [mode] using shows.connClose
    simp [closeUnlessFramed, bodyFraming, set, notClose, BodyMode.framing]
  | close =>
    have set := shows.connClose.mpr mode
    have same : (closeUnlessFramed shared w).connClose = true := by
      unfold closeUnlessFramed
      split
      · exact set
      · split
        · split
          · exact set
          · rfl
        · split
          · exact set
          · rfl
    simp [bodyFraming, same, BodyMode.framing]
  | unset =>
    have noLength : w.hasContentLen = false := by simpa [mode] using shows.hasContentLen
    have notChunked : w.chunked = false := by simpa [mode] using shows.chunked
    have notClose : w.connClose = false := by simpa [mode] using shows.connClose
    have zero : w.contentLen = 0 := shows.noContentLen (by simp [mode])
    have own : bodyFraming w = .length 0 := by simp [bodyFraming, notClose, notChunked, zero]
    unfold closeUnlessFramed bareFraming
    rw [noLength, notChunked]
    simp only [Bool.or_false, Bool.false_eq_true, if_false, BodyMode.framing]
    split
    · split
      · exact own
      · rfl
    · split
      · exact own
      · rfl

def Unframed (w : HttpWing) : Prop := Shows w .init

theorem unframed_setBodyDone : Unframed (setBodyDone w) where
  hasContentLen := by simp [setBodyDone, Frame.init]
  contentLen := by simp [Frame.init]
  noContentLen _ := rfl
  chunked := by simp [setBodyDone, Frame.init]
  connClose := by simp [setBodyDone, Frame.init]
  negative := rfl

theorem headerFraming_eq {w : HttpWing} (unframed : Unframed w)
    (shared : HttpShared) (lines : List LineText) :
    headerFraming shared w lines =
        (Frame.init.run (lineEffects lines)).mode.framing (bareFraming shared w.request) ∧
      (headerThreats w lines ≠ [] ↔ Frame.init.alarms (lineEffects lines) = true) := by
  have block := httpParseHeader_block w lines []
  rw [List.append_nil] at block
  obtain ⟨shown, alarms⟩ := headerLines_shows unframed lines
  unfold headerFraming headerThreats
  rw [block]
  refine ⟨?_, alarms⟩
  rw [bodyFraming_closeUnlessFramed shown, (headerLines_outside w lines).request]

end NeuVector.DataPath
