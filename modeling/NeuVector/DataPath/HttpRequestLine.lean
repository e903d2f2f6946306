import NeuVector.DataPath.HttpHeaderOrder

/-!
# Well-formed requests

A request is given by its parts, and its bytes are composed from them.  The
scanner of `http_parse_request` finds the whole request line once its last
byte has arrived, and waits on every shorter piece of it.
-/

namespace NeuVector.DataPath

open List

/-- A byte of the method or of the target. -/
def isPartByte (c : UInt8) : Bool := !isRequestDelimiter c && c != 13 && c != 10

def httpVersion : List UInt8 := ascii ['H', 'T', 'T', 'P', '/', '1', '.', '1']

/-- A header without a content length or with the one that counts the body;
the body is not chunked. -/
def FramesBody (effects : List LineEffect) (size : Nat) : Prop :=
  LineEffect.chunked ∉ effects ∧ ((effects.filter LineEffect.isLength = [] ∧ size = 0) ∨
      effects.filter LineEffect.isLength = [lengthOf size])

instance (effects : List LineEffect) (size : Nat) : Decidable (FramesBody effects size) :=
  inferInstanceAs (Decidable (_ ∧ _))

structure HttpRequest where
  method : List UInt8
  target : List UInt8
  headers : List LineText
  body : List UInt8
  methodText : method.all isPartByte = true
  methodLetter : method.head?.any isAlpha = true
  methodSize : 3 ≤ method.length ∧ method.length ≤ 17
  targetText : target.all isPartByte = true
  targetFilled : target ≠ []
  framed : FramesBody (lineEffects headers) body.length
  bodySize : body.length < 4294967296

namespace HttpRequest

variable (request : HttpRequest)

def lineStart : List UInt8 :=
  request.method ++ (32 :: (request.target ++ (32 :: (httpVersion ++ [13]))))

def line : List UInt8 := request.lineStart ++ [10]

def afterLine : List UInt8 := linesBytes request.headers ++ (crlf ++ request.body)

def bytes : List UInt8 := request.line ++ request.afterLine

end HttpRequest

namespace RequestScan

theorem setStart_start (scan : RequestScan) (l : Nat) : (scan.setStart l).start.isSome = true := by
  unfold setStart
  split
  · assumption
  next unset =>
    have later : scan.n ≠ 0 := by
      intro first
      apply unset
      simp [start, first]
    split
    next second => simp [start, second]
    next third => simp [start, later, third]

theorem setStart_again (scan : RequestScan) (l later : Nat) :
    (scan.setStart l).setStart later = scan.setStart l :=
  if_pos (scan.setStart_start l)

end RequestScan

def isInner (c : UInt8) : Bool := !isRequestDelimiter c && c != 10

theorem isInner_of_isPartByte {c : UInt8} (part : isPartByte c = true) : isInner c = true := by
  simp only [isPartByte, Bool.and_eq_true] at part
  simp only [isInner, Bool.and_eq_true]
  exact ⟨part.1.1, part.2⟩

variable {text : List UInt8}

theorem all_isInner (part : text.all isPartByte = true) :
    ∀ c ∈ text, isInner c = true := fun c member =>
  isInner_of_isPartByte (all_eq_true.mp part c member)

theorem version_inner : ∀ c ∈ httpVersion ++ [13], isInner c = true := all_eq_true.mp rfl

variable {scan : RequestScan} {l : Nat}

theorem scanRequest_inner {c : UInt8} (inner : isInner c = true)
    (room : (scan.setStart l).tooLong l = false) (prev : UInt8) (rest : List UInt8) :
    scanRequest l prev scan (c :: rest) = scanRequest (l + 1) c (scan.setStart l) rest := by
  simp only [isInner, Bool.and_eq_true, Bool.not_eq_true', bne_iff_ne] at inner
  simp only [scanRequest, inner.1, Bool.false_eq_true, if_false, if_neg inner.2, room]

theorem scanRequest_part (filled : text ≠ []) (inner : ∀ c ∈ text, isInner c = true)
    (room : ∀ i < text.length, (scan.setStart l).tooLong (l + i) = false)
    (prev : UInt8) (rest : List UInt8) :
    scanRequest l prev scan (text ++ rest) =
      scanRequest (l + text.length) (text.getLast filled) (scan.setStart l) rest := by
  induction text generalizing l prev scan with
  | nil => exact absurd rfl filled
  | cons c text induction =>
    have here : (scan.setStart l).tooLong l = false := room 0 (Nat.zero_lt_succ _)
    rw [cons_append, scanRequest_inner (inner c mem_cons_self) here]
    cases text with
    | nil => rfl
    | cons next text =>
      have innerLater : ∀ other ∈ next :: text, isInner other = true :=
        (forall_mem_cons.mp inner).2
      have roomLater : ∀ i < (next :: text).length,
          ((scan.setStart l).setStart (l + 1)).tooLong (l + 1 + i) = false := by
        intro i below
        rw [RequestScan.setStart_again, Nat.add_right_comm]
        exact room (i + 1) (Nat.succ_lt_succ below)
      rw [induction (cons_ne_nil next text) innerLater roomLater,
        RequestScan.setStart_again]
      congr 1
      simp only [length_cons]
      omega

theorem scanRequest_delimiter (early : scan.n < 2) (long : 3 ≤ l)
    (filled : text ≠ []) (inner : ∀ c ∈ text, isInner c = true) (prev : UInt8) (rest : List UInt8) :
    scanRequest l prev scan (32 :: (text ++ rest)) =
      scanRequest (l + 1) 32 { scan.setStop l with n := scan.n + 1, skipping := false }
        (text ++ rest) := by
  cases text with
  | nil => exact absurd rfl filled
  | cons c text =>
    have plain : isRequestDelimiter c = false := by
      have here := inner c mem_cons_self
      simp only [isInner, Bool.and_eq_true, Bool.not_eq_true'] at here
      exact here.1
    have delimiter : isRequestDelimiter 32 = true := rfl
    have allowed : (!scan.skipping && (decide (scan.n ≥ 2) || decide (l < 3))) = false := by
      have few : ¬ scan.n ≥ 2 := Nat.not_le.mpr early
      have far : ¬ l < 3 := Nat.not_lt.mpr long
      simp [few, far]
    rw [cons_append, scanRequest]
    simp only [delimiter, if_true, allowed, Bool.false_eq_true, if_false,
      head?_cons, Option.any_some, plain]

/-- A piece without a line feed of a line that is not refused is waited on:
the scanner looks ahead by one byte only, and not past the end. -/
theorem scanRequest_piece {piece : List UInt8} (incomplete : 10 ∉ piece)
    {later : List UInt8} {prev : UInt8}
    (accepted : scanRequest l prev scan (piece ++ later) ≠ .bad) :
    scanRequest l prev scan piece = .wait := by
  induction piece generalizing l prev scan with
  | nil => rfl
  | cons c piece induction =>
    have notFeed : c ≠ 10 := fun same => incomplete (same ▸ mem_cons_self)
    have tailIncomplete : 10 ∉ piece := fun member => incomplete (mem_cons_of_mem _ member)
    rw [cons_append, scanRequest] at accepted
    rw [scanRequest]
    split at accepted
    next delimiter =>
      rw [if_pos delimiter]
      split at accepted
      · exact absurd rfl accepted
      next allowed =>
        rw [if_neg allowed]
        cases piece with
        | nil => rfl
        | cons next piece =>
          rw [cons_append, head?_cons] at accepted
          rw [head?_cons]
          split at accepted
          next run =>
            rw [if_pos run]
            exact induction tailIncomplete accepted
          next single =>
            rw [if_neg single]
            exact induction tailIncomplete accepted
    next inner =>
      rw [if_neg inner, if_neg notFeed]
      split at accepted
      · exact absurd rfl accepted
      next fits =>
        rw [if_neg fits]
        exact induction tailIncomplete accepted

namespace HttpRequest

variable (request : HttpRequest)

def versionStart : Nat := request.method.length + request.target.length + 2

def beforeVersion : RequestScan :=
  { RequestScan.init with
    n := 2
    start1 := some (request.method.length + 1)
    stop0 := some request.method.length
    stop1 := some (request.method.length + 1 + request.target.length) }

def scanned : RequestScan :=
  { request.beforeVersion with
    start2 := some request.versionStart
    stop2 := some (request.versionStart + 8) }

theorem length_line : request.line.length = request.versionStart + 10 := by
  simp only [line, lineStart, versionStart, length_append, length_cons, length_nil]
  have version : httpVersion.length = 8 := rfl
  omega

theorem length_bytes : request.bytes.length =
    request.line.length + ((linesBytes request.headers).length + (2 + request.body.length)) := by
  simp [bytes, afterLine, crlf]
  omega

theorem lineStart_plain : 10 ∉ request.lineStart := by
  intro member
  have part : ∀ c, isPartByte c = true → c ≠ 10 := by
    intro c passes
    simp only [isPartByte, Bool.and_eq_true, bne_iff_ne] at passes
    exact passes.2
  have version : (10 : UInt8) ∉ httpVersion ++ [13] := by decide
  rcases mem_append.mp member with inMethod | later
  · exact part 10 (all_eq_true.mp request.methodText 10 inMethod) rfl
  · rcases mem_append.mp (mem_of_ne_of_mem (by decide) later) with
      inTarget | atEnd
    · exact part 10 (all_eq_true.mp request.targetText 10 inTarget) rfl
    · exact version (mem_of_ne_of_mem (by decide) atEnd)

theorem method_filled : request.method ≠ [] := by
  intro empty
  have size := request.methodSize.1
  rw [empty] at size
  cases size

theorem scanRequest_method (rest : List UInt8) :
    ∃ prev, scanRequest 0 0 .init (request.method ++ rest) =
      scanRequest request.method.length prev .init rest := by
  have room : ∀ i < request.method.length,
      (RequestScan.init.setStart 0).tooLong (0 + i) = false := by
    intro i below
    have size := request.methodSize.2
    have short : ¬ 0 + i > 16 := by omega
    have first : RequestScan.init.setStart 0 = .init := rfl
    rw [RequestScan.tooLong]
    simp only [short, RequestScan.init, decide_false, Bool.and_false, Bool.or_false]
    rfl
  refine ⟨request.method.getLast request.method_filled, ?_⟩
  rw [scanRequest_part request.method_filled (all_isInner request.methodText) room, Nat.zero_add]
  rfl

theorem scanRequest_target (filled : text ≠ [])
    (inner : ∀ c ∈ text, isInner c = true) (prev : UInt8) (rest : List UInt8) :
    scanRequest request.method.length prev .init
        (32 :: (request.target ++ (32 :: (text ++ rest)))) =
      scanRequest request.versionStart 32 request.beforeVersion (text ++ rest) := by
  have targetInner := all_isInner request.targetText
  have size := request.methodSize.1
  rw [scanRequest_delimiter (by decide) size request.targetFilled targetInner]
  rw [scanRequest_part request.targetFilled targetInner fun _ _ => rfl]
  rw [scanRequest_delimiter (Nat.lt_succ_self 1) (by omega) filled inner]
  have start : request.method.length + 1 + request.target.length + 1 = request.versionStart := by
    unfold versionStart
    omega
  rw [start]
  rfl

variable (tail : List UInt8)

theorem scanRequest_version :
    scanRequest request.versionStart 32 request.beforeVersion
        ((httpVersion ++ [13]) ++ (10 :: tail)) =
      .line request.scanned request.line.length := by
  have room : ∀ i < (httpVersion ++ [13]).length,
      (request.beforeVersion.setStart request.versionStart).tooLong
        (request.versionStart + i) = false := by
    intro i below
    have size : (httpVersion ++ [13]).length = 9 := rfl
    have short : ¬ request.versionStart + i - request.versionStart > 8 := by omega
    change (decide (request.versionStart + i - request.versionStart > 8) || false) = false
    rw [decide_eq_false short]
    rfl
  rw [scanRequest_part (by decide) version_inner room, request.length_line]
  rfl

theorem scanRequest_line :
    scanRequest 0 0 .init (request.line ++ tail) = .line request.scanned request.line.length := by
  have split : request.line ++ tail = request.method ++ (32 :: (request.target ++
        (32 :: ((httpVersion ++ [13]) ++ (10 :: tail))))) := by simp [line, lineStart]
  obtain ⟨prev, first⟩ := request.scanRequest_method
    (32 :: (request.target ++ (32 :: ((httpVersion ++ [13]) ++ (10 :: tail)))))
  rw [split, first, request.scanRequest_target (by decide) version_inner]
  exact request.scanRequest_version tail

theorem finishRequest_line (proto : HttpProto) :
    finishRequest (request.line ++ tail) proto request.scanned = some .http := by
  have version : (request.line ++ tail).drop request.versionStart =
      httpVersion ++ (crlf ++ tail) := by
    have split : request.line ++ tail = (request.method ++ (32 :: (request.target ++ [32]))) ++
          (httpVersion ++ (crlf ++ tail)) := by simp [line, lineStart, crlf]
    have start : request.versionStart =
        (request.method ++ (32 :: (request.target ++ [32]))).length := by
      simp only [versionStart, length_append, length_cons, length_nil]
      omega
    rw [split, start, drop_left]
  have parts : ¬ (request.scanned.start = none ∨ request.scanned.start = request.scanned.stop) := by
    change ¬ (some request.versionStart = none ∨
      some request.versionStart = some (request.versionStart + 8))
    simp
  have long : ¬ request.versionStart + 8 - request.versionStart ≤ 5 := by omega
  have named : startsWith (ascii ['H', 'T', 'T', 'P', '/'])
      (httpVersion ++ (crlf ++ tail)) = true := rfl
  unfold finishRequest
  simp only [if_neg parts]
  change (if request.versionStart + 8 - request.versionStart ≤ 5 then none
    else if startsWith (ascii ['H', 'T', 'T', 'P', '/'])
        ((request.line ++ tail).drop request.versionStart) then
      some HttpProto.http
    else _) = _
  rw [if_neg long, version, if_pos named]

theorem httpParseRequest_line (shared : HttpShared) (tail : List UInt8) :
    (httpParseRequest shared (request.line ++ tail)).2 = .line request.line.length ∧
      (httpParseRequest shared (request.line ++ tail)).1.proto = .http := by
  unfold httpParseRequest
  rw [request.scanRequest_line tail]
  simp only [request.finishRequest_line]
  exact ⟨trivial, trivial⟩

theorem httpParseRequest_piece (shared : HttpShared)
    {piece later : List UInt8} (incomplete : 10 ∉ piece) (cut : piece ++ later = request.line) :
    (httpParseRequest shared piece).2 = .wait ∧
      (httpParseRequest shared piece).1.proto = shared.proto := by
  have whole := request.scanRequest_line []
  rw [append_nil, ← cut] at whole
  have waits : scanRequest 0 0 .init piece = .wait :=
    scanRequest_piece incomplete (by rw [whole]; simp)
  unfold httpParseRequest
  rw [waits]
  exact ⟨rfl, rfl⟩

end HttpRequest

end NeuVector.DataPath
