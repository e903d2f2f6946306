import NeuVector.Library.Loop

/-!
# HTTP header lines

This module embeds the header part of `dpi_http.c` with the line and token
readers of `helper.c`.  Each header line is dispatched to its handler as it is
met, and the handlers for the content length, the transfer encoding and the
connection set and clear the flags that frame the body.  The handlers for the
content type, the forwarding headers and the server name touch nothing that
the framing reads and are represented as lines without effect.
-/

namespace NeuVector.DataPath

open Library List

def ascii (text : List Char) : List UInt8 := text.map Char.toUInt8

def isDigit (c : UInt8) : Bool := 48 ≤ c && c ≤ 57

def toLower (c : UInt8) : UInt8 := if 65 ≤ c && c ≤ 90 then c + 32 else c

def startsWith (name bytes : List UInt8) : Bool := bytes.take name.length == name

def startsNoCase (name bytes : List UInt8) : Bool :=
  (bytes.take name.length).map toLower == name.map toLower

/-- The length of the first line and the number of its trailing end of line
characters; `shift` and `eols` count what has been passed. -/
def consumeLineFrom (shift eols : Nat) : List UInt8 → Option (Nat × Nat)
  | [] => none
  | c :: rest =>
    if c = 13 then consumeLineFrom (shift + 1) (eols + 1) rest
    else if c = 10 then some (shift + 1, eols + 1)
    else consumeLineFrom (shift + 1) 0 rest

def consumeLine (bytes : List UInt8) : Option (Nat × Nat) := consumeLineFrom 0 0 bytes

/-- Feed the tokens between spaces to a function until it asks to skip the
rest of the line. -/
def consumeTokensFrom {σ : Type} (func : σ → List UInt8 → Nat → σ × Bool)
    (token : List UInt8) (idx : Nat) : List UInt8 → σ → σ
  | [], state => if token = [] then state else (func state token idx).1
  | c :: rest, state =>
    if c = 32 then
      if token = [] then consumeTokensFrom func [] idx rest state
      else if (func state token idx).2 then (func state token idx).1
      else consumeTokensFrom func [] (idx + 1) rest (func state token idx).1
    else consumeTokensFrom func (token ++ [c]) idx rest state

def consumeTokens {σ : Type} (func : σ → List UInt8 → Nat → σ × Bool)
    (bytes : List UInt8) (state : σ) : σ :=
  consumeTokensFrom func [] 0 bytes state

inductive HttpSection where
  | none
  | reqResp
  | header
  | firstBody
  | body
  deriving DecidableEq

inductive HttpChunk where
  | length
  | content
  | last
  deriving DecidableEq

/-- One side of a connection.  Sequence numbers are positions in the stream of
that side. -/
structure HttpWing where
  seq : Nat
  contentLen : UInt32
  hasContentLen : Bool
  chunked : Bool
  connClose : Bool
  request : Bool
  negativeLen : Bool
  sect : HttpSection
  chunk : HttpChunk
  cmdStart : Nat
  bodyStart : Nat
  hdrStart : Nat
  deriving DecidableEq

inductive HttpThreatId where
  | negLen
  | smuggling
  deriving DecidableEq

structure HttpThreat where
  id : HttpThreatId
  msg : String
  deriving DecidableEq

variable (w : HttpWing)

def setBodyDone : HttpWing :=
  { w with
    hasContentLen := false, connClose := false, chunked := false
    negativeLen := false, contentLen := 0 }

def setBodyConnClose : HttpWing :=
  { w with connClose := true, hasContentLen := false, chunked := false, contentLen := 0 }

def setBodyChunked : HttpWing :=
  { w with chunked := true, hasContentLen := false, connClose := false, contentLen := 0 }

def setBodyContentLength : HttpWing :=
  { w with hasContentLen := true, connClose := false, chunked := false }

def decimal (digits : List UInt8) : UInt32 :=
  digits.foldl (fun clen c => if isDigit c then clen * 10 + (c - 48).toUInt32 else clen) 0

def httpHeaderContentLengthToken (token : List UInt8) (_idx : Nat) : HttpWing × Bool :=
  if token.head? = some 45 then ({ w with negativeLen := true }, true)
  else if token.head? = some 43 then ({ w with contentLen := decimal token.tail }, true)
  else ({ w with contentLen := decimal token }, true)

variable (value : List UInt8)

def httpHeaderContentLength : HttpWing × List HttpThreat :=
  let read := consumeTokens httpHeaderContentLengthToken value w
  if read.negativeLen then
    (setBodyConnClose read, [{ id := .negLen, msg := "Content-Length header has negative value" }])
  else if read.hasContentLen && w.contentLen ≠ read.contentLen then
    (setBodyConnClose read,
      [{ id := .smuggling, msg := "Two Content-Length headers with different values" }])
  else (setBodyContentLength read, [])

def httpHeaderConnectionToken (token : List UInt8) (_idx : Nat) : HttpWing × Bool :=
  if startsNoCase (ascii ['c', 'l', 'o', 's', 'e']) token then
    if w.chunked || (w.hasContentLen && w.contentLen > 0) then (w, true)
    else (setBodyConnClose w, true)
  else (w, false)

def httpHeaderConnection : HttpWing := consumeTokens httpHeaderConnectionToken value w

def httpHeaderXfrEncodingToken (token : List UInt8) (_idx : Nat) : HttpWing × Bool :=
  if token.length = 7 ∧ startsNoCase (ascii ['c', 'h', 'u', 'n', 'k', 'e', 'd']) token then
    ({ w with chunked := true }, true)
  else (w, false)

def httpHeaderXfrEncoding : HttpWing :=
  let read := consumeTokens httpHeaderXfrEncodingToken value w
  if read.chunked then setBodyChunked read else read

def contentLengthName : List UInt8 :=
  ascii ['C', 'o', 'n', 't', 'e', 'n', 't', '-', 'L', 'e', 'n', 'g', 't', 'h', ':']

def connectionName : List UInt8 := ascii ['C', 'o', 'n', 'n', 'e', 'c', 't', 'i', 'o', 'n', ':']

def transferEncodingName : List UInt8 :=
  ascii ['T', 'r', 'a', 'n', 's', 'f', 'e', 'r', '-', 'E', 'n', 'c', 'o', 'd', 'i', 'n', 'g', ':']

/-- Dispatch a line without its end of line characters.  A line has at least
one of these, so the length tests of the source hold when a name matches. -/
def httpHeaderLine (line : List UInt8) : HttpWing × List HttpThreat :=
  if startsNoCase contentLengthName line then httpHeaderContentLength w (line.drop 15)
  else if startsNoCase connectionName line then (httpHeaderConnection w (line.drop 11), [])
  else if startsNoCase transferEncodingName line then (httpHeaderXfrEncoding w (line.drop 18), [])
  else (w, [])

structure HeaderScan where
  wing : HttpWing
  rest : List UInt8
  consume : Nat
  threats : List HttpThreat
  done : Bool
  deriving DecidableEq

def headerStep (scan : HeaderScan) : Step HeaderScan :=
  match consumeLine scan.rest with
  | none => .stop scan
  | some (shift, eols) =>
    if shift = eols then
      .stop { scan with
        rest := scan.rest.drop shift
        consume := scan.consume + shift, done := true }
    else
      let (wing, threats) := httpHeaderLine scan.wing (scan.rest.take (shift - eols))
      .next
        { scan with
          wing := wing
          rest := scan.rest.drop shift
          consume := scan.consume + shift
          threats := scan.threats ++ threats }

def httpParseHeader (bytes : List UInt8) : HeaderScan :=
  Loop.run headerStep (fun scan => scan.rest.length)
    { wing := w, rest := bytes, consume := 0, threats := [], done := false }

/-- The text of a line: something other than end of line characters. -/
structure LineText where
  text : List UInt8
  filled : text ≠ []
  plain : ∀ c ∈ text, c ≠ 13 ∧ c ≠ 10
  deriving DecidableEq

def crlf : List UInt8 := [13, 10]

def LineText.bytes (line : LineText) : List UInt8 := line.text ++ crlf

/-- A line from a text that passes the checks of the two invariants. -/
def LineText.ofText (text : List UInt8)
    (checked : (!text.isEmpty && text.all fun c => c != 13 && c != 10) = true) :
    LineText where
  text := text
  filled := by
    intro empty
    rw [empty] at checked
    cases checked
  plain := by
    intro c member
    rw [Bool.and_eq_true] at checked
    have passed := List.all_eq_true.mp checked.2 c member
    simpa using passed

theorem consumeLineFrom_plain {text : List UInt8}
    (plain : ∀ c ∈ text, c ≠ 13 ∧ c ≠ 10) (shift eols : Nat)
    (filled : text ≠ []) (rest : List UInt8) :
    consumeLineFrom shift eols (text ++ rest) = consumeLineFrom (shift + text.length) 0 rest := by
  induction text generalizing shift eols with
  | nil => exact absurd rfl filled
  | cons c text induction =>
    obtain ⟨notReturn, notFeed⟩ := plain c mem_cons_self
    rw [cons_append]
    simp only [consumeLineFrom, if_neg notReturn, if_neg notFeed]
    cases text with
    | nil => rfl
    | cons next text =>
      have tail := induction (List.forall_mem_cons.mp plain).2
        (shift + 1) 0 (by simp)
      rw [tail]
      congr 1
      simp only [length_cons]
      omega

theorem consumeLine_line (line : LineText) (rest : List UInt8) :
    consumeLine (line.bytes ++ rest) = some (line.text.length + 2, 2) := by
  unfold consumeLine LineText.bytes
  rw [append_assoc, consumeLineFrom_plain line.plain 0 0 line.filled, Nat.zero_add]
  rfl

variable {bytes : List UInt8}

theorem consumeLineFrom_incomplete (incomplete : 10 ∉ bytes)
    (shift eols : Nat) : consumeLineFrom shift eols bytes = none := by
  induction bytes generalizing shift eols with
  | nil => rfl
  | cons c rest induction =>
    have notFeed : c ≠ 10 := fun same => incomplete (same ▸ mem_cons_self)
    have later : 10 ∉ rest := fun member => incomplete (mem_cons_of_mem _ member)
    simp only [consumeLineFrom, if_neg notFeed]
    split
    · exact induction later _ _
    · exact induction later _ _

theorem consumeLineFrom_bounds {shift eols : Nat} {result : Nat × Nat}
    (found : consumeLineFrom shift eols bytes = some result) :
    shift < result.1 ∧ result.1 ≤ shift + bytes.length := by
  induction bytes generalizing shift eols with
  | nil => simp [consumeLineFrom] at found
  | cons c rest induction =>
    simp only [consumeLineFrom] at found
    rw [length_cons]
    split at found
    · have later := induction found
      omega
    · split at found
      · cases found
        simp
      · have later := induction found
        omega

theorem consumeLine_bounds {result : Nat × Nat} (found : consumeLine bytes = some result) :
    0 < result.1 ∧ result.1 ≤ bytes.length := by
  have bounds := consumeLineFrom_bounds found
  omega

theorem headerStep_decreasing : Loop.Decreasing headerStep fun scan => scan.rest.length := by
  intro scan next body
  unfold headerStep at body
  split at body
  · cases body
  next found =>
    split at body
    · cases body
    · cases body
      have bounds := consumeLine_bounds found
      simp only [length_drop]
      omega

def headerLines (w : HttpWing) : List LineText → HttpWing × List HttpThreat
  | [] => (w, [])
  | line :: rest =>
    let here := httpHeaderLine w line.text
    let later := headerLines here.1 rest
    (later.1, here.2 ++ later.2)

variable (lines : List LineText)

def linesBytes : List UInt8 := lines.flatMap LineText.bytes

variable {scan : HeaderScan} {tail : List UInt8}

theorem headerStep_line {line : LineText} (rest : scan.rest = line.bytes ++ tail) :
    headerStep scan = .next
        { scan with
          wing := (httpHeaderLine scan.wing line.text).1
          rest := tail
          consume := scan.consume + line.bytes.length
          threats := scan.threats ++ (httpHeaderLine scan.wing line.text).2 } := by
  have length : line.bytes.length = line.text.length + 2 := by simp [LineText.bytes, crlf]
  have some : ¬ line.text.length + 2 = 2 := by
    have positive := length_pos_iff.mpr line.filled
    omega
  have text : (line.bytes ++ tail).take (line.text.length + 2 - 2) = line.text := by
    unfold LineText.bytes
    rw [append_assoc, Nat.add_sub_cancel, take_left]
  have dropped : (line.bytes ++ tail).drop (line.text.length + 2) = tail := by
    rw [← length, drop_left]
  unfold headerStep
  rw [rest, consumeLine_line]
  simp only [if_neg some, text, dropped, length]

theorem headerStep_end (rest : scan.rest = crlf ++ tail) :
    headerStep scan = .stop
        { scan with
          rest := tail, consume := scan.consume + 2, done := true } := by
  unfold headerStep
  rw [rest]
  rfl

theorem headerStep_incomplete (incomplete : 10 ∉ scan.rest) : headerStep scan = .stop scan := by
  unfold headerStep
  rw [consumeLine, consumeLineFrom_incomplete incomplete]

theorem headerLoop_lines (rest : scan.rest = linesBytes lines ++ tail) :
    Loop.run headerStep (fun scan => scan.rest.length) scan =
      Loop.run headerStep (fun scan => scan.rest.length)
        { scan with
          wing := (headerLines scan.wing lines).1
          rest := tail
          consume := scan.consume + (linesBytes lines).length
          threats := scan.threats ++ (headerLines scan.wing lines).2 } := by
  induction lines generalizing scan with
  | nil =>
    have same : scan.rest = tail := rest
    subst same
    simp [linesBytes, headerLines]
  | cons line lines induction =>
    have first : scan.rest = line.bytes ++ (linesBytes lines ++ tail) := by
      rw [rest]
      simp [linesBytes]
    rw [Loop.run_next headerStep_decreasing (headerStep_line first), induction rfl]
    simp [headerLines, linesBytes, Nat.add_assoc]

theorem httpParseHeader_block (tail : List UInt8) :
    httpParseHeader w (linesBytes lines ++ (crlf ++ tail)) =
      { wing := (headerLines w lines).1
        rest := tail
        consume := (linesBytes lines).length + 2
        threats := (headerLines w lines).2
        done := true } := by
  unfold httpParseHeader
  rw [headerLoop_lines lines rfl, Loop.run_stop (headerStep_end rfl)]
  simp

theorem httpParseHeader_incomplete (incomplete : 10 ∉ tail) :
    httpParseHeader w (linesBytes lines ++ tail) =
      { wing := (headerLines w lines).1
        rest := tail
        consume := (linesBytes lines).length
        threats := (headerLines w lines).2
        done := false } := by
  unfold httpParseHeader
  rw [headerLoop_lines lines rfl, Loop.run_stop (headerStep_incomplete incomplete)]
  simp

end NeuVector.DataPath
