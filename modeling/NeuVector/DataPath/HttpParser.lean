import NeuVector.DataPath.HttpHeader

/-!
# The HTTP parser

This module embeds `http_parser` with the request line, status line and body
readers of `dpi_http.c`.  A packet is parsed by a loop over the sections of a
message.  Timers, body buffering and the classification of applications are
left out; `marks` records where request lines and bodies were found to end.
-/

namespace NeuVector.DataPath

open Library

inductive HttpMethod where
  | none
  | get
  | post
  | put
  | delete
  | head
  deriving DecidableEq

inductive HttpProto where
  | none
  | http
  | sip
  | rtsp
  deriving DecidableEq

structure HttpShared where
  status : Nat
  method : HttpMethod
  proto : HttpProto
  deriving DecidableEq

structure HttpData where
  client : HttpWing
  server : HttpWing
  shared : HttpShared
  deriving DecidableEq

/-- The result of a line reader: no such line, not complete yet, or a line of
a given length. -/
inductive LineResult where
  | bad
  | wait
  | line (shift : Nat)
  deriving DecidableEq

structure HttpMethodEntry where
  name : List UInt8
  proto : HttpProto
  method : HttpMethod

def httpMethods : List HttpMethodEntry :=
  [⟨ascii ['G', 'E', 'T'], .http, .get⟩, ⟨ascii ['P', 'U', 'T'], .http, .put⟩,
    ⟨ascii ['P', 'O', 'S', 'T'], .http, .post⟩,
    ⟨ascii ['D', 'E', 'L', 'E', 'T', 'E'], .http, .delete⟩,
    ⟨ascii ['H', 'E', 'A', 'D'], .http, .head⟩,
    ⟨ascii ['C', 'O', 'N', 'N', 'E', 'C', 'T'], .http, .none⟩]

variable (c : UInt8)

def isRequestDelimiter : Bool := c == 32 || c == 9

variable (bytes : List UInt8)

def findMethod : Option HttpMethodEntry :=
  httpMethods.find? fun m =>
    bytes.length > m.name.length + 1 && (bytes[m.name.length]?).any isRequestDelimiter &&
      startsNoCase m.name bytes

/-- The parts of a request line found so far, as offsets; the first part
starts at zero.  `skipping` holds inside a run of delimiters. -/
structure RequestScan where
  n : Nat
  start1 : Option Nat
  start2 : Option Nat
  stop0 : Option Nat
  stop1 : Option Nat
  stop2 : Option Nat
  skipping : Bool
  deriving DecidableEq

variable (scan : RequestScan)

namespace RequestScan

def init : RequestScan :=
  { n := 0, start1 := none, start2 := none, stop0 := none, stop1 := none
    stop2 := none, skipping := false }

def start : Option Nat :=
  if scan.n = 0 then some 0
  else if scan.n = 1 then scan.start1 else scan.start2

def stop : Option Nat :=
  if scan.n = 0 then scan.stop0
  else if scan.n = 1 then scan.stop1 else scan.stop2

variable (l : Nat)

def setStart : RequestScan :=
  if scan.start.isSome then scan
  else if scan.n = 1 then { scan with start1 := some l }
  else { scan with start2 := some l }

def setStop : RequestScan :=
  if scan.stop.isSome then scan
  else if scan.n = 0 then { scan with stop0 := some l }
  else if scan.n = 1 then { scan with stop1 := some l }
  else { scan with stop2 := some l }

/-- The offset inside the current part is beyond its limit. -/
def tooLong : Bool := (scan.n == 2 && l - scan.start.getD l > 8) || (scan.n == 0 && l > 16)

end RequestScan

inductive RequestScanResult where
  | bad
  | wait
  | line (scan : RequestScan) (eol : Nat)
  deriving DecidableEq

/-- The loop over the bytes of a request line; `l` is the offset and `prev`
the byte before it. -/
def scanRequest (l : Nat) (prev : UInt8) (scan : RequestScan) : List UInt8 → RequestScanResult
  | [] => .wait
  | c :: rest =>
    if isRequestDelimiter c then
      if !scan.skipping && (scan.n ≥ 2 || l < 3) then .bad
      else if rest.head?.any isRequestDelimiter then
        scanRequest (l + 1) c { scan with skipping := true } rest
      else scanRequest (l + 1) c { scan.setStop l with n := scan.n + 1, skipping := false } rest
    else if c = 10 then .line (scan.setStop (if prev = 13 then l - 1 else l)) (l + 1)
    else if (scan.setStart l).tooLong l then .bad
    else scanRequest (l + 1) c (scan.setStart l) rest

/-- The checks made once a whole line has been read. -/
def finishRequest (proto : HttpProto) (scan : RequestScan) : Option HttpProto :=
  let n :=
    if scan.start = none ∨ scan.start = scan.stop then scan.n - 1 else scan.n
  if n = 0 then none
  else if n = 1 then if proto = .none then none else some proto
  else
    let start := scan.start2.getD 0
    if scan.stop2.getD 0 - start ≤ 5 then none
    else
      let version := bytes.drop start
      if startsWith (ascii ['H', 'T', 'T', 'P', '/']) version then some .http
      else if startsWith (ascii ['R', 'T', 'S', 'P', '/']) version then some .rtsp
      else if startsWith (ascii ['S', 'I', 'P', '/']) version then some .sip
      else if proto = .none then none
      else some proto

variable (shared : HttpShared)

/-- A method found in the table is stored even when the line is not accepted
in the end. -/
def httpParseRequest (bytes : List UInt8) : HttpShared × LineResult :=
  let entry := findMethod bytes
  let shared := { shared with method := (entry.map (·.method)).getD shared.method }
  match scanRequest 0 0 .init bytes with
  | .bad => (shared, .bad)
  | .wait => (shared, .wait)
  | .line scan eol =>
    match finishRequest bytes ((entry.map (·.proto)).getD .none) scan with
    | none => (shared, .bad)
    | some proto => ({ shared with proto := proto }, .line eol)

def isPrint : Bool := 32 ≤ c && c ≤ 126
def isBlank : Bool := c == 32 || c == 9

def isAlpha : Bool := (65 ≤ c && c ≤ 90) || (97 ≤ c && c ≤ 122)

structure ResponseScan where
  versionEnd : Nat
  statusStart : Option Nat
  status : Nat
  deriving DecidableEq

def scanResponse (l : Nat) (scan : ResponseScan) : List UInt8 → Nat × LineResult
  | [] => (0, .wait)
  | c :: rest =>
    if !isPrint c then (0, .bad)
    else if isBlank c then
      if scan.statusStart.isSome then
        match consumeLine (c :: rest) with
        | some (shift, _) => (scan.status, .line (l + shift))
        | none => (0, .wait)
      else scanResponse (l + 1) { scan with versionEnd := l } rest
    else if scan.versionEnd > 0 then
      if !isDigit c then (0, .bad)
      else if l - scan.statusStart.getD l ≥ 3 then (0, .bad)
      else
        scanResponse (l + 1)
          { scan with
            statusStart := some (scan.statusStart.getD l)
            status := scan.status * 10 + (c.toNat - 48) } rest
    else scanResponse (l + 1) scan rest

def httpParseResponse (bytes : List UInt8) : HttpShared × LineResult :=
  if bytes.length < 4 then (shared, .wait)
  else if startsWith (ascii ['H', 'T', 'T', 'P']) bytes ||
      startsWith (ascii ['R', 'T', 'S', 'P']) bytes ||
      startsWith (ascii ['S', 'I', 'P']) bytes then
    match scanResponse 0 { versionEnd := 0, statusStart := none, status := 0 }
        bytes with
    | (status, .line shift) => ({ shared with status := status }, .line shift)
    | (_, result) => (shared, result)
  else (shared, .bad)

def c2hex : Option UInt32 :=
  if 48 ≤ c && c ≤ 57 then some (c - 48).toUInt32
  else if 65 ≤ c && c ≤ 70 then some (c - 55).toUInt32
  else if 97 ≤ c && c ≤ 102 then some (c - 87).toUInt32
  else none

def hexValue (value : UInt32) : List UInt8 → UInt32
  | [] => value
  | c :: rest =>
    match c2hex c with
    | none => value
    | some digit => hexValue ((value <<< 4) + digit) rest

structure BodyScan where
  wing : HttpWing
  rest : List UInt8
  consume : Nat
  threats : List HttpThreat
  done : Bool
  deriving DecidableEq

def BodyScan.skip (scan : BodyScan) (shift : Nat) : BodyScan :=
  { scan with rest := scan.rest.drop shift, consume := scan.consume + shift }

def chunkLength (scan : BodyScan) (shift : Nat) : BodyScan :=
  let contentLen := hexValue 0 (scan.rest.take shift)
  let threats :=
    if contentLen &&& 0x80000000 ≠ 0 then
      [{ id := .negLen, msg := "Content-length header has negative value" }]
    else ([] : List HttpThreat)
  { scan.skip shift with
    wing :=
      { scan.wing with
        contentLen := contentLen
        chunk := if contentLen = 0 then .last else .content }
    threats := scan.threats ++ threats }

def chunkStep (scan : BodyScan) : Step BodyScan :=
  if scan.rest = [] then .stop scan
  else
    match scan.wing.chunk with
    | .length =>
      match consumeLine scan.rest with
      | none => .stop scan
      | some (shift, _) => .next (chunkLength scan shift)
    | .content =>
      if scan.wing.contentLen > 0 then
        if scan.rest.length < scan.wing.contentLen.toNat then
          .stop
            { scan.skip scan.rest.length with
              wing :=
                { scan.wing with
                  contentLen := scan.wing.contentLen - UInt32.ofNat scan.rest.length } }
        else
          .next
            { scan.skip scan.wing.contentLen.toNat with wing := { scan.wing with contentLen := 0 } }
      else
        match consumeLine scan.rest with
        | none => .stop scan
        | some (shift, _) =>
          .next
            { scan.skip shift with wing := { scan.wing with chunk := .length } }
    | .last =>
      match consumeLine scan.rest with
      | none => .stop scan
      | some (shift, _) =>
        .stop
          { scan.skip shift with wing := { scan.wing with chunk := .length }, done := true }

variable (w : HttpWing)

def httpBodyChunk (bytes : List UInt8) : BodyScan :=
  Loop.run chunkStep (fun scan => scan.rest.length)
    { wing := w, rest := bytes, consume := 0, threats := [], done := false }

def httpParseBody (bytes : List UInt8) : BodyScan :=
  let scan : BodyScan := { wing := w, rest := bytes, consume := 0, threats := [], done := false }
  if w.connClose then scan.skip bytes.length
  else if w.chunked then httpBodyChunk w bytes
  else if bytes.length < w.contentLen.toNat then
    { scan.skip bytes.length with
      wing := { w with contentLen := w.contentLen - UInt32.ofNat bytes.length } }
  else { scan.skip w.contentLen.toNat with done := true }

structure HttpPacket where
  client : Bool
  seq : Nat
  data : List UInt8
  /-- The byte in memory before the payload. -/
  before : UInt8
  /-- The value of `parser_asm_seq` when the parser is called. -/
  asmSeq : Nat
  deriving DecidableEq

/-- Where a request line was read, and where a body was found to end. -/
inductive HttpMark where
  | requestLine (cmdStart hdrStart : Nat)
  | bodyDone (seq : Nat)
  deriving DecidableEq

structure HttpLoop where
  wing : HttpWing
  shared : HttpShared
  rest : List UInt8
  seq : Nat
  asmSeq : Nat
  threats : List HttpThreat
  marks : List HttpMark
  fired : Bool
  deriving DecidableEq

variable (p : HttpPacket)

def HttpPacket.byteBefore (seq : Nat) : UInt8 :=
  if seq ≤ p.seq then p.before else p.data.getD (seq - p.seq - 1) 0

variable (state : HttpLoop)

/-- The client or server flag and the start positions of a new message. -/
def startMessage : HttpWing :=
  if p.client then
    { state.wing with request := true, cmdStart := state.seq, hdrStart := 0, bodyStart := 0 }
  else
    { state.wing with request := false, cmdStart := 0, hdrStart := 0, bodyStart := state.seq }

def passLine (shift : Nat) : HttpLoop :=
  let seq := state.seq + shift
  { state with
    rest := state.rest.drop shift
    seq := seq
    asmSeq := seq
    wing := { state.wing with seq := seq, hdrStart := seq, sect := .header }
    marks :=
      if state.wing.request then state.marks ++ [.requestLine state.wing.cmdStart seq]
      else state.marks }

/-- A first line of a server that is no status line: the code takes the rest
as body, steps back by one byte, and yet goes on with the header. -/
def stepBack : HttpLoop :=
  let seq := state.seq - 1
  { state with
    rest := p.byteBefore state.seq :: state.rest
    seq := seq
    asmSeq := seq
    wing := { setBodyConnClose state.wing with seq := seq, sect := .header } }

def firstLineStep : Step HttpLoop :=
  let state := { state with wing := startMessage p state }
  if state.shared.proto = .rtsp ∧ state.rest.length ≤ 5 then .stop state
  else
    let state :=
      if state.shared.proto = .rtsp then
        { state with
          wing :=
            { state.wing with
              request := startsWith (ascii ['R', 'T', 'S', 'P', '/']) state.rest } }
      else state
    if state.wing.request then
      let (shared, result) := httpParseRequest state.shared state.rest
      let state := { state with shared := shared }
      match result with
      | .bad => .stop { state with fired := true }
      | .wait => .stop state
      | .line shift => .next (passLine state shift)
    else
      let (shared, result) := httpParseResponse state.shared state.rest
      let state := { state with shared := shared }
      match result with
      | .bad => .next (stepBack p state)
      | .wait => .stop state
      | .line shift => .next (passLine state shift)

def bodyStep : Step HttpLoop :=
  let scan := httpParseBody state.wing state.rest
  let state := { state with wing := scan.wing, threats := state.threats ++ scan.threats }
  if scan.consume = 0 then .stop { state with wing := { state.wing with sect := .body } }
  else
    let seq := state.seq + scan.consume
    let state :=
      { state with
        rest := state.rest.drop scan.consume
        seq := seq
        asmSeq := seq
        wing := { state.wing with seq := seq } }
    if scan.done then
      .next
        { state with
          wing := { setBodyDone state.wing with sect := .none }
          marks := state.marks ++ [.bodyDone seq] }
    else .next { state with wing := { state.wing with sect := .body } }

/-- Without a length and without chunks, the rest is taken as body unless the
kind of message is known to have none. -/
def closeUnlessFramed : HttpWing :=
  if w.hasContentLen || w.chunked then w
  else if w.request then
    if shared.method = .get then w else setBodyConnClose w
  else if shared.method = .head ∨ shared.status = 204 ∨
      (shared.status / 100 ≠ 2 ∧ shared.status < 500) then w
  else setBodyConnClose w

def headerSectionStep : Step HttpLoop :=
  let scan := httpParseHeader state.wing state.rest
  let seq := state.seq + scan.consume
  let state :=
    { state with
      rest := scan.rest
      seq := seq
      asmSeq := seq
      wing := { scan.wing with seq := seq }
      threats := state.threats ++ scan.threats }
  if scan.done then
    bodyStep
      { state with
        wing := closeUnlessFramed state.shared
          { state.wing with bodyStart := seq, sect := .firstBody } }
  else .stop state

def httpStep : Step HttpLoop :=
  match state.rest with
  | [] => .stop state
  | c :: _ =>
    match state.wing.sect with
    | .none =>
      if isAlpha c then .next { state with wing := { state.wing with sect := .reqResp } }
      else if p.client then .stop { state with fired := true }
      else
        .next
          { state with wing := { setBodyConnClose state.wing with sect := .body } }
    | .reqResp => firstLineStep p state
    | .header => headerSectionStep state
    | .firstBody => bodyStep state
    | .body => bodyStep state

/-- Bytes left, weighted so that a step back by one byte counts as well. -/
def HttpLoop.measure : Nat :=
  3 * state.rest.length +
    match state.wing.sect with
    | .header => 0
    | .firstBody => 3
    | .body => 3
    | .reqResp => 4
    | .none => 5

structure HttpResult where
  data : Option HttpData
  asmSeq : Nat
  threats : List HttpThreat
  marks : List HttpMark
  fired : Bool
  deriving DecidableEq

def newWing (seq : Nat) : HttpWing :=
  { seq := seq, contentLen := 0, hasContentLen := false, chunked := false
    connClose := false, request := false, negativeLen := false, sect := .none
    chunk := .length, cmdStart := 0, bodyStart := 0, hdrStart := 0 }

def newHttpData (clientInit serverInit : Nat) : HttpData :=
  { client := newWing clientInit, server := newWing serverInit
    shared := { status := 0, method := .none, proto := .none } }

/-- Parse one packet of a connection; without stored data a packet of the
server ends the parser. -/
def httpParser (clientInit serverInit : Nat) (stored : Option HttpData)
    (p : HttpPacket) : HttpResult :=
  let refused : HttpResult :=
    { data := stored, asmSeq := p.asmSeq, threats := [], marks := [], fired := true }
  if stored.isNone && !p.client then refused
  else
    let data := stored.getD (newHttpData clientInit serverInit)
    let w := if p.client then data.client else data.server
    let init := if p.client then clientInit else serverInit
    let shift := if w.seq = init then 0 else w.seq - p.seq
    if w.seq ≠ init ∧ ¬ (p.seq ≤ w.seq ∧ w.seq < p.seq + p.data.length) then
      { refused with data := some data }
    else
      let state := Loop.run (httpStep p) HttpLoop.measure
        { wing := w, shared := data.shared, rest := p.data.drop shift
          seq := p.seq + shift, asmSeq := p.asmSeq, threats := [], marks := []
          fired := false }
      { data := some
          (if p.client then { data with client := state.wing, shared := state.shared }
          else { data with server := state.wing, shared := state.shared })
        asmSeq := state.asmSeq
        threats := state.threats
        marks := state.marks
        fired := state.fired }

end NeuVector.DataPath
