import NeuVector.DataPath.HttpProgress
import NeuVector.DataPath.HttpStages

/-!
# Requests on one connection

The client side is fed with the segments of a stream; what a packet leaves
unread is put before the next segment.  As long as every request has a body,
the parser finds every request line and every end of a body where it is, for
all ways of cutting the stream.  A request without a body leaves the parser in
the body section.
-/

namespace NeuVector.DataPath

open Library List

variable {stage : Stage}

section Packet

variable {init : Nat} {p : HttpPacket} {future : List UInt8}
variable {total : List HttpMark} {state : HttpLoop}

theorem HttpRequest.bytes_head (request : HttpRequest) (tail : List UInt8)
    {c : UInt8} {rest : List UInt8}
    (first : c :: rest = request.bytes ++ tail) : isAlpha c = true := by
  have letter := request.methodLetter
  cases method : request.method with
  | nil => exact absurd method request.method_filled
  | cons head others =>
    rw [method, head?_cons] at letter
    have same : c = head := by
      simp only [HttpRequest.bytes, HttpRequest.line, HttpRequest.lineStart,
        method, cons_append] at first
      exact (cons.inj first).1
    rw [same]
    exact letter

theorem httpStep_proceeds (client : p.client = true)
    (tracks : Tracks init p future total stage state) :
    Proceeds init p future total (httpStep p state) := by
  unfold httpStep
  split
  next empty =>
    refine ⟨stage, tracks, ?_⟩
    rw [empty]
    cases stage with
    | start later => rfl
    | line request later | header request before after later => exact not_mem_nil
    | body left later => rfl
  next c tail arrived =>
    cases stage with
    | start later =>
      obtain ⟨place, filled, text, marks, placed⟩ := tracks
      cases place with
      | start unframed sect =>
        rw [sect]
        cases later with
        | nil =>
          rw [arrived] at text
          cases text
        | cons request later =>
          have stream : state.rest ++ future = request.bytes ++ streamBytes later := text
          rw [arrived] at stream
          have letter := request.bytes_head _ stream
          simp only [letter, if_true]
          refine ⟨.line request later, ⟨?_, filled, text, marks, ?_⟩⟩
          · exact .line (unframed.transfer rfl rfl rfl rfl rfl) rfl
          · exact ⟨placed.alive, placed.proto, placed.asmSeq,
              placed.within, placed.rest, placed.wingSeq⟩
    | line request later =>
      have sect : state.wing.sect = .reqResp := by
        cases tracks.place
        assumption
      rw [sect]
      exact firstLineStep_proceeds client tracks
    | header request before after later =>
      have sect : state.wing.sect = .header := by
        cases tracks.place
        assumption
      rw [sect]
      exact headerSectionStep_proceeds tracks
    | body left later =>
      obtain ⟨place, filled, text, marks, placed⟩ := tracks
      cases place with
      | body shows bodyFilled small sect =>
        rw [sect]
        exact bodyStep_proceeds shows bodyFilled small filled text marks placed

theorem httpLoop_proceeds (client : p.client = true)
    (tracks : Tracks init p future total stage state) :
    ∃ reached, Tracks init p future total reached (Loop.run (httpStep p) HttpLoop.measure state) ∧
        reached.Unread (Loop.run (httpStep p) HttpLoop.measure state).rest :=
  Loop.run_meets (fun state => ∃ stage, Tracks init p future total stage state)
    (fun state => ∃ stage, Tracks init p future total stage state ∧ stage.Unread state.rest)
    (httpStep_decreasing p)
    (fun _ ⟨_, before⟩ => httpStep_proceeds client before) ⟨stage, tracks⟩

end Packet

/-- Bytes that arrive together, with the byte in memory before them. -/
structure HttpSegment where
  bytes : List UInt8
  before : UInt8
  filled : bytes ≠ []

/-- The client side of a connection with the bytes it has not consumed. -/
structure HttpClient where
  data : Option HttpData
  pending : List UInt8
  seq : Nat
  marks : List HttpMark
  fired : Bool
  deriving DecidableEq

namespace HttpClient

variable (clientInit : Nat)

def init : HttpClient :=
  { data := none, pending := [], seq := clientInit, marks := [], fired := false }

variable (serverInit : Nat) (client : HttpClient)

def packet (segment : HttpSegment) : HttpPacket :=
  { client := true, seq := client.seq, data := client.pending ++ segment.bytes
    before := segment.before, asmSeq := client.seq }

/-- A packet is the unconsumed bytes and the next segment; a parser that has
been fired is not called again. -/
def feed (segment : HttpSegment) : HttpClient :=
  if client.fired then client
  else
    let p := client.packet segment
    let result := httpParser clientInit serverInit client.data p
    { data := result.data
      pending := p.data.drop (result.asmSeq - p.seq)
      seq := result.asmSeq
      marks := client.marks ++ result.marks
      fired := result.fired }

def run (segments : List HttpSegment) : HttpClient :=
  segments.foldl (feed clientInit serverInit) (init clientInit)

def stored : HttpData := client.data.getD (newHttpData clientInit serverInit)

end HttpClient

/-- The client side stands at a stage between two packets. -/
structure Awaits (clientInit serverInit : Nat) (future : List UInt8)
    (total : List HttpMark) (stage : Stage) (client : HttpClient) : Prop where
  place : At (client.stored clientInit serverInit).client stage
  filled : stage.Filled
  text : client.pending ++ future = stage.text
  marks : client.marks ++ stage.marks client.seq = total
  alive : client.fired = false
  proto : (client.stored clientInit serverInit).shared.proto ≠ .rtsp
  wingSeq : (client.stored clientInit serverInit).client.seq = clientInit ∨
    (client.stored clientInit serverInit).client.seq = client.seq
  unread : stage.Unread client.pending

variable {client : HttpClient} {total : List HttpMark}

section Run

variable {clientInit serverInit : Nat}

/-- The loop of a packet whose first byte is the first unconsumed one. -/
def HttpClient.loop (clientInit serverInit : Nat) (client : HttpClient)
    (segment : HttpSegment) : HttpLoop :=
  Loop.run (httpStep (client.packet segment)) HttpLoop.measure
    { wing := (client.stored clientInit serverInit).client
      shared := (client.stored clientInit serverInit).shared
      rest := client.pending ++ segment.bytes, seq := client.seq
      asmSeq := client.seq, threats := [], marks := [], fired := false }

theorem HttpClient.feed_eq (alive : client.fired = false)
    (wingSeq : (client.stored clientInit serverInit).client.seq = clientInit ∨
        (client.stored clientInit serverInit).client.seq = client.seq)
    (segment : HttpSegment) :
    let stored := client.stored clientInit serverInit
    let final := client.loop clientInit serverInit segment
    client.feed clientInit serverInit segment =
      { data := some { stored with client := final.wing, shared := final.shared }
        pending := (client.pending ++ segment.bytes).drop (final.asmSeq - client.seq)
        seq := final.asmSeq, marks := client.marks ++ final.marks, fired := final.fired } := by
  intro stored final
  have noShift : (if stored.client.seq = clientInit then 0 else stored.client.seq - client.seq) =
      0 := by
    split
    · rfl
    next other => rw [wingSeq.resolve_left other, Nat.sub_self]
  have inside : ¬ (stored.client.seq ≠ clientInit ∧ ¬ (client.seq ≤ stored.client.seq ∧
      stored.client.seq < client.seq + (client.pending ++ segment.bytes).length)) := by
    rintro ⟨other, outside⟩
    apply outside
    have size := length_pos_iff.mpr segment.filled
    rw [wingSeq.resolve_left other, length_append]
    omega
  unfold HttpClient.feed httpParser
  simp only [alive, Bool.false_eq_true, if_false, HttpClient.packet,
    Bool.not_true, Bool.and_false, if_true]
  unfold stored HttpClient.stored at noShift inside
  simp only [noShift, if_neg inside, drop_zero, Nat.add_zero]
  rfl

theorem Awaits.feed {future : List UInt8} {segment : HttpSegment}
    (awaits : Awaits clientInit serverInit (segment.bytes ++ future) total stage client) :
    ∃ reached, Awaits clientInit serverInit future total reached
      (client.feed clientInit serverInit segment) := by
  have start : Tracks clientInit (client.packet segment) future (stage.marks client.seq) stage
      { wing := (client.stored clientInit serverInit).client
        shared := (client.stored clientInit serverInit).shared
        rest := client.pending ++ segment.bytes, seq := client.seq
        asmSeq := client.seq, threats := [], marks := [], fired := false } :=
    { place := awaits.place
      filled := awaits.filled
      text := by
        rw [append_assoc]
        exact awaits.text
      marks := rfl
      placed :=
        { alive := rfl
          proto := awaits.proto
          asmSeq := rfl
          within := Nat.le_refl _
          rest := by
            rw [HttpClient.packet, Nat.sub_self]
            rfl
          wingSeq := awaits.wingSeq } }
  obtain ⟨reached, tracks, unread⟩ := httpLoop_proceeds rfl start
  change Tracks _ _ _ _ _ (client.loop clientInit serverInit segment) at tracks
  rw [HttpClient.feed_eq awaits.alive awaits.wingSeq]
  have left : (client.pending ++ segment.bytes).drop
      ((client.loop clientInit serverInit segment).asmSeq - client.seq) =
        (client.loop clientInit serverInit segment).rest := by
    rw [tracks.placed.asmSeq, tracks.placed.rest]
    rfl
  rw [left]
  refine ⟨reached, ?_⟩
  constructor
  · exact tracks.place
  · exact tracks.filled
  · exact tracks.text
  · rw [append_assoc, tracks.placed.asmSeq, tracks.marks]
    exact awaits.marks
  · exact tracks.placed.alive
  · exact tracks.placed.proto
  · rw [tracks.placed.asmSeq]
    exact tracks.placed.wingSeq
  · exact unread

theorem Awaits.run {future : List UInt8} (segments : List HttpSegment)
    (awaits : Awaits clientInit serverInit
      (segments.flatMap HttpSegment.bytes ++ future) total stage client) :
    ∃ reached, Awaits clientInit serverInit future total reached
      (segments.foldl (HttpClient.feed clientInit serverInit) client) := by
  induction segments generalizing client stage with
  | nil => exact ⟨stage, awaits⟩
  | cons segment segments induction =>
    rw [flatMap_cons, append_assoc] at awaits
    obtain ⟨reached, next⟩ := awaits.feed
    exact induction next

end Run

/-- All request lines and all ends of bodies have been found, nothing is left
over, and the client side expects a new request line. -/
structure KeepsStep (clientInit serverInit : Nat)
    (requests : List HttpRequest) (client : HttpClient) : Prop where
  marks : client.marks = requestMarks clientInit requests
  sect : (client.stored clientInit serverInit).client.sect = .none
  pending : client.pending = []
  alive : client.fired = false

section Stream

variable {clientInit serverInit : Nat}

theorem awaits_init (clientInit serverInit : Nat)
    {requests : List HttpRequest} (filled : ∀ request ∈ requests, request.body ≠ []) :
    Awaits clientInit serverInit (streamBytes requests)
      (requestMarks clientInit requests) (.start requests)
      (.init clientInit) where
  place := .start (unframed_setBodyDone (newWing clientInit)) rfl
  filled := filled
  text := rfl
  marks := rfl
  alive := rfl
  proto := by
    intro rtsp
    cases rtsp
  wingSeq := Or.inl rfl
  unread := rfl

theorem HttpRequest.feed_mem_bytes (request : HttpRequest) : 10 ∈ request.bytes := by
  simp [HttpRequest.bytes, HttpRequest.line]

theorem Awaits.finished (awaits : Awaits clientInit serverInit [] total stage client) :
    client.marks = total ∧ client.pending = [] ∧
      (client.stored clientInit serverInit).client.sect = .none := by
  obtain ⟨place, filled, text, rfl, alive, proto, wingSeq, unread⟩ := awaits
  rw [append_nil] at text
  cases place with
  | start unframed sect =>
    rename_i later
    have empty : client.pending = [] := unread
    rw [empty] at text
    cases later with
    | nil =>
      exact ⟨(append_nil _).symm, empty, sect⟩
    | cons request later =>
      have member : 10 ∈ streamBytes (request :: later) := mem_append_left _ request.feed_mem_bytes
      have none : streamBytes (request :: later) = [] := text.symm
      rw [none] at member
      cases member
  | line unframed sect =>
    rename_i request later
    apply absurd _ unread
    rw [text]
    exact mem_append_left _ request.feed_mem_bytes
  | header shows sect split =>
    apply absurd _ unread
    rw [text]
    simp [Stage.text, crlf]
  | body shows bodyFilled small sect =>
    have empty : client.pending = [] := unread
    rw [empty] at text
    exact absurd (append_eq_nil_iff.mp text.symm).1 bodyFilled

/-- Requests with a body, cut into segments in any way, are followed from the
first to the last. -/
theorem keep_alive_stays_in_step (clientInit serverInit : Nat) (requests : List HttpRequest)
    (filled : ∀ request ∈ requests, request.body ≠ []) (segments : List HttpSegment)
    (cut : segments.flatMap HttpSegment.bytes = streamBytes requests) :
    KeepsStep clientInit serverInit requests (.run clientInit serverInit segments) := by
  have start := awaits_init clientInit serverInit filled
  rw [← cut, ← append_nil (segments.flatMap HttpSegment.bytes)] at start
  obtain ⟨reached, final⟩ := start.run
  obtain ⟨marks, pending, sect⟩ := final.finished
  exact ⟨marks, sect, pending, final.alive⟩

end Stream

def hostLine : LineText := .ofText (ascii ['H', 'o', 's', 't', ':', ' ', 'a']) (by decide)

def lengthTwoLine : LineText := .ofText (contentLengthName ++ ascii [' ', '2']) (by decide)

def postRequest : HttpRequest where
  method := ascii ['P', 'O', 'S', 'T']
  target := ascii ['/']
  headers := [hostLine, lengthTwoLine]
  body := ascii ['o', 'k']
  methodText := by decide
  methodLetter := by decide
  methodSize := by decide
  targetText := by decide
  targetFilled := by decide
  framed := by decide
  bodySize := by decide

/-- Two requests cut inside the first request line and inside the last
body. -/
theorem keep_alive_stays_in_step_two_posts :
    KeepsStep 7 9 [postRequest, postRequest] (.run 7 9
        [⟨(streamBytes [postRequest, postRequest]).take 3, 0, by decide⟩,
          ⟨((streamBytes [postRequest, postRequest]).drop 3).take 94, 0, by decide⟩,
          ⟨((streamBytes [postRequest, postRequest]).drop 3).drop 94, 0, by decide⟩]) :=
  keep_alive_stays_in_step 7 9 [postRequest, postRequest] (by decide) _ rfl

def bareRequest (method : List UInt8) (text : method.all isPartByte = true)
    (letter : method.head?.any isAlpha = true)
    (size : 3 ≤ method.length ∧ method.length ≤ 17) : HttpRequest where
  method := method
  target := ascii ['/']
  headers := [hostLine]
  body := []
  methodText := text
  methodLetter := letter
  methodSize := size
  targetText := by decide
  targetFilled := by decide
  framed := by decide
  bodySize := by decide

def getRequest : HttpRequest :=
  bareRequest (ascii ['G', 'E', 'T']) (by decide) (by decide) (by decide)

def deleteRequest : HttpRequest :=
  bareRequest (ascii ['D', 'E', 'L', 'E', 'T', 'E']) (by decide) (by decide) (by decide)

def getStream : HttpSegment := ⟨streamBytes [getRequest, getRequest], 0, by decide⟩

def deleteStream : HttpSegment := ⟨streamBytes [deleteRequest, getRequest], 0, by decide⟩

/-- After a request without a body the parser stays in the body section: after
a `GET` no later byte is read, and after another method all later bytes are
taken as its body. -/
theorem keep_alive_lost_without_body :
    ¬ KeepsStep 0 0 [getRequest, getRequest] (.run 0 0 [getStream]) ∧
      ¬ KeepsStep 0 0 [deleteRequest, getRequest] (.run 0 0 [deleteStream]) := by
  constructor
  · intro keeps
    have stuck : (HttpClient.run 0 0 [getStream]).pending = getRequest.bytes := by decide
    have empty := keeps.pending
    cases empty
  · intro keeps
    have swallowed : ((HttpClient.run 0 0 [deleteStream]).stored 0 0).client.sect
        = .body := by decide
    have back := keeps.sect
    cases back

end NeuVector.DataPath
