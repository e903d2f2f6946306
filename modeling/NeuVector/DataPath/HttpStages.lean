import NeuVector.DataPath.HttpRequestLine

/-!
# Stages of a stream of requests

Between two rounds of the parser loop the client side stands at one of four
places of the stream: before a request, in a request line, in a header or in a
body.  A stage names the place and what is still to come.  Every round leads
from one stage to the next, whatever part of the text has arrived.
-/

namespace NeuVector.DataPath

open Library List

def streamBytes (requests : List HttpRequest) : List UInt8 := requests.flatMap HttpRequest.bytes

/-- The request lines and the ends of the bodies, where they really are. -/
def requestMarks (seq : Nat) : List HttpRequest → List HttpMark
  | [] => []
  | request :: later =>
    .requestLine seq (seq + request.line.length) ::
      .bodyDone (seq + request.bytes.length) :: requestMarks (seq + request.bytes.length) later

inductive Stage where
  | start (later : List HttpRequest)
  | line (request : HttpRequest) (later : List HttpRequest)
  | header (request : HttpRequest) (before after : List LineText) (later : List HttpRequest)
  | body (left : List UInt8) (later : List HttpRequest)

namespace Stage

def text : Stage → List UInt8
  | .start later => streamBytes later
  | .line request later => request.bytes ++ streamBytes later
  | .header request _ after later =>
    linesBytes after ++ (crlf ++ (request.body ++ streamBytes later))
  | .body left later => left ++ streamBytes later

def bodyMarks (seq : Nat) (later : List HttpRequest) : List HttpMark :=
  .bodyDone seq :: requestMarks seq later

def marks (seq : Nat) : Stage → List HttpMark
  | .start later => requestMarks seq later
  | .line request later => requestMarks seq (request :: later)
  | .header request _ after later =>
    bodyMarks (seq + (linesBytes after).length + 2 + request.body.length) later
  | .body left later => bodyMarks (seq + left.length) later

def later : Stage → List HttpRequest
  | .start later => later
  | .line request later => request :: later
  | .header request _ _ later => request :: later
  | .body _ later => later

/-- Every request to come, and the current one, has a body. -/
def Filled (stage : Stage) : Prop := ∀ request ∈ stage.later, request.body ≠ []

/-- What a packet can leave unread at a stage. -/
def Unread (rest : List UInt8) : Stage → Prop
  | .start _ => rest = []
  | .line _ _ => 10 ∉ rest
  | .header _ _ _ _ => 10 ∉ rest
  | .body _ _ => rest = []

end Stage

def lengthFrame (size : Nat) : Frame := { mode := .length (UInt32.ofNat size), negative := false }

inductive At (w : HttpWing) : Stage → Prop
  | start {later : List HttpRequest} (unframed : Unframed w)
      (sect : w.sect = .none) : At w (.start later)
  | line {request : HttpRequest} {later : List HttpRequest}
      (unframed : Unframed w) (sect : w.sect = .reqResp) :
      At w (.line request later)
  | header {request : HttpRequest} {before after : List LineText} {later : List HttpRequest}
      (shows : Shows w (Frame.init.run (lineEffects before)))
      (sect : w.sect = .header) (split : request.headers = before ++ after) :
      At w (.header request before after later)
  | body {left : List UInt8} {later : List HttpRequest}
      (shows : Shows w (lengthFrame left.length)) (filled : left ≠ [])
      (small : left.length < 4294967296) (sect : w.sect = .body) :
      At w (.body left later)

theorem line_cut {text rest future behind : List UInt8} (plain : 10 ∉ text)
    (cut : rest ++ future = (text ++ [10]) ++ behind) :
    (∃ tail, rest = (text ++ [10]) ++ tail ∧ tail ++ future = behind) ∨
      (10 ∉ rest ∧ ∃ missing, rest ++ missing = text ++ [10]) := by
  rcases append_eq_append_iff.mp cut with
    ⟨missing, piece, rfl⟩ | ⟨tail, whole, rfl⟩
  · rcases eq_nil_or_concat missing with rfl | ⟨start, last, rfl⟩
    · left
      refine ⟨[], ?_, ?_⟩
      · rw [piece, append_nil, append_nil]
      · rfl
    · right
      refine ⟨?_, _, piece.symm⟩
      rw [concat_eq_append, ← append_assoc] at piece
      obtain ⟨rfl, _⟩ := append_inj' piece rfl
      intro member
      apply plain
      exact mem_append_left _ member
  · left
    exact ⟨tail, whole, rfl⟩

theorem linesBytes_cons (line : LineText) (lines : List LineText) :
    linesBytes (line :: lines) = line.bytes ++ linesBytes lines := rfl

/-- The bytes that have arrived contain the rest of a header, or some lines of
it and a piece of the next. -/
theorem header_cut {lines : List LineText} {rest future behind : List UInt8}
    (cut : rest ++ future = linesBytes lines ++ (crlf ++ behind)) :
    (∃ tail, rest = linesBytes lines ++ (crlf ++ tail) ∧ tail ++ future = behind) ∨
      ∃ before after tail, lines = before ++ after ∧ rest = linesBytes before ++ tail ∧ 10 ∉ tail ∧
        tail ++ future = linesBytes after ++ (crlf ++ behind) := by
  induction lines generalizing rest with
  | nil =>
    have plain : (10 : UInt8) ∉ [13] := by decide
    rcases line_cut plain cut with ⟨tail, whole, tailCut⟩ | ⟨piece, _⟩
    · left
      exact ⟨tail, whole, tailCut⟩
    · right
      exact ⟨[], [], rest, rfl, rfl, piece, cut⟩
  | cons line lines induction =>
    have plain : (10 : UInt8) ∉ line.text ++ [13] := by
      intro member
      rcases mem_append.mp member with inText | atEnd
      · exact (line.plain 10 inText).2 rfl
      · exact absurd atEnd (by decide)
    have bytes : line.bytes = (line.text ++ [13]) ++ [10] := by simp [LineText.bytes, crlf]
    have first := cut
    rw [linesBytes_cons, bytes, append_assoc _ (linesBytes lines)] at first
    rcases line_cut plain first with ⟨tail, whole, tailCut⟩ | ⟨piece, _⟩
    · rw [← bytes] at whole
      rcases induction tailCut with ⟨after, tailWhole, afterCut⟩ |
        ⟨before, after, left, split, tailWhole, piece, afterCut⟩
      · left
        refine ⟨after, ?_, afterCut⟩
        rw [whole, tailWhole, linesBytes_cons, append_assoc]
      · right
        refine ⟨line :: before, after, left, ?_, ?_, piece, afterCut⟩
        · rw [split]
          rfl
        · rw [whole, tailWhole, linesBytes_cons, append_assoc]
    · right
      exact ⟨[], line :: lines, rest, rfl, rfl, piece, cut⟩

variable {size : Nat}

theorem FramesBody.run {effects : List LineEffect}
    (frames : FramesBody effects size) (positive : 0 < size) (small : size < 4294967296) :
    Frame.init.run effects = lengthFrame size := by
  have one := frames.2.resolve_left fun none => Nat.ne_of_gt positive none.2
  have only : ∀ field, .length field ∈ effects → .length field = lengthOf size := by
    intro field member
    have kept := mem_filter.mpr ⟨member, (rfl : (LineEffect.length field).isLength = true)⟩
    rw [one] at kept
    exact mem_singleton.mp kept
  have present : lengthOf size ∈ effects := by
    have kept : lengthOf size ∈ effects.filter LineEffect.isLength := by
      rw [one]
      exact mem_singleton_self _
    exact (mem_filter.mp kept).1
  have noNegative : .length .negative ∉ effects := by
    intro member
    cases only _ member
  have noEmpty : empties effects = 0 := by
    apply count_eq_zero.mpr
    intro member
    cases only _ member
  have nonzero : UInt32.ofNat size ≠ 0 := by
    intro zero
    have value := congrArg UInt32.toNat zero
    rw [UInt32.toNat_ofNat_of_lt' small] at value
    exact absurd value (Nat.ne_of_gt positive)
  have all : ∀ m ∈ values effects, m = size := by
    intro m member
    have same := only _ (mem_values.mp member)
    cases same
    rfl
  have some : 0 < (values effects).length := length_pos_of_mem (mem_values.mpr present)
  have clear : Frame.init.negative = false := rfl
  obtain ⟨mode, negative⟩ := Frame.run_mode clear noNegative
  have final : BodyMode.unset.run effects = .length (UInt32.ofNat size) := by
    apply run_oneLength .unset nonzero noNegative frames.1 all
    right
    left
    exact ⟨Or.inl rfl, by rw [noEmpty]; exact some⟩
  have shape : ∀ frame : Frame, frame.mode = .length (UInt32.ofNat size) →
      frame.negative = false → frame = lengthFrame size := by
    rintro ⟨_, _⟩ rfl rfl
    rfl
  exact shape _ (mode.trans final) negative

theorem Shows.transfer {w changed : HttpWing} {frame : Frame} (shows : Shows w frame)
    (hasContentLen : changed.hasContentLen = w.hasContentLen)
    (contentLen : changed.contentLen = w.contentLen) (chunked : changed.chunked = w.chunked)
    (connClose : changed.connClose = w.connClose)
    (negativeLen : changed.negativeLen = w.negativeLen) :
    Shows changed frame := by
  constructor
  · rw [hasContentLen]
    exact shows.hasContentLen
  · rw [contentLen]
    exact shows.contentLen
  · rw [contentLen]
    exact shows.noContentLen
  · rw [chunked]
    exact shows.chunked
  · rw [connClose]
    exact shows.connClose
  · rw [negativeLen]
    exact shows.negative

/-- The unread bytes are those of the packet from the current position on,
and the parser has not given up. -/
structure Placed (init : Nat) (p : HttpPacket) (state : HttpLoop) : Prop where
  alive : state.fired = false
  proto : state.shared.proto ≠ .rtsp
  asmSeq : state.asmSeq = state.seq
  within : p.seq ≤ state.seq
  rest : state.rest = p.data.drop (state.seq - p.seq)
  wingSeq : state.wing.seq = init ∨ state.wing.seq = state.seq

theorem Placed.advance {init : Nat} {p : HttpPacket}
    {state moved : HttpLoop} (placed : Placed init p state) (shift : Nat)
    (alive : moved.fired = state.fired) (proto : moved.shared.proto ≠ .rtsp)
    (seq : moved.seq = state.seq + shift) (asmSeq : moved.asmSeq = moved.seq)
    (wingSeq : moved.wing.seq = moved.seq)
    (rest : moved.rest = state.rest.drop shift) : Placed init p moved where
  alive := alive.trans placed.alive
  proto := proto
  asmSeq := asmSeq
  within := by
    rw [seq]
    exact Nat.le_add_right_of_le placed.within
  rest := by
    have within := placed.within
    rw [rest, placed.rest, drop_drop]
    congr 1
    omega
  wingSeq := Or.inr wingSeq

/-- What every round keeps: the place, the text to come and the marks to come
are those of a stage. -/
structure Tracks (init : Nat) (p : HttpPacket) (future : List UInt8)
    (total : List HttpMark) (stage : Stage) (state : HttpLoop) : Prop where
  place : At state.wing stage
  filled : stage.Filled
  text : state.rest ++ future = stage.text
  marks : state.marks ++ stage.marks state.seq = total
  placed : Placed init p state

/-- The outcome of a round at a stage: the loop goes on at a stage, or waits at
a stage for more bytes. -/
def Proceeds (init : Nat) (p : HttpPacket) (future : List UInt8)
    (total : List HttpMark) (outcome : Step HttpLoop) : Prop :=
  outcome.Meets (fun state => ∃ stage, Tracks init p future total stage state)
    (fun state => ∃ stage, Tracks init p future total stage state ∧ stage.Unread state.rest)

section Body

variable {w : HttpWing} {size : Nat}

section

variable (shows : Shows w (lengthFrame size))
include shows

theorem httpParseBody_length (small : size < 4294967296) (bytes : List UInt8) :
    httpParseBody w bytes =
      if bytes.length < size then
        { wing := { w with contentLen := UInt32.ofNat (size - bytes.length) }
          rest := [], consume := bytes.length, threats := [], done := false }
      else
        { wing := w, rest := bytes.drop size, consume := size, threats := []
          done := true } := by
  have notClose : w.connClose = false := by simpa [lengthFrame] using shows.connClose
  have notChunked : w.chunked = false := by simpa [lengthFrame] using shows.chunked
  have contentLen : w.contentLen = UInt32.ofNat size := shows.contentLen _ rfl
  have value : w.contentLen.toNat = size := by
    rw [contentLen, UInt32.toNat_ofNat_of_lt' small]
  unfold httpParseBody
  simp only [notClose, notChunked, Bool.false_eq_true, if_false,
    BodyScan.skip, drop_length, Nat.zero_add, value]
  split
  next short => rw [contentLen, UInt32.ofNat_sub (Nat.le_of_lt short)]
  · rfl

theorem shows_left (left : Nat) :
    Shows { w with contentLen := UInt32.ofNat left } (lengthFrame left) where
  hasContentLen := by simpa [lengthFrame] using shows.hasContentLen
  contentLen n same := by
    cases same
    rfl
  noContentLen none := absurd rfl (none _)
  chunked := by simpa [lengthFrame] using shows.chunked
  connClose := by simpa [lengthFrame] using shows.connClose
  negative := shows.negative

end

end Body

section Rounds

variable {init : Nat} {p : HttpPacket} {future : List UInt8}
variable {total : List HttpMark} {state : HttpLoop}
variable {later : List HttpRequest}

/-- A round in a body counts the bytes that have arrived, and ends the body
with its last byte. -/
theorem bodyStep_proceeds {left : List UInt8}
    (shows : Shows state.wing (lengthFrame left.length)) (filled : left ≠ [])
    (small : left.length < 4294967296) (laterFilled : ∀ request ∈ later, request.body ≠ [])
    (text : state.rest ++ future = left ++ streamBytes later)
    (marks : state.marks ++ Stage.bodyMarks (state.seq + left.length) later = total)
    (placed : Placed init p state) :
    Proceeds init p future total (bodyStep state) := by
  have scan := httpParseBody_length shows small state.rest
  by_cases short : state.rest.length < left.length
  · rw [if_pos short] at scan
    obtain ⟨missing, whole, rfl⟩ : ∃ missing, left = state.rest ++ missing ∧
          future = missing ++ streamBytes later := by
      rcases append_eq_append_iff.mp text with found | ⟨tail, long, _⟩
      · exact found
      · rw [long, length_append] at short
        omega
    have missingSize : left.length - state.rest.length = missing.length := by
      rw [whole, length_append]
      omega
    have missingFilled : missing ≠ [] := by
      intro empty
      rw [whole, empty, append_nil] at short
      exact Nat.lt_irrefl _ short
    rw [missingSize] at scan
    have shown := shows_left shows missing.length
    have missingSmall : missing.length < 4294967296 := by omega
    unfold bodyStep
    rw [scan]
    by_cases none : state.rest.length = 0
    · have empty : state.rest = [] := length_eq_zero_iff.mp none
      simp only [if_pos none]
      refine ⟨.body missing later, ⟨?_, laterFilled, ?_, ?_, ?_⟩, empty⟩
      · exact .body (shown.transfer rfl rfl rfl rfl rfl) missingFilled missingSmall rfl
      · rw [empty]
        rfl
      · rw [whole, empty] at marks
        exact marks
      · exact ⟨placed.alive, placed.proto, placed.asmSeq, placed.within,
          placed.rest, placed.wingSeq⟩
    · simp only [if_neg none, Bool.false_eq_true, if_false]
      refine ⟨.body missing later, ⟨?_, laterFilled, ?_, ?_, ?_⟩⟩
      · exact .body (shown.transfer rfl rfl rfl rfl rfl) missingFilled missingSmall rfl
      · rw [drop_length]
        rfl
      · rw [whole, length_append, ← Nat.add_assoc] at marks
        exact marks
      · exact placed.advance state.rest.length rfl placed.proto rfl rfl rfl rfl
  · have long := Nat.not_lt.mp short
    rw [if_neg short] at scan
    have some : ¬ left.length = 0 := fun zero => filled (length_eq_zero_iff.mp zero)
    obtain ⟨tail, whole, behind⟩ : ∃ tail, state.rest = left ++ tail ∧
          streamBytes later = tail ++ future := by
      rcases append_eq_append_iff.mp text with
        ⟨missing, piece, rfl⟩ | found
      · have empty : missing = [] := by
          rw [piece, length_append] at long
          apply length_eq_zero_iff.mp
          omega
        subst empty
        refine ⟨[], ?_, rfl⟩
        rw [piece, append_nil, append_nil]
      · exact found
    unfold bodyStep
    rw [scan]
    simp only [if_neg some, if_true]
    refine ⟨.start later, ⟨?_, laterFilled, ?_, ?_, ?_⟩⟩
    · exact .start ((unframed_setBodyDone state.wing).transfer rfl rfl rfl rfl rfl) rfl
    · rw [whole, drop_left]
      exact behind.symm
    · rw [append_assoc]
      exact marks
    · exact placed.advance left.length rfl placed.proto rfl rfl rfl rfl

theorem closeUnlessFramed_length {w : HttpWing}
    (shows : Shows w (lengthFrame size)) (shared : HttpShared) :
    closeUnlessFramed shared w = w := by
  have set : w.hasContentLen = true := shows.hasContentLen.mpr ⟨_, rfl⟩
  unfold closeUnlessFramed
  rw [set]
  rfl

theorem run_lineEffects_append (before after : List LineText) :
    (Frame.init.run (lineEffects before)).run (lineEffects after) =
      Frame.init.run (lineEffects (before ++ after)) := by
  simp only [Frame.run, lineEffects, map_append, foldl_append]

/-- A round in a header handles the lines that have arrived.  The end of the
header leads into the body in the same round. -/
theorem headerSectionStep_proceeds {request : HttpRequest} {before after : List LineText}
    (tracks : Tracks init p future total (.header request before after later) state) :
    Proceeds init p future total (headerSectionStep state) := by
  obtain ⟨place, filled, text, marks, placed⟩ := tracks
  cases place with
  | header shows sect split =>
    have bodyFilled : request.body ≠ [] := filled request mem_cons_self
    rcases header_cut text with ⟨tail, rest, behind⟩ |
      ⟨here, missing, tail, lines, rest, piece, behind⟩
    · have shown := (headerLines_shows shows after).1
      rw [run_lineEffects_append, ← split,
        request.framed.run (length_pos_iff.mpr bodyFilled) request.bodySize] at shown
      have scan := httpParseHeader_block state.wing after tail
      have size : (linesBytes after ++ (crlf ++ tail)).drop
          ((linesBytes after).length + 2) = tail := by
        rw [← append_assoc]
        apply drop_left'
        rw [length_append]
        rfl
      have entered : Shows
          { (headerLines state.wing after).1 with
            seq := state.seq + ((linesBytes after).length + 2)
            bodyStart := state.seq + ((linesBytes after).length + 2)
            sect := .firstBody }
          (lengthFrame request.body.length) :=
        shown.transfer rfl rfl rfl rfl rfl
      unfold headerSectionStep
      rw [rest, scan]
      simp only [if_true]
      rw [closeUnlessFramed_length entered]
      apply bodyStep_proceeds entered bodyFilled request.bodySize
        (List.forall_mem_cons.mp filled).2 behind
      · exact marks
      · refine placed.advance ((linesBytes after).length + 2) rfl placed.proto rfl rfl rfl ?_
        rw [rest]
        exact size.symm
    · have shown := (headerLines_shows shows here).1
      rw [run_lineEffects_append] at shown
      have outside := headerLines_outside state.wing here
      have scan := httpParseHeader_incomplete state.wing here piece
      unfold headerSectionStep
      rw [rest, scan]
      refine ⟨.header request (before ++ here) missing later, ⟨?_, filled, behind, ?_, ?_⟩, piece⟩
      · refine .header (shown.transfer rfl rfl rfl rfl rfl) ?_ ?_
        · exact outside.sect.trans sect
        · rw [split, lines, append_assoc]
      · have size : (linesBytes after).length =
            (linesBytes here).length + (linesBytes missing).length := by
          rw [lines]
          simp [linesBytes]
        simp only [Stage.marks, size, ← Nat.add_assoc] at marks ⊢
        exact marks
      · refine placed.advance (linesBytes here).length rfl placed.proto rfl rfl rfl ?_
        rw [rest, drop_left]

theorem firstLineStep_request (client : p.client = true) (proto : state.shared.proto ≠ .rtsp) :
    let started : HttpLoop :=
      { state with
        wing :=
          { state.wing with request := true, cmdStart := state.seq, hdrStart := 0, bodyStart := 0 }
        shared := (httpParseRequest state.shared state.rest).1 }
    firstLineStep p state =
      match (httpParseRequest state.shared state.rest).2 with
      | .bad => .stop { started with fired := true }
      | .wait => .stop started
      | .line shift => .next (passLine started shift) := by
  intro started
  unfold firstLineStep startMessage
  cases result : (httpParseRequest state.shared state.rest).2 with
  | bad => simp only [proto, false_and, if_false, client, if_true, result, started]
  | wait => simp only [proto, false_and, if_false, client, if_true, result, started]
  | line shift => simp only [proto, false_and, if_false, client, if_true, result, started]

theorem firstLineStep_proceeds {request : HttpRequest} (client : p.client = true)
    (tracks : Tracks init p future total (.line request later) state) :
    Proceeds init p future total (firstLineStep p state) := by
  obtain ⟨place, filled, text, marks, placed⟩ := tracks
  cases place with
  | line unframed sect =>
    have line : state.rest ++ future = (request.lineStart ++ [10]) ++
          (request.afterLine ++ streamBytes later) := by
      rw [text]
      simp [Stage.text, HttpRequest.bytes, HttpRequest.line]
    rcases line_cut request.lineStart_plain line with
      ⟨tail, rest, behind⟩ | ⟨piece, missing, cut⟩
    · have found := request.httpParseRequest_line state.shared tail
      have bytes : state.rest = request.line ++ tail := rest
      rw [← bytes] at found
      rw [firstLineStep_request client placed.proto, found.1]
      refine ⟨.header request [] request.headers later, ⟨?_, filled, ?_, ?_, ?_⟩⟩
      · exact .header (unframed.transfer rfl rfl rfl rfl rfl) rfl rfl
      · simp only [passLine, bytes, drop_left, behind]
        simp [HttpRequest.afterLine, Stage.text]
      · simp only [passLine, if_true, append_assoc]
        rw [← marks]
        simp only [Stage.marks, requestMarks, Stage.bodyMarks,
          request.length_bytes, singleton_append]
        simp only [Nat.add_assoc]
      · refine placed.advance request.line.length rfl ?_ rfl rfl rfl rfl
        change (httpParseRequest state.shared state.rest).1.proto ≠ .rtsp
        rw [found.2]
        decide
    · have waits := request.httpParseRequest_piece state.shared piece cut
      rw [firstLineStep_request client placed.proto, waits.1]
      refine ⟨.line request later, ⟨?_, filled, text, marks, ?_⟩, piece⟩
      · exact .line (unframed.transfer rfl rfl rfl rfl rfl) sect
      · refine ⟨placed.alive, ?_, placed.asmSeq, placed.within, placed.rest, placed.wingSeq⟩
        rw [waits.2]
        exact placed.proto

end Rounds

end NeuVector.DataPath
