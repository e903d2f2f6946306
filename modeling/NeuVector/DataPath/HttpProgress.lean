import NeuVector.DataPath.HttpStatusLine
import NeuVector.DataPath.Reassembly

/-!
# The parser moves forward

A pass of the loop of `http_parser` reads some of the bytes that are left of
the packet.  Only the first line of a server that is no status line is an
exception: its reader answers -1, and the loop goes one byte back.
-/

namespace NeuVector.DataPath

open Library

variable {bytes : List UInt8} {shift l : Nat}

theorem scanRequest_le {prev : UInt8} {scan found : RequestScan}
    (line : scanRequest l prev scan bytes = .line found shift) : shift ≤ l + bytes.length := by
  fun_induction scanRequest l prev scan bytes <;> grind

theorem scanResponse_le {scan : ResponseScan} {status : Nat}
    (line : scanResponse l scan bytes = (status, .line shift)) : shift ≤ l + bytes.length := by
  fun_induction scanResponse l scan bytes <;> grind [→ consumeLine_bounds]

theorem httpParseRequest_le {shared : HttpShared}
    (line : (httpParseRequest shared bytes).2 = .line shift) : shift ≤ bytes.length := by
  grind [httpParseRequest, → scanRequest_le]

theorem httpParseResponse_le {shared : HttpShared}
    (line : (httpParseResponse shared bytes).2 = .line shift) : shift ≤ bytes.length := by
  grind [httpParseResponse, → scanResponse_le]

theorem httpParseHeader_reads (w : HttpWing) (bytes : List UInt8) :
    (httpParseHeader w bytes).consume + (httpParseHeader w bytes).rest.length = bytes.length ∧
      ((httpParseHeader w bytes).done = true → 0 < (httpParseHeader w bytes).consume) := by
  apply Loop.run_meets
    (fun scan => scan.consume + scan.rest.length = bytes.length ∧ scan.done = false)
    (fun scan => scan.consume + scan.rest.length = bytes.length ∧
      (scan.done = true → 0 < scan.consume)) headerStep_decreasing
  · intro scan read
    unfold headerStep
    grind [Step.Meets, → consumeLine_bounds]
  · exact ⟨Nat.zero_add _, rfl⟩

/-- The body reader has read some bytes; the recorded number is as it was. -/
def Consumed (scan next : BodyScan) : Prop :=
  next.consume + next.rest.length = scan.consume + scan.rest.length ∧
    next.wing.seq = scan.wing.seq

theorem chunkStep_reads (scan : BodyScan) : (chunkStep scan).Meets
    (fun next => Consumed scan next ∧ next.rest.length < scan.rest.length) (Consumed scan) := by
  have positive : 0 < scan.wing.contentLen → 0 < scan.wing.contentLen.toNat :=
    UInt32.lt_iff_toNat_lt.mp
  unfold chunkStep
  grind [Step.Meets, Consumed, BodyScan.skip, chunkLength, → consumeLine_bounds]

theorem chunkStep_decreasing : Loop.Decreasing chunkStep fun scan => scan.rest.length := by
  intro scan next body
  have reads := chunkStep_reads scan
  rw [body] at reads
  exact reads.2

theorem httpParseBody_reads (w : HttpWing) (bytes : List UInt8) :
    Consumed { wing := w, rest := bytes, consume := 0, threats := [], done := false }
      (httpParseBody w bytes) := by
  unfold httpParseBody
  generalize begin : (BodyScan.mk w bytes 0 [] false) = start
  have chunks : Consumed start (httpBodyChunk w bytes) := by
    unfold httpBodyChunk
    rw [begin]
    apply Loop.run_meets (Consumed start) (Consumed start) chunkStep_decreasing
    · intro scan read
      have reads := chunkStep_reads scan
      cases body : chunkStep scan <;> grind [Step.Meets, Consumed]
    · exact ⟨rfl, rfl⟩
  grind [Consumed, BodyScan.skip]

theorem closeUnlessFramed_seq (shared : HttpShared) (w : HttpWing) :
    (closeUnlessFramed shared w).seq = w.seq := by
  grind [closeUnlessFramed, setBodyConnClose]

/-- Some of the bytes that are left are read, and the position is recorded if
there are any. -/
structure ReadsOn (state next : HttpLoop) : Prop where
  left : next.seq + next.rest.length = state.seq + state.rest.length
  later : state.seq ≤ next.seq
  recorded : next.wing.seq = next.seq ∨ next.seq = state.seq ∧ next.wing.seq = state.wing.seq

variable {p : HttpPacket} {state mid next : HttpLoop}

theorem ReadsOn.stay (seq : next.seq = state.seq) (rest : next.rest = state.rest)
    (recorded : next.wing.seq = state.wing.seq) : ReadsOn state next :=
  ⟨by rw [seq, rest], Nat.le_of_eq seq.symm, .inr ⟨seq, recorded⟩⟩

theorem ReadsOn.drop {count : Nat} (fits : count ≤ state.rest.length)
    (seq : next.seq = state.seq + count) (rest : next.rest = state.rest.drop count)
    (recorded : next.wing.seq = next.seq) : ReadsOn state next := by
  refine ⟨?_, by omega, .inl recorded⟩
  rw [seq, rest, List.length_drop]
  omega

/-- A body that goes on has lost more than a number of its bytes. -/
def InBody (least : Nat) (state next : HttpLoop) : Prop :=
  ReadsOn state next ∧ state.seq + least < next.seq ∧
    (next.wing.sect = .none ∨ next.wing.sect = .body)

theorem bodyStep_moves (state : HttpLoop) :
    (bodyStep state).Meets (InBody 0 state) (ReadsOn state) := by
  obtain ⟨read, kept⟩ := httpParseBody_reads state.wing state.rest
  have fits : (httpParseBody state.wing state.rest).consume ≤ state.rest.length := by
    simp only [Nat.zero_add] at read
    omega
  unfold bodyStep
  dsimp only
  split
  next none => exact .stay rfl rfl kept
  next some =>
    have positive : 0 < (httpParseBody state.wing state.rest).consume := Nat.pos_of_ne_zero some
    split
    next done => exact ⟨.drop fits rfl rfl rfl, Nat.lt_add_of_pos_right positive, .inl rfl⟩
    next more => exact ⟨.drop fits rfl rfl rfl, Nat.lt_add_of_pos_right positive, .inr rfl⟩

theorem headerSectionStep_moves (state : HttpLoop) :
    (headerSectionStep state).Meets (InBody 1 state) (ReadsOn state) := by
  obtain ⟨read, some⟩ := httpParseHeader_reads state.wing state.rest
  have closes := closeUnlessFramed_seq state.shared
  unfold headerSectionStep
  dsimp only
  split
  next done =>
    have positive := some done
    generalize begin : HttpLoop.mk _ _ _ _ _ _ _ _ = body
    have header : ReadsOn state body ∧ body.seq =
        state.seq + (httpParseHeader state.wing state.rest).consume ∧
          body.wing.seq = body.seq := by
      subst begin
      refine ⟨⟨?_, Nat.le_add_right .., .inl (closes _)⟩, rfl, closes _⟩
      rw [← read, ← Nat.add_assoc]
    obtain ⟨before, position, recorded⟩ := header
    have through : ∀ next, ReadsOn body next → ReadsOn state next := by
      rintro next ⟨left, later, own⟩
      refine ⟨left.trans before.left, Nat.le_trans before.later later, .inl ?_⟩
      rcases own with own | ⟨same, kept⟩
      · exact own
      · rw [same, kept, recorded]
    have moves := bodyStep_moves body
    cases step : bodyStep body with
    | next next =>
      rw [step] at moves
      obtain ⟨reads, more, inBody⟩ := moves
      exact ⟨through next reads, by omega, inBody⟩
    | stop final =>
      rw [step] at moves
      exact through final moves
  next waits =>
    refine ⟨?_, Nat.le_add_right .., .inl rfl⟩
    rw [← read, ← Nat.add_assoc]

def isRequestLine (p : HttpPacket) (state : HttpLoop) : Bool :=
  if state.shared.proto = .rtsp then startsWith (ascii ['R', 'T', 'S', 'P', '/']) state.rest
  else p.client

/-- The pass is over a first line that is read as that of a response and cannot
become a status line. -/
def TakesBack (p : HttpPacket) (state : HttpLoop) : Prop :=
  state.wing.sect = .reqResp ∧ ¬ (state.shared.proto = .rtsp ∧ state.rest.length ≤ 5) ∧
    isRequestLine p state = false ∧ NoStatusLine state.rest

/-- A pass moves forward, or it takes back a line and has one byte more to
read than before. -/
def Passes (p : HttpPacket) (state next : HttpLoop) : Prop :=
  ¬ TakesBack p state ∧ ReadsOn state next ∨
    TakesBack p state ∧ next.rest.length = state.rest.length + 1

theorem firstLineStep_moves (sect : state.wing.sect = .reqResp) :
    (firstLineStep p state).Meets (fun next => next.wing.sect = .header ∧ Passes p state next)
      (Passes p state) := by
  have started : (startMessage p state).seq = state.wing.seq ∧
      (startMessage p state).request = p.client := by
    unfold startMessage
    cases p.client <;> exact ⟨rfl, rfl⟩
  unfold firstLineStep
  dsimp only
  split
  next short => exact .inl ⟨fun back => back.2.1 short, .stay rfl rfl started.1⟩
  next long =>
    generalize begin : (if state.shared.proto = .rtsp then _ else _ : HttpLoop) = mid
    have same : mid.seq = state.seq ∧ mid.rest = state.rest ∧ mid.shared = state.shared ∧
        mid.wing.seq = state.wing.seq ∧ mid.wing.request = isRequestLine p state := by
      subst begin
      unfold isRequestLine
      split
      · exact ⟨rfl, rfl, rfl, started.1, rfl⟩
      · exact ⟨rfl, rfl, rfl, started⟩
    obtain ⟨seq, rest, shared, recorded, isRequest⟩ := same
    by_cases request : mid.wing.request = true
    · have notBack : ¬TakesBack p state := by
        rintro ⟨_, _, response, _⟩
        rw [isRequest, response] at request
        cases request
      rw [if_pos request]
      cases result : (httpParseRequest mid.shared mid.rest).2 with
      | bad => exact .inl ⟨notBack, .stay seq rest recorded⟩
      | wait => exact .inl ⟨notBack, .stay seq rest recorded⟩
      | line shift =>
        have fits := httpParseRequest_le result
        rw [rest] at fits
        refine ⟨rfl, .inl ⟨notBack, .drop fits ?_ ?_ rfl⟩⟩
        · exact congrArg (· + shift) seq
        · exact congrArg (List.drop shift) rest
    · have response : isRequestLine p state = false := by
        rw [← isRequest]
        exact Bool.eq_false_iff.mpr request
      have back : TakesBack p state ↔ (httpParseResponse mid.shared mid.rest).2 = .bad := by
        rw [httpParseResponse_bad_iff, rest]
        exact ⟨fun back => back.2.2.2, fun line => ⟨sect, long, response, line⟩⟩
      rw [if_neg request]
      cases result : (httpParseResponse mid.shared mid.rest).2 with
      | bad =>
        refine ⟨rfl, .inr ⟨back.mpr result, ?_⟩⟩
        change mid.rest.length + 1 = _
        rw [rest]
      | wait =>
        have notBack : ¬TakesBack p state := by simp [back, result]
        exact .inl ⟨notBack, .stay seq rest recorded⟩
      | line shift =>
        have notBack : ¬TakesBack p state := by simp [back, result]
        have fits := httpParseResponse_le result
        rw [rest] at fits
        refine ⟨rfl, .inl ⟨notBack, .drop fits ?_ ?_ rfl⟩⟩
        · exact congrArg (· + shift) seq
        · exact congrArg (List.drop shift) rest

theorem not_takesBack (sect : state.wing.sect ≠ .reqResp) : ¬TakesBack p state :=
  fun back => sect back.1

theorem InBody.passes {least : Nat} (body : InBody least state next)
    (sect : state.wing.sect ≠ .reqResp) : Passes p state next :=
  .inl ⟨not_takesBack sect, body.1⟩

/-- A body pass that goes on makes the measure smaller. -/
theorem InBody.measure_lt {least : Nat} (body : InBody least state next)
    (sect : state.wing.sect = .header ∧ 1 ≤ least ∨ state.wing.sect = .firstBody ∨
      state.wing.sect = .body) : next.measure < state.measure := by
  obtain ⟨⟨left, _, _⟩, more, inside⟩ := body
  unfold HttpLoop.measure
  rcases inside with after | after <;> rcases sect with ⟨before, _⟩ | before | before <;>
    simp only [after, before] <;> omega

theorem body_moves (sect : state.wing.sect = .firstBody ∨ state.wing.sect = .body) :
    (bodyStep state).Meets (fun next => next.measure < state.measure ∧ Passes p state next)
      (Passes p state) := by
  have other : state.wing.sect ≠ .reqResp := by
    rcases sect with sect | sect <;> rw [sect] <;> decide
  have body := bodyStep_moves state
  cases step : bodyStep state with
  | next next =>
    rw [step] at body
    exact ⟨body.measure_lt (.inr sect), body.passes other⟩
  | stop final =>
    rw [step] at body
    exact .inl ⟨not_takesBack other, body⟩

theorem httpStep_moves (p : HttpPacket) (state : HttpLoop) : (httpStep p state).Meets
    (fun next => next.measure < state.measure ∧ Passes p state next) (Passes p state) := by
  unfold httpStep
  split
  next empty =>
    refine .inl ⟨?_, .stay rfl rfl rfl⟩
    rintro ⟨_, _, _, four, _⟩
    rw [empty] at four
    cases four
  next c rest some =>
    split
    next sect =>
      have notBack : ¬TakesBack p state := not_takesBack (by rw [sect]; decide)
      split
      · refine ⟨?_, .inl ⟨notBack, .stay rfl rfl rfl⟩⟩
        simp [HttpLoop.measure, sect]
      · split
        · exact .inl ⟨notBack, .stay rfl rfl rfl⟩
        · refine ⟨?_, .inl ⟨notBack, .stay rfl rfl rfl⟩⟩
          simp [HttpLoop.measure, sect]
    next sect =>
      have line := @firstLineStep_moves p state sect
      cases step : firstLineStep p state with
      | next next =>
        rw [step] at line
        obtain ⟨header, passes⟩ := line
        refine ⟨?_, passes⟩
        simp only [HttpLoop.measure, sect, header]
        rcases passes with ⟨_, left, later, _⟩ | ⟨_, longer⟩
        · omega
        · omega
      | stop final =>
        rw [step] at line
        exact line
    next sect =>
      have body := headerSectionStep_moves state
      have other : state.wing.sect ≠ .reqResp := by rw [sect]; decide
      cases step : headerSectionStep state with
      | next next =>
        rw [step] at body
        exact ⟨body.measure_lt (.inl ⟨sect, Nat.le_refl 1⟩), body.passes other⟩
      | stop final =>
        rw [step] at body
        exact .inl ⟨not_takesBack other, body⟩
    next sect => exact body_moves (.inl sect)
    next sect => exact body_moves (.inr sect)

theorem httpStep_decreasing (p : HttpPacket) : Loop.Decreasing (httpStep p) HttpLoop.measure := by
  intro state next body
  have moves := httpStep_moves p state
  rw [body] at moves
  exact moves.1

theorem u32Lt_forward {first second : Nat} (forward : first ≤ second)
    (near : second < first + 2147483648) :
    u32Lt (UInt32.ofNat second) (UInt32.ofNat first) = false := by
  unfold u32Lt signedDistance
  rw [decide_eq_false_iff_not, BitVec.toInt_eq_toNat_cond, UInt32.toNat_toBitVec,
    UInt32.toNat_sub, UInt32.toNat_ofNat', UInt32.toNat_ofNat']
  split <;> omega

/-- The loop stands within the packet. -/
structure StandsIn (p : HttpPacket) (state : HttpLoop) : Prop where
  left : state.seq + state.rest.length = p.seq + p.data.length
  begun : p.seq ≤ state.seq

/-- The recorded number is not beyond the position, and less than half of the
number space behind it. -/
def RecordedBefore (state : HttpLoop) : Prop :=
  state.wing.seq ≤ state.seq ∧ state.seq < state.wing.seq + 2147418112

/-- The loop stands at the same or a later position, with a recorded number
that is not below the one before. -/
def Follows (p : HttpPacket) (state next : HttpLoop) : Prop :=
  StandsIn p next ∧ state.seq ≤ next.seq ∧
    u32Lt (UInt32.ofNat next.wing.seq) (UInt32.ofNat state.wing.seq) = false

theorem u32Lt_irrefl (seq : UInt32) : u32Lt seq seq = false := by simp [u32Lt, signedDistance]

/-- The pass records nothing, or no position before the recorded number. -/
def RecordsForward (state next : HttpLoop) : Prop :=
  next.wing.seq = state.wing.seq ∨
    u32Lt (UInt32.ofNat next.seq) (UInt32.ofNat state.wing.seq) = false

theorem Passes.follows_iff (passes : Passes p state next) (stands : StandsIn p state) :
    Follows p state next ↔ ¬ TakesBack p state ∧ RecordsForward state next := by
  rcases passes with ⟨notBack, left, later, recorded⟩ | ⟨back, longer⟩
  · have after : StandsIn p next := by
      obtain ⟨before, begun⟩ := stands
      exact ⟨by omega, by omega⟩
    have forward : u32Lt (UInt32.ofNat next.wing.seq) (UInt32.ofNat state.wing.seq) = false ↔
        RecordsForward state next := by
      unfold RecordsForward
      by_cases same : next.wing.seq = state.wing.seq
      · simp [same, u32Lt_irrefl]
      · have position := recorded.resolve_right fun kept => same kept.2
        rw [← position]
        simp [same]
    exact ⟨fun follows => ⟨notBack, forward.mp follows.2.2⟩,
      fun good => ⟨after, later, forward.mpr good.2⟩⟩
  · refine iff_of_false ?_ fun good => good.1 back
    rintro ⟨after, later, _⟩
    have before := stands.left
    have left := after.left
    omega

theorem ReadsOn.recordsForward (reads : ReadsOn state next) (before : RecordedBefore state)
    (short : next.seq < state.seq + 65536) :
    RecordsForward state next ∧ RecordedBefore next := by
  obtain ⟨recorded, near⟩ := before
  obtain ⟨left, later, position⟩ := reads
  rcases position with position | ⟨same, kept⟩
  · exact ⟨.inr (u32Lt_forward (by omega) (by omega)), by omega, by omega⟩
  · exact ⟨.inl kept, by omega, by omega⟩

/-- If the recorded number is not beyond the position, only the first line decides. -/
theorem Passes.follows_before_iff (passes : Passes p state next) (stands : StandsIn p state)
    (before : RecordedBefore state) (short : p.data.length < 65536) :
    Follows p state next ∧ RecordedBefore next ↔ ¬ TakesBack p state := by
  constructor
  · rintro ⟨follows, _⟩
    exact ((passes.follows_iff stands).mp follows).1
  · intro notBack
    have reads : ReadsOn state next := (passes.resolve_right fun back => notBack back.1).2
    have within : next.seq < state.seq + 65536 := by
      have left := reads.left
      have inside := stands.left
      have begun := stands.begun
      omega
    obtain ⟨records, after⟩ := reads.recordsForward before within
    exact ⟨(passes.follows_iff stands).mpr ⟨notBack, records⟩, after⟩

def freshLoop (p : HttpPacket) (init : Nat) (sect : HttpSection) : HttpLoop :=
  { wing := { newWing init with sect := sect }, shared := (newHttpData 0 0).shared
    rest := p.data, seq := p.seq, asmSeq := p.seq, threats := [], marks := [], fired := false }

def getPacket (seq : Nat) : HttpPacket :=
  { client := true, seq := seq, data := ascii ['G', 'E', 'T', ' ', '/', '\n'], before := 0
    asmSeq := seq }

def oopsPacket : HttpPacket :=
  { client := false, seq := 9, data := ascii ['o', 'o', 'p', 's'], before := 7, asmSeq := 9 }

end NeuVector.DataPath
