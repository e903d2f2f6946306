import NeuVector.DataPath.Reassembly

/-!
# DLP patterns in a packet

`dpi_arrange_search_buffer` finds the bytes of a search area in a packet, and
`dpi_sigopt_pcre_search` looks for a pattern in them, with Hyperscan before
PCRE2.  Both engines are parameters.  Sequence numbers wrap around; the pointer
to an area, counted from the payload, does not.
-/

namespace NeuVector.DataPath.Dlp

inductive ContextClass where
  | uri
  | header
  | body
  | packet
  deriving DecidableEq

/-- An area as the code has it; the pointer can be null. -/
structure SeqArea where
  ptr : Option Int
  len : UInt32
  start : UInt32
  stop : UInt32
  offset : UInt32
  deriving DecidableEq

def arrangeArea (supported : Bool) (pktSeq pktLen : UInt32) (area : SeqArea) : SeqArea :=
  let pktEndSeq := pktSeq + pktLen
  let area := if supported then area else ⟨some 0, pktLen, pktSeq, pktEndSeq, 0⟩
  if area.ptr.isSome || u32Gt area.start (pktEndSeq - 1) || u32Lt area.stop pktSeq ||
      u32Gt area.start (area.stop - 1) then area
  else
    let early := u32Lt area.start pktSeq
    let ptr : Int := if early then 0 else area.start.toNat - pktSeq.toNat
    let offset := if early then pktSeq - area.start else 0
    let len := if u32Gt area.stop pktEndSeq then .ofInt (pktLen.toNat - ptr)
      else area.stop - area.start - offset
    { area with ptr := some ptr, len, offset }

/-- The area is that from `low` to `high`, which may be nothing. -/
def SeqArea.Denotes (area : SeqArea) (low high : Int) : Prop :=
  if low < high then area.ptr = some low ∧ area.len.toNat = high - low
  else area.ptr = none ∨ area.len = 0

theorem signedDistance_eq_iff {one other : UInt32} {x : Int}
    (near : -2147483648 ≤ x ∧ x < 2147483648) :
    signedDistance one other = x ↔ (one.toNat - other.toNat - x) % 4294967296 = 0 := by
  have bounds := And.intro one.toNat_lt other.toNat_lt
  unfold signedDistance
  rw [BitVec.toInt_eq_toNat_cond, UInt32.toNat_toBitVec, UInt32.toNat_sub]
  split <;> omega

variable {pktSeq pktLen start stop : UInt32} {low high : Int}

theorem arrangeArea_denotes_iff (supported : Bool) (isStart : signedDistance start pktSeq = low)
    (isStop : signedDistance stop pktSeq = high) (order : low ≤ high)
    (window : max high pktLen.toNat - min low 0 < 2147483648) :
    (arrangeArea supported pktSeq pktLen ⟨none, 0, start, stop, 0⟩).Denotes
        (max low 0) (min high pktLen.toNat) ↔
      if supported then 0 ≤ low → low < min high pktLen.toNat → pktSeq ≤ start
      else pktLen = 0 ∨ low ≤ 0 ∧ pktLen.toNat ≤ high := by
  have bounds := And.intro start.toNat_lt stop.toNat_lt
  have packet := And.intro pktSeq.toNat_lt pktLen.toNat_lt
  have first := (signedDistance_eq_iff (by omega)).mp isStart
  have last := (signedDistance_eq_iff (by omega)).mp isStop
  have zero : pktLen = 0 ↔ pktLen.toNat = 0 := by
    rw [← UInt32.toNat_inj]
    rfl
  cases supported with
  | false =>
    simp only [arrangeArea, SeqArea.Denotes, Bool.false_eq_true, if_false, Option.isSome_some,
      Bool.true_or, if_true, Option.some.injEq, reduceCtorEq, false_or, zero]
    split <;> omega
  | true =>
    have unit : (1 : UInt32).toNat = 1 := rfl
    have gap := (@signedDistance_eq_iff start (stop - 1) (low - high + 1) (by omega)).mpr (by
      rw [UInt32.toNat_sub]
      omega)
    have excess := (@signedDistance_eq_iff stop (pktSeq + pktLen) (high - pktLen.toNat)
      (by omega)).mpr (by
        rw [UInt32.toNat_add]
        omega)
    simp only [arrangeArea, u32Gt, u32Lt, if_true, Option.isSome_none, Bool.false_or, gap, excess,
      isStart, isStop, Bool.or_eq_true, decide_eq_true_eq]
    by_cases filled : low < high
    · have behind := (@signedDistance_eq_iff start (pktSeq + pktLen - 1) (low - pktLen.toNat + 1)
        (by omega)).mpr (by
          rw [UInt32.toNat_sub, UInt32.toNat_add]
          omega)
      simp only [behind]
      split
      · unfold SeqArea.Denotes
        refine iff_of_true ?_ (by omega)
        rw [if_neg (by omega)]
        exact .inl rfl
      · have length : (if high - pktLen.toNat > 0 then UInt32.ofInt (pktLen.toNat -
            if low < 0 then 0 else (start.toNat - pktSeq.toNat : Int))
          else stop - start - if low < 0 then pktSeq - start else 0).toNat =
            min high pktLen.toNat - max low 0 := by
          unfold UInt32.ofInt
          split
          · rw [UInt32.toNat_ofNat_of_lt' (by unfold UInt32.size; omega)]
            split <;> omega
          · split
            · simp only [UInt32.toNat_sub]
              omega
            · rw [UInt32.sub_zero, UInt32.toNat_sub]
              omega
        simp only [SeqArea.Denotes, Option.some.injEq, length, and_true, UInt32.le_iff_toNat_le]
        split
        · split <;> omega
        · refine iff_of_true (.inr ?_) (by omega)
          apply UInt32.toNat_inj.mp
          have none : (0 : UInt32).toNat = 0 := rfl
          omega
    · have outside : low - high + 1 > 0 := by omega
      simp only [outside, or_true, if_true, SeqArea.Denotes]
      refine iff_of_true ?_ (by omega)
      rw [if_neg (by omega)]
      trivial

/-- The area is the part of the interval that lies in the packet, exactly if
the sequence numbers do not wrap around between the packet's start and its
own. -/
theorem search_area_exact_iff (supported : Bool) (isStart : signedDistance start pktSeq = low)
    (isStop : signedDistance stop pktSeq = high) (order : low ≤ high)
    (window : max high pktLen.toNat - min low 0 < 2147483648) :
    (arrangeArea supported pktSeq pktLen ⟨none, 0, start, stop, 0⟩).Denotes
        (max low 0) (min high pktLen.toNat) ↔
      if supported then 0 ≤ low → low < min high pktLen.toNat → pktSeq ≤ start
      else pktLen = 0 ∨ low ≤ 0 ∧ pktLen.toNat ≤ high :=
  arrangeArea_denotes_iff supported isStart isStop order window

theorem search_area_exact_clipped :
    (arrangeArea true 0xfffffff0 32 ⟨none, 0, 0xffffffe0, 8, 0⟩).Denotes 0 24 :=
  (search_area_exact_iff true rfl rfl (by decide) (by decide)).mpr (by decide)

/-- In a packet across the end of the sequence space, the pointer to an area
behind that end lies four gigabytes before the payload. -/
theorem search_area_before_packet :
    signedDistance 4 0xfffffff0 = 20 ∧ signedDistance 8 0xfffffff0 = 24 ∧
      (arrangeArea true 0xfffffff0 32 ⟨none, 0, 4, 8, 0⟩).ptr = some (-4294967276) := by
  decide

/-- The payload and what lies around it in memory. -/
structure DlpPacket where
  seq : UInt32
  payload : List UInt8
  around : Int → UInt8
  short : payload.length < 2 ^ 32

def DlpPacket.len (p : DlpPacket) : UInt32 := .ofNat p.payload.length

def DlpPacket.whole (p : DlpPacket) : SeqArea := ⟨some 0, p.len, p.seq, p.seq + p.len, 0⟩

def DlpPacket.byteAt (p : DlpPacket) (place : Int) : UInt8 :=
  if 0 ≤ place then p.payload[place.toNat]?.getD (p.around place) else p.around place

/-- The bytes that a search reads. -/
def SeqArea.bytes (area : SeqArea) (p : DlpPacket) : List UInt8 :=
  match area.ptr with
  | none => []
  | some ptr => (List.range area.len.toNat).map fun i : Nat => p.byteAt (ptr + i)

/-- One area. -/
def arrangeSearchBuffer (p : DlpPacket) (supported : Bool) (c : ContextClass) (area : SeqArea) :
    SeqArea :=
  match c with
  | .header | .body => arrangeArea supported p.seq p.len area
  | .uri => { (if supported then area else p.whole) with offset := 0 }
  | .packet => if area.ptr.isSome ∧ area.len = 0 then area else p.whole

/-- The bytes of the area that are in the packet: those of an interval of
sequence numbers, those that a parser has assigned, or the payload. -/
def SeqArea.inPacket (area : SeqArea) (p : DlpPacket) (supported : Bool) :
    ContextClass → List UInt8
  | .header | .body =>
    if !supported then p.payload
    else if area.ptr.isSome then area.bytes p
    else (p.payload.take (signedDistance area.stop p.seq).toNat).drop
      (signedDistance area.start p.seq).toNat
  | .uri => if supported then area.bytes p else p.payload
  | .packet => if area.ptr.isSome ∧ area.len = 0 then [] else p.payload

/-- A pattern in both engines.  What they report is right, and a database for
prefiltering reports at least that. -/
structure DlpPattern where
  occurs : List UInt8 → Bool
  negative : Bool
  hsDb : Option (List UInt8 → Bool)
  prefilter : Bool
  hsNoconfirm : Bool
  recompiled : Bool
  /-- The end of a match from a position on. -/
  pcre2Match : List UInt8 → Nat → Option Nat
  whole : ∀ bytes, (pcre2Match bytes 0).isSome = occurs bytes
  covers : ∀ db ∈ hsDb, ∀ bytes, occurs bytes = true → db bytes = true
  exact : ∀ db ∈ hsDb, prefilter = false → ∀ bytes, db bytes = true → occurs bytes = true

structure ScanEnv where
  scratch : Bool
  scanned : Bool
  memory : Bool

variable (env : ScanEnv) (pat : DlpPattern) (area : SeqArea) (p : DlpPacket)

def hsSearch (db : List UInt8 → Bool) : Bool := env.scratch && env.scanned && db (area.bytes p)

/-- The answer and, with a match, the new `dlp_match_seq`. -/
def pcreConfirm : Bool × Option UInt32 :=
  if pat.recompiled && env.memory then
    let found := pat.pcre2Match (area.bytes p) area.offset.toNat
    (found.isSome != pat.negative, found.map (area.start + area.offset + .ofNat ·))
  else (false, none)

def pcreSearch : Bool × Option UInt32 :=
  match pat.hsDb with
  | none => pcreConfirm env pat area p
  | some db =>
    let hsMatch := hsSearch env area p db
    if pat.negative then
      if area.offset = 0 && !pat.prefilter then (!hsMatch, none)
      else if !hsMatch then (true, none)
      else pcreConfirm env pat area p
    else if area.offset = 0 && (pat.hsNoconfirm || !pat.prefilter) then (hsMatch, none)
    else if !hsMatch then (false, none)
    else pcreConfirm env pat area p

def reachesPcre : Bool :=
  pat.hsDb.all fun db => hsSearch env area p db &&
    (area.offset ≠ 0 || pat.prefilter && (pat.negative || !pat.hsNoconfirm))

/-- PCRE2 can be asked and misses nothing before the offset; without it, a scan
fails only where the pattern does not occur, and a match of a prefilter is one. -/
def SearchedRight : Prop :=
  if reachesPcre env pat area p then
    if pat.recompiled && env.memory then area.offset ≠ 0 →
      (pat.pcre2Match (area.bytes p) area.offset.toNat).isSome = pat.occurs (area.bytes p)
    else pat.occurs (area.bytes p) = pat.negative
  else ((env.scratch && env.scanned) = false → pat.occurs (area.bytes p) = false) ∧
    (pat.prefilter = true → pat.hsDb.any (hsSearch env area p) = true →
      pat.occurs (area.bytes p) = true)

theorem pcreSearch_eq :
    (pcreSearch env pat area p).1 =
      if reachesPcre env pat area p then (pcreConfirm env pat area p).1
      else pat.hsDb.any (hsSearch env area p) != pat.negative := by
  unfold pcreSearch reachesPcre
  cases pat.hsDb with
  | none => rfl
  | some db =>
    simp only [Option.all_some, Option.any_some]
    cases pat.negative <;> cases hsSearch env area p db <;> grind

theorem pcreSearch_right_iff :
    (pcreSearch env pat area p).1 = (pat.occurs (area.bytes p) != pat.negative) ↔
      SearchedRight env pat area p := by
  rw [pcreSearch_eq]
  unfold SearchedRight
  split
  · unfold pcreConfirm
    split
    · have whole := pat.whole (area.bytes p)
      have first : area.offset = 0 → area.offset.toNat = 0 := congrArg UInt32.toNat
      simp only [Bool.bne_left_inj]
      grind
    · rw [eq_comm, bne_eq_false_iff_eq]
  next unasked =>
    cases known : pat.hsDb with
    | none => simp [reachesPcre, known] at unasked
    | some db =>
      have covers := pat.covers db known (area.bytes p)
      have exact := fun plain => pat.exact db known plain (area.bytes p)
      simp only [hsSearch, Option.any_some]
      grind

theorem DlpPacket.len_toNat : p.len.toNat = p.payload.length :=
  UInt32.toNat_ofNat_of_lt' p.short

/-- A pointer and a length inside the payload give its bytes. -/
theorem bytes_inside {low high : Nat} (pointer : area.ptr = some (low : Int))
    (length : area.len.toNat = high - low) (inside : high ≤ p.payload.length) :
    area.bytes p = (p.payload.take high).drop low := by
  unfold SeqArea.bytes
  rw [pointer, length]
  apply List.ext_getElem?
  intro i
  rw [List.getElem?_map, List.getElem?_drop, List.getElem?_take]
  by_cases before : i < high - low
  · have within : low + i < p.payload.length := by omega
    rw [List.getElem?_range before, if_pos (by omega), List.getElem?_eq_getElem within]
    simp only [Option.map_some, DlpPacket.byteAt]
    rw [if_pos (by omega), show ((low : Int) + i).toNat = low + i by omega,
      List.getElem?_eq_getElem within, Option.getD_some]
  · rw [List.getElem?_eq_none (by simp; omega), if_neg (by omega)]
    rfl

theorem whole_bytes : p.whole.bytes p = p.payload := by
  rw [bytes_inside p.whole p rfl p.len_toNat (Nat.le_refl p.payload.length), List.take_length]
  rfl

variable {area p}

theorem SeqArea.Denotes.bytes {low high : Int}
    (denotes : area.Denotes (max low 0) (min high p.payload.length)) :
    area.bytes p = (p.payload.take high.toNat).drop low.toNat := by
  unfold Denotes at denotes
  split at denotes
  next filled =>
    obtain ⟨pointer, length⟩ := denotes
    have start : area.ptr = some (low.toNat : Int) := by rw [pointer, Int.toNat_eq_max]
    have size : area.len.toNat = min high.toNat p.payload.length - low.toNat := by omega
    rw [bytes_inside area p start size (Nat.min_le_right ..), ← List.take_eq_take_min]
  next empty =>
    have nothing : area.bytes p = [] := by
      unfold SeqArea.bytes
      rcases denotes with null | zero
      · rw [null]
      · rw [zero]
        cases area.ptr <;> rfl
    rw [nothing, List.drop_eq_nil_of_le]
    rw [List.length_take]
    omega

variable (area p)

/-- If the area is an interval of sequence numbers, it and the packet lie in
half of the sequence space, which does not wrap around between the start of the
packet and that of an interval that begins inside. -/
def SeqArea.Near (area : SeqArea) (p : DlpPacket) (supported : Bool) (c : ContextClass) : Prop :=
  (c = .header ∨ c = .body) → supported = true → area.ptr = none →
    let low := signedDistance area.start p.seq
    let high := signedDistance area.stop p.seq
    low ≤ high ∧ max high p.payload.length - min low 0 < 2147483648 ∧
      (0 ≤ low → low < min high p.payload.length → p.seq ≤ area.start)

theorem arrange_bytes (supported : Bool) (c : ContextClass) (near : area.Near p supported c) :
    (arrangeSearchBuffer p supported c area).bytes p = area.inPacket p supported c := by
  have inside : (c = .header ∨ c = .body) →
      (arrangeArea supported p.seq p.len area).bytes p = area.inPacket p supported .body := by
    intro interval
    cases supported with
    | false =>
      have whole : arrangeArea false p.seq p.len area = p.whole := rfl
      rw [whole, whole_bytes]
      rfl
    | true =>
      cases pointer : area.ptr with
      | some ptr =>
        have kept : arrangeArea true p.seq p.len area = area := by simp [arrangeArea, pointer]
        rw [kept]
        simp [SeqArea.inPacket, pointer]
      | none =>
        obtain ⟨order, window, unwrapped⟩ := near interval rfl pointer
        have cleared : (arrangeArea true p.seq p.len area).bytes p =
            (arrangeArea true p.seq p.len ⟨none, 0, area.start, area.stop, 0⟩).bytes p := by
          simp only [arrangeArea, pointer, if_true, Option.isSome_none, Bool.false_or]
          split
          · simp only [SeqArea.bytes, pointer]
          · rfl
        rw [← p.len_toNat] at window unwrapped
        have denotes := (arrangeArea_denotes_iff true rfl rfl order window).mpr unwrapped
        rw [p.len_toNat] at denotes
        rw [cleared, denotes.bytes]
        simp [SeqArea.inPacket, pointer]
  cases c with
  | header => exact inside (.inl rfl)
  | body => exact inside (.inr rfl)
  | uri =>
    cases supported with
    | false => exact whole_bytes p
    | true => rfl
  | packet =>
    unfold arrangeSearchBuffer SeqArea.inPacket
    by_cases ignored : area.ptr.isSome ∧ area.len = 0
    · obtain ⟨ptr, pointer⟩ := Option.isSome_iff_exists.mp ignored.1
      simp [SeqArea.bytes, pointer, ignored.2]
    · simp only [if_neg ignored, whole_bytes]

def seven (negative : Bool) : DlpPattern where
  occurs bytes := bytes.contains 7
  negative := negative
  hsDb := some fun bytes => bytes.contains 7
  prefilter := false
  hsNoconfirm := false
  recompiled := true
  pcre2Match bytes start := if (bytes.drop start).contains 7 then some bytes.length else none
  whole bytes := by cases found : bytes.contains 7 <;> simp_all
  covers db known bytes found := by
    cases known
    exact found
  exact db known _ bytes found := by
    cases known
    exact found

end NeuVector.DataPath.Dlp
