import NeuVector.DataPath.StreamFlow

/-!
# A segment of a stream arrives

A packet carries a segment of the stream that is near to what has been seen.
If the segment is new it is cached, and if it is the first missing one the run
that it completes is assembled.
-/

namespace NeuVector.DataPath

open Library Arrivals Segments List

variable {pkt : PktState}

variable {first : Nat} {consumed : List Segment} {after : TcpWing}

section Carrying

variable {s : TcpSession} {p : TcpPacket} {env : TcpEnv}
  {cut : List Segment} {seen : Segment → Bool} {position length : Nat}
  {segment : Segment} {initSeq : UInt32}

def Carries (initSeq : UInt32) (p : TcpPacket) (segment : Segment) : Prop :=
  p.clip = segment.clip initSeq

section

variable (carries : Carries initSeq p segment)
include carries

theorem Carries.seq : p.seq = place initSeq segment.start := congrArg Clip.seq carries

theorem Carries.data : p.data = segment.data := congrArg Clip.data carries

theorem Carries.stop : p.stop = place initSeq (segment.start + segment.size) := by
  rw [← clip_stop, ← carries]
  rfl

theorem Carries.len : p.len = UInt32.ofNat segment.size := by
  unfold TcpPacket.len
  rw [carries]
  rfl

theorem Carries.payload (filled : 0 < segment.size) : p.len ≠ 0 := by
  intro empty
  have same := congrArg UInt32.toNat empty
  have short : segment.size < 65536 := segment.short
  rw [carries.len, toNat_ofNat_small short] at same
  exact Nat.ne_of_gt filled same

end

theorem Carries.cached {w : TcpWing} {asm : Asm} {lookup : Bool}
    (carries : Carries w.initSeq p segment) (memory : env.memory = true)
    (absent : lookup = true → asmLookup w.asmCache p.seq = none)
    (inserted : asmInsert w.asmCache (segment.clip w.initSeq) = some asm) :
    dpiCachePacket p env w lookup = some { w with asmCache := asm } := by
  have notFound : (lookup && (asmLookup w.asmCache p.seq).isSome) = false := by
    cases found : lookup with
    | false => rfl
    | true => rw [absent found]; rfl
  have carried : p.clip = segment.clip w.initSeq := carries
  unfold dpiCachePacket
  rw [notFound, memory, carried, inserted]
  rfl

/-- The packet fits: it carries a segment of the stream near to what has been
seen, and the cache has room for it. -/
structure Arrives (cut : List Segment) (seen : Segment → Bool) (w : TcpWing)
    (p : TcpPacket) (env : TcpEnv) (segment : Segment) : Prop where
  member : segment ∈ cut
  carries : Carries w.initSeq p segment
  behind : reached seen cut ≤ segment.start + 536870912
  ahead : segment.start + segment.size ≤ reached seen cut + 1073741824
  room : seen segment = false → env.memory = true ∧ w.asmCache.gross.toNat + segment.size < 65536

/-- What the parsers can be given once the first missing segment is there. -/
structure NextRun (cut : List Segment) (seen : Segment → Bool)
    (position first : Nat) (consumed : List Segment) : Prop where
  whole : cut.takeWhile seen = consumed ++ readable seen position cut
  front : Segments.Chain Segment.start Segment.size 0 first consumed
  chain : Segments.Chain Segment.start Segment.size first
    (reached seen cut) (readable seen position cut)
  below : first ≤ position

theorem nextRun_exists (whole : StreamCut length cut) (seen : Segment → Bool) (position : Nat) :
    ∃ first consumed, NextRun cut seen position first consumed := by
  obtain ⟨consumed, first, split, front, chain, below⟩ := whole.run_chain seen position
  exact ⟨first, consumed, split, front, chain, below⟩

section

variable {asm : Asm} {target : AsmTarget} (view : View length cut seen position)
include view

theorem View.runAhead (run : NextRun cut seen position first consumed)
    (more : position < reached seen cut) :
    RunAhead position first (reached seen cut) (readable seen position cut)
      (beyond seen position cut) := by
  refine ⟨run.chain, ?_, ?_, view.reached_near, ?_⟩
  · intro empty
    have chain := run.chain
    rw [empty] at chain
    have same : first = reached seen cut := chain
    have below := run.below
    omega
  · intro other member
    exact of_decide_eq_true (mem_filter.mp member).2
  · intro next head
    have member := mem_of_mem_head? head
    exact ⟨view.whole.early_start member, (view.spread.near next (mem_kept.mpr (Or.inr member))).1⟩

variable (cache : CacheOf initSeq (kept seen position cut) asm)
  (seq : target.seq = place initSeq position)
include cache seq

section

variable (long : target.len.toNat = 65535)
include long

theorem View.construct (run : NextRun cut seen position first consumed)
    (more : position < reached seen cut) (member : segment ∈ kept seen position cut) :
    asmConstruct asm target (place initSeq segment.start) =
      if (readable seen position cut).length = 1 ∨
          beyond seen position cut ≠ [] ∧ reached seen cut < segment.start then (.nop, target)
      else (.ok,
        { seq := place initSeq first
          len := UInt32.ofNat (reached seen cut - first)
          buffer := copyAll (fun segment => segment.start - first)
            Segment.data target.buffer (readable seen position cut) }) := by
  have small := view.small
  have clips := cache.clips
  rw [kept_eq] at clips small
  rw [total_append] at small
  have sizes := run.chain.total_eq
  have below := run.below
  have fits : ¬ target.len.toNat < reached seen cut - first := by omega
  rw [asmConstruct_segments clips (view.runAhead run more)
    (fun _ => (view.spread.near segment member).1) below ⟨by omega, by omega⟩ seq (by omega),
    if_neg fits]

theorem View.construct_next (member : segment ∈ readable seen position cut) :
    ∃ first consumed, NextRun cut seen position first consumed ∧
      asmConstruct asm target (place initSeq segment.start) =
        if (readable seen position cut).length = 1 then (.nop, target)
        else (.ok,
          { seq := place initSeq first
            len := UInt32.ofNat (reached seen cut - first)
            buffer := copyAll (fun segment => segment.start - first) Segment.data
              target.buffer (readable seen position cut) }) := by
  obtain ⟨first, consumed, run⟩ := nextRun_exists view.whole seen position
  have ahead : position < segment.start + segment.size := of_decide_eq_true (mem_filter.mp member).2
  have upper := run.chain.upper segment member
  refine ⟨first, consumed, run, ?_⟩
  rw [view.construct cache seq long run (by omega) (mem_kept.mpr (Or.inl member))]
  by_cases single : (readable seen position cut).length = 1
  · rw [if_pos (Or.inl single), if_pos single]
  · rw [if_neg single, if_neg]
    rintro (one | ⟨_, missing⟩)
    · exact single one
    · omega

theorem View.construct_early (member : segment ∈ beyond seen position cut) :
    asmConstruct asm target (place initSeq segment.start) = (.nop, target) := by
  obtain ⟨first, consumed, run⟩ := nextRun_exists view.whole seen position
  rcases Nat.eq_or_lt_of_le view.below with rfl | more
  · apply asmConstruct_hole cache.clips _ view.spread.near seq
    intro other kept
    have unread := (of_mem_live kept).2.2
    rcases mem_kept.mp kept with front | back
    · have upper := run.chain.upper other front
      omega
    · exact view.whole.early_start back
  · rw [view.construct cache seq long run more (mem_kept.mpr (Or.inr member)), if_pos]
    exact Or.inr ⟨ne_nil_of_mem member, view.whole.early_start member⟩

end

end

/-- Everything known about a new segment and the direction it arrives in. -/
structure NewSegment (length : Nat) (cut : List Segment) (seen : Segment → Bool)
    (position : Nat) (w : TcpWing) (p : TcpPacket) (env : TcpEnv)
    (segment : Segment) : Prop where
  whole : StreamCut length cut
  flow : Flow cut seen position w
  arrives : Arrives cut seen w p env segment
  unseen : seen segment = false

variable {w : TcpWing}

section

variable (fresh : NewSegment length cut seen position w p env segment)
include fresh

theorem NewSegment.start_le : reached seen cut ≤ segment.start :=
  fresh.whole.seen_chain.2.lower segment
    (mem_dropWhile_of_unseen fresh.arrives.member fresh.unseen)

theorem NewSegment.filled : 0 < segment.size := fresh.whole.filled segment fresh.arrives.member

theorem NewSegment.ahead : position < segment.start + segment.size := by
  have starts := fresh.start_le
  have below := fresh.flow.below
  have filled := fresh.filled
  omega

theorem NewSegment.near :
    Near position segment.start ∧ Near position (segment.start + segment.size) :=
  (fresh.flow.view fresh.whole).near_of_ahead fresh.arrives.ahead fresh.ahead

theorem NewSegment.readable_or_beyond :
    segment ∈ readable (mark seen segment) position cut ∨
      segment ∈ beyond (mark seen segment) position cut :=
  mem_kept.mp (mem_live fresh.arrives.member mark_self fresh.ahead)

theorem NewSegment.meets (next : segment.start = reached seen cut) :
    segment ∈ readable (mark seen segment) position cut ∧ segment.start + segment.size ≤
        reached (mark seen segment) cut := by
  have grows : reached seen cut + segment.size ≤ reached (mark seen segment) cut :=
    fresh.whole.reach_mark_next fresh.arrives.member fresh.unseen next
  refine ⟨?_, by omega⟩
  rcases fresh.readable_or_beyond with run | early
  · exact run
  · have behind : reached (mark seen segment) cut < segment.start := fresh.whole.early_start early
    omega

theorem NewSegment.waits (early : reached seen cut < segment.start) :
    segment ∈ beyond (mark seen segment) position cut ∧
      reached (mark seen segment) cut = reached seen cut := by
  have same : reached (mark seen segment) cut = reached seen cut := by
    unfold reached reach
    rw [fresh.whole.reach_mark_early early]
  refine ⟨?_, same⟩
  rcases fresh.readable_or_beyond with run | early
  · obtain ⟨_, _, next⟩ := nextRun_exists fresh.whole (mark seen segment) position
    have upper := next.chain.upper segment run
    omega
  · exact early

theorem NewSegment.place_kept :
    ∃ before after, kept seen position cut = before ++ after ∧
        kept (mark seen segment) position cut = before ++ segment :: after :=
  fresh.whole.live_mark fresh.arrives.member fresh.unseen fresh.ahead

theorem NewSegment.small : total Segment.size (kept (mark seen segment) position cut) < 65536 := by
  obtain ⟨before, after, old, new⟩ := fresh.place_kept
  have room := (fresh.arrives.room fresh.unseen).2
  have small := fresh.flow.small
  rw [fresh.flow.cache.gross, toNat_ofNat_small small, old, total_append] at room
  rw [new, total_append]
  simp only [total]
  omega

theorem NewSegment.reached_le : reached seen cut ≤ reached (mark seen segment) cut := by
  have starts := fresh.start_le
  rcases Nat.eq_or_lt_of_le starts with next | early
  · have grows := (fresh.meets next.symm).2
    omega
  · exact Nat.le_of_eq (fresh.waits early).2.symm

theorem NewSegment.window :
    ∀ other ∈ kept (mark seen segment) position cut, other.start + other.size ≤
        reached (mark seen segment) cut + 1073741824 := by
  intro other member
  have later := fresh.reached_le
  obtain ⟨inside, shown, unread⟩ := of_mem_live member
  by_cases same : other = segment
  · rw [same]
    have ahead := fresh.arrives.ahead
    omega
  · rw [mark_other same] at shown
    have window := fresh.flow.window other (mem_live inside shown unread)
    omega

theorem NewSegment.view : View length cut (mark seen segment) position :=
  ⟨fresh.whole, Nat.le_trans fresh.flow.below fresh.reached_le, fresh.small, fresh.window⟩

theorem NewSegment.insert :
    ∃ asm, dpiCachePacket p env w false = some { w with asmCache := asm } ∧
      CacheOf w.initSeq (kept (mark seen segment) position cut) asm := by
  obtain ⟨before, after, old, new⟩ := fresh.place_kept
  have cache := fresh.flow.cache
  have spread := fresh.view.spread
  rw [old] at cache
  rw [new] at spread ⊢
  obtain ⟨asm, inserted, stored⟩ := cache.insert spread
  exact ⟨asm, fresh.arrives.carries.cached
    (fresh.arrives.room fresh.unseen).1 nofun inserted, stored⟩

end

/-- The new segment is kept, or will be once the parsers have seen it. -/
def Stored (cut : List Segment) (seen : Segment → Bool) (position : Nat)
    (initSeq : UInt32) (env : TcpEnv) (segment : Segment) (pkt : PktState)
    (asm : Asm) : Prop :=
  CacheOf initSeq (kept seen position cut) asm ∧
      (pkt.cached = true ∨ segment.start + segment.size ≤ position) ∨
    pkt.cached = false ∧ env.memory = true ∧ CacheOf initSeq [] asm ∧
      kept seen position cut = [segment]

/-- The range and the bytes of what is readable. -/
def Offers (cut : List Segment) (seen : Segment → Bool) (position : Nat)
    (initSeq : UInt32) (p : TcpPacket) (pkt : PktState) : Prop :=
  ∃ first consumed, NextRun cut seen position first consumed ∧
    pkt.range p = (place initSeq first, place initSeq (reached seen cut)) ∧
    delivery p pkt =
      { seq := place initSeq first, bytes := (readable seen position cut).flatMap Segment.data }

structure AssembledNew (cut : List Segment) (seen : Segment → Bool)
    (position : Nat) (w : TcpWing) (p : TcpPacket) (env : TcpEnv)
    (segment : Segment) (after : TcpWing) (pkt : PktState) : Prop where
  initSeq : after.initSeq = w.initSeq
  nextSeq : after.nextSeq = w.nextSeq
  asmSeq : after.asmSeq = w.asmSeq
  stored : Stored cut (mark seen segment) position w.initSeq env segment pkt after.asmCache
  action : pkt.action = .none
  parsing : pkt.skipParser = false
  next : segment.start = reached seen cut → Offers cut (mark seen segment) position w.initSeq p pkt
  early : reached seen cut < segment.start → pkt.assembled = none

theorem NewSegment.offers_single (fresh : NewSegment length cut seen position w p env segment)
    (next : segment.start = reached seen cut) (plain : pkt.assembled = none)
    (single : (readable (mark seen segment) position cut).length = 1) :
    Offers cut (mark seen segment) position w.initSeq p pkt := by
  obtain ⟨first, consumed, run⟩ := nextRun_exists fresh.whole (mark seen segment) position
  obtain ⟨inside, _⟩ := fresh.meets next
  obtain ⟨only, isOnly⟩ := length_eq_one_iff.mp single
  rw [isOnly] at inside
  have same : segment = only := mem_singleton.mp inside
  have chain := run.chain
  rw [isOnly, ← same] at chain
  have starts : segment.start = first := chain.1
  have ends : first + segment.size = reached (mark seen segment) cut := chain.2
  have carries := fresh.arrives.carries
  refine ⟨first, consumed, run, ?_, ?_⟩
  · unfold PktState.range
    rw [plain, carries.seq, carries.stop, starts, ends]
  · unfold delivery
    rw [plain, isOnly, ← same, carries.seq, carries.data, starts, flatMap_singleton]

theorem View.offers_assembled (view : View length cut seen position)
    (run : NextRun cut seen position first consumed) (buffer : Nat → UInt8)
    (built : pkt.assembled = some
      { seq := place initSeq first
        len := UInt32.ofNat (reached seen cut - first)
        buffer := copyAll (fun segment => segment.start - first)
          Segment.data buffer (readable seen position cut) }) :
    Offers cut seen position initSeq p pkt := by
  have ordered := run.chain.le
  have short : reached seen cut - first < 131072 := by
    have sizes := run.chain.total_eq
    have small := view.small
    rw [kept_eq, total_append] at small
    omega
  refine ⟨first, consumed, run, ?_, ?_⟩
  · unfold PktState.range
    rw [built]
    simp only
    rw [place_add]
    congr 2
    omega
  · have shifted := run.chain.shift (Nat.le_refl first)
    rw [Nat.sub_self] at shifted
    have copied := @copyAll_flatMap Segment UInt8
      (fun segment => segment.start - first) Segment.data 0
      (reached seen cut - first) _ shifted buffer
    unfold delivery
    rw [built]
    simp only
    rw [toNat_ofNat_long short, range_eq_range', ← copied, Nat.sub_zero]

theorem NewSegment.assemble_direct (fresh : NewSegment length cut seen position w p env segment)
    (empty : asmCount w.asmCache = 0) (here : segment.start ≤ position) :
    AssembledNew cut seen position w p env segment w newPkt := by
  have cache := fresh.flow.cache
  have none : kept seen position cut = [] := by
    apply eq_nil_of_length_eq_zero
    rw [← cache.count]
    exact empty
  have single : kept (mark seen segment) position cut = [segment] := by
    obtain ⟨before, after, old, new⟩ := fresh.place_kept
    rw [none] at old
    obtain ⟨rfl, rfl⟩ := append_eq_nil_iff.mp old.symm
    rw [new, nil_append]
  rw [none] at cache
  refine ⟨rfl, rfl, rfl, ?_, rfl, rfl, ?_, ?_⟩
  · exact Or.inr ⟨rfl, (fresh.arrives.room fresh.unseen).1, cache, single⟩
  · intro next
    apply fresh.offers_single next rfl
    obtain ⟨inside, _⟩ := fresh.meets next
    have positive := List.length_pos_of_mem inside
    have whole := congrArg List.length (kept_eq (mark seen segment) position cut)
    rw [single, List.length_append, List.length_singleton] at whole
    omega
  · intro early
    have below := fresh.flow.below
    omega

theorem NewSegment.assemble (fresh : NewSegment length cut seen position (s.this p) p env segment) :
    ∃ after pkt, tcpAssembly p env s newPkt = (s.setThis p after, pkt) ∧
        AssembledNew cut seen position (s.this p) p env segment after pkt := by
  have carries := fresh.arrives.carries
  have payload := carries.payload fresh.filled
  have ahead := fresh.ahead
  obtain ⟨startNear, stopNear⟩ := fresh.near
  have notOld : ¬ (decide (p.len = 0) || u32Lte p.stop (s.this p).asmSeq) = true := by
    rw [decide_eq_false payload, Bool.false_or, carries.stop,
      fresh.flow.asmSeq, u32Lte_place stopNear (near_self position), decide_eq_true_eq]
    omega
  have late : u32Lt (s.this p).asmSeq p.seq = decide (position < segment.start) := by
    rw [fresh.flow.asmSeq, carries.seq]
    exact u32Lt_place (near_self position) startNear
  unfold tcpAssembly
  rw [if_neg notOld, late]
  by_cases direct : (decide (asmCount (s.this p).asmCache = 0) &&
      !decide (position < segment.start)) = true
  · rw [if_pos direct]
    rw [Bool.and_eq_true, decide_eq_true_eq, Bool.not_eq_true', decide_eq_false_iff_not] at direct
    refine ⟨s.this p, newPkt, ?_, ?_⟩
    · rw [setThis_this]
    · exact fresh.assemble_direct direct.1 (Nat.not_lt.mp direct.2)
  · rw [if_neg direct]
    obtain ⟨asm, inserted, cache⟩ := fresh.insert
    have noOverrun : (decide (AsmResult.nop = .more) ||
        decide (UInt32.ofNat dpiMaxPktLen < asm.gross)) = false := by
      rw [decide_eq_false (cache.within fresh.small)]
      rfl
    have stored : ∀ pkt : PktState, pkt.cached = true → Stored cut (mark seen segment) position
          (s.this p).initSeq env segment pkt asm :=
      fun _ cached => Or.inl ⟨cache, Or.inl cached⟩
    rw [inserted]
    simp only
    rw [carries.seq]
    generalize made : ({ seq := (s.this p).asmSeq, len := _, buffer := _ } : AsmTarget) = target
    have seq : target.seq = _ := (congrArg AsmTarget.seq made).symm.trans fresh.flow.asmSeq
    have long : target.len.toNat = 65535 := made ▸ rfl
    rcases Nat.eq_or_lt_of_le fresh.start_le with next | early
    · obtain ⟨first, consumed, run, built⟩ :=
        fresh.view.construct_next cache seq long (fresh.meets next.symm).1
      rw [built]
      by_cases single : (readable (mark seen segment) position cut).length = 1
      · rw [if_pos single]
        simp only [noOverrun, Bool.false_eq_true, if_false]
        refine ⟨_, _, rfl, rfl, rfl, rfl, stored _ rfl, rfl, rfl, ?_, ?_⟩
        · exact fun _ => fresh.offers_single next.symm rfl single
        · exact fun _ => rfl
      · rw [if_neg single]
        refine ⟨_, _, rfl, rfl, rfl, rfl, stored _ rfl, rfl, rfl, ?_, ?_⟩
        · exact fun _ => fresh.view.offers_assembled run target.buffer rfl
        · intro early
          omega
    · rw [fresh.view.construct_early cache seq long (fresh.waits early).1]
      simp only [noOverrun, Bool.false_eq_true, if_false]
      refine ⟨_, _, rfl, rfl, rfl, rfl, stored _ rfl, rfl, rfl, ?_, ?_⟩
      · intro next
        omega
      · exact fun _ => rfl

end Carrying

end NeuVector.DataPath
