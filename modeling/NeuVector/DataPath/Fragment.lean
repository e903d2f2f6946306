import NeuVector.Library.RcuMap
import NeuVector.DataPath.Reassembly

/-!
# Fragment tracking

This module embeds `dpi_frag.c`.  Fragments of one datagram are collected in a
tracker, and the datagram is assembled once both of its ends have been seen.
IPv4 and IPv6 keep their trackers in separate maps.  The source deletes those
of IPv6 through the IPv4 map, which hides them but leaves them linked when they
are freed; here they are gone.  The assembling functions are declared `bool`,
so their results pass through the conversions of C.  The masks of
`netinet/ip6.h` are for the fragment field as it lies in memory; the source
applies them to the field in the order of the host.
-/

namespace NeuVector.DataPath

open Library

inductive ByteOrder where
  | big
  | little
  deriving DecidableEq

def ip6fOffMask : ByteOrder → UInt16
  | .big => 0xfff8
  | .little => 0xf8ff

def ip6fMoreFrag : ByteOrder → UInt16
  | .big => 0x0001
  | .little => 0x0100

/-- A packet as far as defragmentation reads it: `payload` holds the bytes
from `l4` up to its length, and `nxt` and `fragNxt` are the next header values
of the IP header and of the fragment header. -/
structure Packet (Address Ident : Type) where
  src : Address
  dst : Address
  ident : Ident
  ingress : Bool
  l3 : Nat
  l4 : Nat
  fragOff : UInt16
  nxt : UInt8
  fragNxt : UInt8
  payload : List UInt8
  defragData : Nat → UInt8
  bounded : l4 + payload.length < 65536

abbrev Ip4Packet := Packet UInt32 UInt16
abbrev Ip6Packet := Packet (BitVec 128) UInt32

structure FragKey (Address : Type) where
  src : Address
  dst : Address
  ipid : UInt16
  ingress : Bool
  deriving DecidableEq

/-- The tracker of one datagram; only IPv6 uses the next header. -/
structure FragTrac where
  length : Nat
  first : Bool
  last : Bool
  nextHeader : UInt8
  frags : Asm
  deriving DecidableEq

def FragTrac.new : FragTrac :=
  { length := 0, first := false, last := false, nextHeader := 0, frags := asmInit }

/-- What a fragment contributes to its datagram. -/
structure Piece where
  clip : Clip
  more : Bool
  deriving DecidableEq

def payloadClip {Address Ident : Type} (seq : UInt32) (p : Packet Address Ident) : Clip :=
  { seq := seq, data := p.payload, short := Nat.lt_of_le_of_lt (Nat.le_add_left _ _) p.bounded }

variable (order : ByteOrder) (trac : FragTrac) (p : Ip4Packet)

def ipPiece : Piece :=
  { clip := payloadClip ((p.fragOff &&& 0x1fff).toUInt32 <<< 3) p
    more := p.fragOff &&& 0x2000 ≠ 0 }

def ip6Piece (p : Ip6Packet) : Piece :=
  { clip := payloadClip (p.fragOff &&& ip6fOffMask order).toUInt32 p
    more := p.fragOff &&& ip6fMoreFrag order ≠ 0 }

/-- The fragment as its header has it. -/
def sentPiece (p : Ip6Packet) : Piece :=
  { clip := payloadClip (p.fragOff &&& 0xfff8).toUInt32 p, more := p.fragOff &&& 0x0001 ≠ 0 }

def teardropCheck (piece clip : Clip) : Bool :=
  u32Overlap piece.seq (piece.seq + piece.len) clip.seq (clip.seq + clip.len)

/-- Account for the end of a fragment; no result when it is inconsistent with
what is known of the datagram. -/
def updateLength (more : Bool) (stop : Nat) : Option FragTrac :=
  if more then
    if stop > trac.length then
      if trac.last then none else some { trac with length := stop }
    else some trac
  else if stop < trac.length ∨ (trac.last ∧ stop ≠ trac.length) then none
  else some { trac with last := true, length := stop }

def saveClip (clip : Clip) : FragTrac :=
  match asmInsert trac.frags clip with
  | none => trac
  | some frags => { trac with frags := frags }

def acceptPiece (piece : Piece) : FragTrac :=
  match updateLength trac piece.more (piece.clip.seq + piece.clip.len).toNat with
  | none => trac
  | some trac => saveClip trac piece.clip

/-- The tracker after an IPv4 fragment, and whether a teardrop was reported. -/
def ipfragHold : FragTrac × Bool :=
  let piece := ipPiece p
  if piece.clip.len = 0 then (trac, false)
  else if trac.frags.tree.toList.any (teardropCheck piece.clip) then (trac, true)
  else
    let trac := if piece.clip.seq = 0 then { trac with first := true } else trac
    (acceptPiece trac piece, false)

def ip6fragHold (p : Ip6Packet) : FragTrac × Bool :=
  let piece := ip6Piece order p
  let trac :=
    if piece.clip.seq = 0 then { trac with first := true, nextHeader := p.fragNxt }
    else trac
  (acceptPiece trac piece, false)

def boolOfInt (value : Int) : Bool := value ≠ 0
def intOfBool (value : Bool) : Int := if value then 1 else 0

structure Construction (Address Ident : Type) where
  ret : Bool
  packet : Packet Address Ident
  removed : Bool

/-- Place assembled bytes behind the first `header` bytes of the buffer; the
length field of the packet has sixteen bits. -/
def Packet.assembled {Address Ident : Type} (p : Packet Address Ident)
    (header : Nat) (cons : AsmTarget) : Packet Address Ident :=
  { p with
    l4 := header % 65536
    payload := (List.range ((header + cons.len.toNat) % 65536 - header % 65536)).map cons.buffer
    bounded := by
      rw [List.length_map, List.length_range]
      omega }

def fragAssemble (header : Nat) (buffer : Nat → UInt8) : AsmResult × AsmTarget :=
  asmConstruct trac.frags
    { seq := 0
      len := UInt32.ofNat dpiMaxPktLen - UInt32.ofNat header
      buffer := fun index => buffer (header + index) }
    (UInt32.ofNat trac.length - 1)

def ipfragConstruct : Construction UInt32 UInt16 :=
  match fragAssemble trac p.l4 p.defragData with
  | (.ok, cons) =>
    { ret := boolOfInt 0, packet := { p.assembled p.l4 cons with fragOff := 0 }, removed := true }
  | _ => { ret := boolOfInt (-1), packet := p, removed := false }

def ip6fragConstruct (p : Ip6Packet) : Construction (BitVec 128) UInt32 :=
  match fragAssemble trac (p.l3 + 40) p.defragData with
  | (.ok, cons) =>
    { ret := boolOfInt 0
      packet := { p.assembled (p.l3 + 40) cons with nxt := trac.nextHeader }
      removed := true }
  | _ => { ret := boolOfInt (-1), packet := p, removed := false }

structure DefragResult (Address Ident : Type) where
  ret : Int
  packet : Packet Address Ident
  teardrop : Bool
  map : RcuMap (FragKey Address) FragTrac

section Tracking

variable {Address Ident : Type} [DecidableEq Address]

def tracFor (map : RcuMap (FragKey Address) FragTrac) (key : FragKey Address) : FragTrac :=
  (map.lookup key).getD .new

/-- The part shared by both protocols: find or create the tracker, hold the
fragment, and assemble once both ends are known. -/
def trackFragment (hold : FragTrac → Packet Address Ident → FragTrac × Bool)
    (construct : FragTrac → Packet Address Ident → Construction Address Ident)
    (map : RcuMap (FragKey Address) FragTrac) (key : FragKey Address)
    (p : Packet Address Ident) : DefragResult Address Ident :=
  let trac := tracFor map key
  let map := if (map.lookup key).isNone then map.add key trac else map
  let (held, teardrop) := hold trac p
  let map := map.modify key fun _ => held
  if held.first && held.last then
    let built := construct held p
    { ret := intOfBool built.ret
      packet := built.packet
      teardrop := teardrop
      map := if built.removed then map.del key else map }
  else { ret := -1, packet := p, teardrop := teardrop, map := map }

end Tracking

def ipKey : FragKey UInt32 := { src := p.src, dst := p.dst, ipid := p.ident, ingress := p.ingress }

/-- The identification of IPv6 is cut to sixteen bits. -/
def ip6Key (p : Ip6Packet) : FragKey (BitVec 128) :=
  { src := p.src, dst := p.dst, ipid := p.ident.toUInt16, ingress := p.ingress }

def dpiIpDefrag (map : RcuMap (FragKey UInt32) FragTrac) (p : Ip4Packet) :
    DefragResult UInt32 UInt16 :=
  trackFragment ipfragHold ipfragConstruct map (ipKey p) p

/-- A fragment header without offset and without more fragments, of a datagram
that is not tracked. -/
def pseudoHeader (map : RcuMap (FragKey (BitVec 128)) FragTrac) (p : Ip6Packet) : Bool :=
  (map.lookup (ip6Key p)).isNone && p.fragOff &&& ip6fOffMask order == 0 &&
    p.fragOff &&& ip6fMoreFrag order == 0

def dpiIpv6Defrag (map : RcuMap (FragKey (BitVec 128)) FragTrac)
    (p : Ip6Packet) : DefragResult (BitVec 128) UInt32 :=
  if pseudoHeader order map p then { ret := 0, packet := p, teardrop := false, map := map }
  else trackFragment (ip6fragHold order) ip6fragConstruct map (ip6Key p) p

structure FragState where
  ip4 : RcuMap (FragKey UInt32) FragTrac
  ip6 : RcuMap (FragKey (BitVec 128)) FragTrac

def FragState.empty : FragState := { ip4 := .empty, ip6 := .empty }

/-- A received packet, or the timeout of a tracker. -/
inductive FragEvent where
  | ip4 (p : Ip4Packet)
  | ip6 (p : Ip6Packet)
  | release4 (key : FragKey UInt32)
  | release6 (key : FragKey (BitVec 128))

/-- What the caller of defragmentation goes on with. -/
structure FragOutcome where
  ret : Int
  payload : List UInt8
  deriving DecidableEq

/-- The test of `dpi_parse_ipv4` before it calls `dpi_ip_defrag`. -/
def isFragment : Bool := p.fragOff &&& (0x1fff ||| 0x2000) ≠ 0

def fragStep (state : FragState) : FragEvent → FragState × Option FragOutcome
  | .ip4 p =>
    if isFragment p then
      let result := dpiIpDefrag state.ip4 p
      ({ state with ip4 := result.map },
        some { ret := result.ret, payload := result.packet.payload })
    else (state, none)
  | .ip6 p =>
    let result := dpiIpv6Defrag order state.ip6 p
    ({ state with ip6 := result.map }, some { ret := result.ret, payload := result.packet.payload })
  | .release4 key => ({ state with ip4 := state.ip4.del key }, none)
  | .release6 key => ({ state with ip6 := state.ip6.del key }, none)

def fragRun (state : FragState) (events : List FragEvent) : FragState :=
  events.foldl (fun state event => (fragStep order state event).1) state

end NeuVector.DataPath
