import Mathlib.Tactic.Common

/-!
# Lengths of SSLv2 hellos

`ssl_parse_v2` compares the cipher length of a hello with what the other
lengths leave of the record, a difference in sixteen bits.  The module says
for which lengths it agrees with the sum of the lengths.
-/

namespace NeuVector.DataPath

def byteAt (bytes : List UInt8) (index : Nat) : UInt8 := bytes.getD index 0

/-- `GET_BIG_INT16` at an offset of the packet. -/
def bigInt16 (bytes : List UInt8) (index : Nat) : UInt16 :=
  (byteAt bytes index).toUInt16 <<< 8 ||| (byteAt bytes (index + 1)).toUInt16

inductive SslVersion where
  | none
  | ssl2TwoByte
  | ssl2ThreeByte
  | ssl2Pct
  | ssl3 (version : UInt16)
  deriving DecidableEq

def isSsl3 (version : UInt16) : Bool := 0x0300 ≤ version && version ≤ 0x0303

/-- The version that the first record of a packet is taken for. -/
def getSslVer (fromClient : Bool) (ptr : List UInt8) (len : Nat) : SslVersion :=
  let type := byteAt ptr 0
  if (type = 20 ∨ type = 21 ∨ type = 22) ∧ isSsl3 (bigInt16 ptr 1) then .ssl3 (bigInt16 ptr 1)
  else if 0x80 ≤ byteAt ptr 0 then
    let rlen := (byteAt ptr 0 &&& 0x7f).toNat * 256 + (byteAt ptr 1).toNat
    let type := byteAt ptr 2
    let ver := if type = 4 then bigInt16 ptr 5 else bigInt16 ptr 3
    if ver = 0x0002 ∨ isSsl3 ver then
      if type = 0 ∧ rlen = len - 2 ∨ type = 1 ∨ type = 4 then .ssl2TwoByte else .none
    else if 0x0100 ≤ ver ∧ ver < 0x0300 ∧ type = 1 ∧ rlen ≤ len - 2 ∧ 11 < len ∧
        bigInt16 ptr 5 = 1 ∧ bigInt16 ptr 7 = 1 ∧ 16 ≤ bigInt16 ptr 9 ∧ bigInt16 ptr 9 ≤ 32 then
      .ssl2Pct
    else .none
  else
    let rlen := (byteAt ptr 0 &&& 0x3f).toNat * 256 + (byteAt ptr 1).toNat
    if !fromClient ∨ rlen = len - 3 then .ssl2ThreeByte else .none

inductive SslFormat where
  | fits
  | wrong
  | ignore
  | defer
  deriving DecidableEq

/-- What becomes of a record: its format, whether the cipher overflow threat is
raised, and whether what follows is encrypted. -/
structure V2Result where
  format : SslFormat
  cipherOverflow : Bool
  encrypted : Bool
  deriving DecidableEq

def sslParseV2 (ptr : List UInt8) (len : Nat) (recLen : UInt16) : V2Result :=
  match byteAt ptr 0 with
  | 0 => ⟨.fits, false, false⟩
  | 1 =>
    if 9 ≤ recLen then
      if len < 9 then ⟨.defer, false, false⟩
      else
        let expect := recLen - 9 - bigInt16 ptr 5 - bigInt16 ptr 7
        if bigInt16 ptr 3 = expect then ⟨.fits, false, false⟩
        else if expect < bigInt16 ptr 3 then ⟨.ignore, true, false⟩
        else ⟨.ignore, false, false⟩
    else ⟨.wrong, false, false⟩
  | 2 => ⟨.fits, false, true⟩
  | 4 =>
    if 11 ≤ recLen then
      if len < 11 then ⟨.defer, false, false⟩
      else
        let expect := recLen - 11 - bigInt16 ptr 9 - bigInt16 ptr 5
        if bigInt16 ptr 7 = expect then ⟨.fits, false, false⟩ else ⟨.ignore, false, false⟩
    else ⟨.wrong, false, false⟩
  | _ => ⟨.wrong, false, false⟩

def sslMinRecordLen : Nat := 7

def recordLen (packet : List UInt8) : UInt16 := bigInt16 packet 0 - 0x8000

/-- The case `SSL_2_2BYTE` of `ssl_parser`, for the first record of a packet. -/
def sslParseFirst (packet : List UInt8) : V2Result :=
  sslParseV2 (packet.drop 2) (packet.length - 2) (recordLen packet)

/-- The packet is taken for a hello of the type, with its first bytes present. -/
def TakenFor (fromClient : Bool) (packet : List UInt8) (type : UInt8) (least : Nat) : Prop :=
  sslMinRecordLen < packet.length ∧ getSslVer fromClient packet packet.length = .ssl2TwoByte ∧
    byteAt (packet.drop 2) 0 = type ∧ least ≤ (recordLen packet).toNat ∧
    least ≤ packet.length - 2

/-- The fixed part of a hello and the two lengths besides that of the ciphers. -/
def restLen (packet : List UInt8) (least first second : Nat) : Nat :=
  least + (bigInt16 (packet.drop 2) first).toNat + (bigInt16 (packet.drop 2) second).toNat

def cipherLen (packet : List UInt8) (index : Nat) : Nat := (bigInt16 (packet.drop 2) index).toNat

theorem toNat_expect (recLen least first second : UInt16) :
    (recLen - least - first - second).toNat =
      (recLen.toNat + 196608 - least.toNat - first.toNat - second.toNat) % 65536 := by
  have bounds := And.intro least.toNat_lt (And.intro first.toNat_lt second.toNat_lt)
  simp only [UInt16.toNat_sub]
  omega

/-- The sixteen bit difference agrees with the lengths as integers as long as
the record has room for the rest, or by chance. -/
theorem ssl2_hello_lengths_exact_iff (fromClient : Bool) (packet : List UInt8) :
    (TakenFor fromClient packet 1 9 →
      let rest := restLen packet 9 5 7
      let total := rest + cipherLen packet 3
      let len := (recordLen packet).toNat
      (((sslParseFirst packet).cipherOverflow = true ↔ len < total) ∧
        ((sslParseFirst packet).format = .fits ↔ total = len) ↔
      rest ≤ len ∨ len + 65536 < total ∧ (rest ≤ len + 65536 ∨ len + 131072 < total))) ∧
    (TakenFor fromClient packet 4 11 →
      let total := restLen packet 11 5 9 + cipherLen packet 7
      let len := (recordLen packet).toNat
      (((sslParseFirst packet).format = .fits ↔ total = len) ↔
        total ≠ len + 65536 ∧ total ≠ len + 131072)) := by
  unfold TakenFor sslParseFirst restLen cipherLen
  generalize packet.drop 2 = ptr
  generalize recordLen packet = recLen
  have bounds := fun index => (bigInt16 ptr index).toNat_lt
  have range := recLen.toNat_lt
  constructor
  · rintro ⟨_, _, type, least, present⟩
    have long : 9 ≤ recLen := least
    have there : ¬ packet.length - 2 < 9 := by omega
    have expect := toNat_expect recLen 9 (bigInt16 ptr 5) (bigInt16 ptr 7)
    have known := And.intro (bounds 3) (And.intro (bounds 5) (bounds 7))
    simp only [sslParseV2, type, if_pos long, if_neg there, ← UInt16.toNat_inj,
      UInt16.lt_iff_toNat_lt, expect]
    have nine : (9 : UInt16).toNat = 9 := rfl
    rw [nine]
    split
    · grind
    · split
      · grind
      · grind
  · rintro ⟨_, _, type, least, present⟩
    have long : 11 ≤ recLen := least
    have there : ¬ packet.length - 2 < 11 := by omega
    have expect := toNat_expect recLen 11 (bigInt16 ptr 9) (bigInt16 ptr 5)
    have known := And.intro (bounds 5) (And.intro (bounds 7) (bounds 9))
    have eleven : (11 : UInt16).toNat = 11 := rfl
    simp only [sslParseV2, type, if_pos long, if_neg there, ← UInt16.toNat_inj, expect, eleven]
    split
    · grind
    · grind

def wrappingHello : List UInt8 := [0x80, 9, 1, 0, 2, 0, 0, 0, 1, 0, 0]

/-- A session id of one byte in a record of the fixed part only: the
difference wraps around and no threat is raised. -/
theorem ssl2_hello_overflow_missed : ∃ packet, TakenFor true packet 1 9 ∧
    (recordLen packet).toNat < restLen packet 9 5 7 + cipherLen packet 3 ∧
      (sslParseFirst packet).cipherOverflow = false := by
  refine ⟨wrappingHello, ?_, by decide, by decide⟩
  unfold TakenFor
  decide

end NeuVector.DataPath
