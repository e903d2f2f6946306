import NeuVector.DataPath.HttpFraming

/-!
# Lengths as they are written

The number in a content length header or in a chunk size line, against the
length that the parser goes on with.  Both are gathered in 32 bits, so a number
that does not fit becomes another one unless a threat is raised for it.
-/

namespace NeuVector.DataPath

/-- The number in a content length header: its only token, made of digits that
may follow a plus sign. -/
def writtenLength (value : List UInt8) : Option Nat :=
  match tokens value with
  | [token] =>
    let digits := if token.head? = some 43 then token.tail else token
    if digits ≠ [] ∧ digits.all isDigit then some (decimalValue digits) else none
  | _ => none

/-- The number that the leading hexadecimal digits continue. -/
def hexNumber (value : Nat) : List UInt8 → Nat
  | [] => value
  | c :: rest =>
    match c2hex c with
    | none => value
    | some digit => hexNumber (value * 16 + digit.toNat) rest

/-- The number in a chunk size line: its leading hexadecimal digits. -/
def writtenChunk (line : List UInt8) : Option Nat :=
  if (line.head?.bind c2hex).isSome then some (hexNumber 0 line) else none

/-- The length is the written one unless a threat is raised; the parser takes
the rest as the body only together with a threat. -/
def LengthKept (written : Option Nat) (length : UInt32) (threats : List HttpThreat) : Prop :=
  threats ≠ [] ∨ written = some length.toNat

theorem written_iff {written : Option Nat} {length : UInt32}
    (reads : ∀ n, written = some n → length = UInt32.ofNat n) :
    written = some length.toNat ↔ ∃ n, written = some n ∧ n < 4294967296 := by
  constructor
  · intro same
    exact ⟨length.toNat, same, length.toNat_lt⟩
  · rintro ⟨n, same, small⟩
    rw [same, reads n same, UInt32.toNat_ofNat_of_lt' small]

variable {value : List UInt8} {n : Nat}

theorem lengthField_written (written : writtenLength value = some n) :
    lengthField value = .value n := by
  unfold writtenLength at written
  split at written
  next token only =>
    simp only [Option.ite_none_right_eq_some, Option.some.injEq] at written
    obtain ⟨⟨filled, digits⟩, same⟩ := written
    unfold lengthField
    rw [only]
    by_cases plus : token.head? = some 43
    · rw [if_pos plus] at same
      simp [plus, same]
    · rw [if_neg plus] at same filled digits
      have positive : token.head? ≠ some 45 := by
        intro minus
        have digit := List.all_eq_true.mp digits 45 (List.mem_of_mem_head? minus)
        exact absurd digit (by decide)
      simp [plus, positive, same]
  · cases written

theorem hexValue_eq (line : List UInt8) (value : Nat) :
    hexValue (UInt32.ofNat value) line = UInt32.ofNat (hexNumber value line) := by
  induction line generalizing value with
  | nil => rfl
  | cons c rest induction =>
    unfold hexValue hexNumber
    cases c2hex c with
    | none => rfl
    | some digit =>
      dsimp only
      have more : UInt32.ofNat value <<< 4 + digit = UInt32.ofNat (value * 16 + digit.toNat) := by
        apply UInt32.toNat_inj.mp
        simp [Nat.shiftLeft_eq]
      rw [more]
      exact induction _

/-- The length used for a body is the number in the message or a threat is
raised, for a content length if and only if it is a number below 2^32, is
negative, follows a negative one or differs from the one before it, and for a
chunk size if and only if it is a number below 2^32 or has bit 31 set. -/
theorem http_lengths_written_iff (w : HttpWing) (value : List UInt8)
    (scan : BodyScan) (shift : Nat) :
    (LengthKept (writtenLength value) (httpHeaderContentLength w value).1.contentLen
          (httpHeaderContentLength w value).2 ↔
        w.negativeLen = true ∨ lengthField value = .negative ∨
          (w.hasContentLen = true ∧ w.contentLen ≠ ((lengthField value).read w).contentLen) ∨
          ∃ n, writtenLength value = some n ∧ n < 4294967296) ∧
    (LengthKept (writtenChunk (scan.rest.take shift)) (chunkLength scan shift).wing.contentLen
          ((chunkLength scan shift).threats.drop scan.threats.length) ↔
        hexValue 0 (scan.rest.take shift) &&& 0x80000000 ≠ 0 ∨
          ∃ n, writtenChunk (scan.rest.take shift) = some n ∧ n < 4294967296) := by
  constructor
  · unfold httpHeaderContentLength
    rw [consumeTokens_contentLength, ← or_assoc, ← LengthField.read_negativeLen]
    dsimp only
    rw [LengthField.read_hasContentLen]
    by_cases flagged : ((lengthField value).read w).negativeLen = true
    · simp [LengthKept, flagged]
    · by_cases other : w.hasContentLen = true ∧
          w.contentLen ≠ ((lengthField value).read w).contentLen
      · simp [LengthKept, flagged, other]
      · have reads : ∀ n, writtenLength value = some n →
            ((lengthField value).read w).contentLen = UInt32.ofNat n := by
          intro n written
          rw [lengthField_written written]
          rfl
        rw [if_neg flagged, ← written_iff reads]
        simp [LengthKept, flagged, other, setBodyContentLength]
  · have reads : ∀ n, writtenChunk (scan.rest.take shift) = some n →
        hexValue 0 (scan.rest.take shift) = UInt32.ofNat n := by
      intro n written
      unfold writtenChunk at written
      split at written
      · cases written
        exact hexValue_eq _ 0
      · cases written
    rw [← written_iff reads]
    unfold chunkLength LengthKept
    by_cases large : hexValue 0 (scan.rest.take shift) &&& 0x80000000 ≠ 0
    · simp [large]
    · simp [large]

/-- A content length of 2^32 + 1 and a chunk size of 2^32 + 1 both become 1. -/
theorem large_lengths_become_one :
    (writtenLength (ascii ['4', '2', '9', '4', '9', '6', '7', '2', '9', '7']) = some 4294967297 ∧
      httpHeaderContentLength (newWing 0)
          (ascii ['4', '2', '9', '4', '9', '6', '7', '2', '9', '7']) =
        ({ newWing 0 with contentLen := 1, hasContentLen := true }, [])) ∧
    writtenChunk (ascii ['1', '0', '0', '0', '0', '0', '0', '0', '1'] ++ crlf) = some 4294967297 ∧
      hexValue 0 (ascii ['1', '0', '0', '0', '0', '0', '0', '0', '1'] ++ crlf) = 1 := by decide

end NeuVector.DataPath
