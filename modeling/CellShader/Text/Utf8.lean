/-!
# Text as bytes

UTF-8 in its strict form: no overlong forms, no surrogates, nothing beyond the last code point.  A
fault names the bytes that were taken together when the text turned out not to continue.
-/

namespace CellShader.Text

/-- Why bytes are not text. -/
inductive Utf8Reason
  | invalidStart
  | invalidContinuation
  | unexpectedEnd
  deriving DecidableEq, Repr

/-- Bytes that are not text: `count` of them from `position` on, the first being `lead`. -/
structure Utf8Fault where
  lead : UInt8
  position : Nat
  count : Nat
  reason : Utf8Reason
  deriving DecidableEq, Repr

/-- A character of which some bytes are still missing: where it began and with which byte, how many
bytes are missing, the bounds of the next one, and the bits read so far. -/
structure Utf8Pending where
  position : Nat
  lead : UInt8
  missing : Nat
  low : UInt8
  high : UInt8
  bits : Nat

/-- What a byte in the place of a first byte begins. -/
inductive Utf8Lead
  | character (c : Char)
  | sequence (missing : Nat) (low high : UInt8) (bits : Nat)
  | invalid

/-- Read a first byte.  The bounds on the second byte keep out overlong forms, surrogates and what
lies beyond the last code point. -/
def utf8Lead (b : UInt8) : Utf8Lead :=
  if b < 0x80 then .character (Char.ofNat b.toNat)
  else if b < 0xC2 then .invalid
  else if b < 0xE0 then .sequence 0 0x80 0xBF (b.toNat % 0x20)
  else if b < 0xF0 then
    .sequence 1 (if b = 0xE0 then 0xA0 else 0x80) (if b = 0xED then 0x9F else 0xBF)
      (b.toNat % 0x10)
  else if b < 0xF5 then
    .sequence 2 (if b = 0xF0 then 0x90 else 0x80) (if b = 0xF4 then 0x8F else 0xBF)
      (b.toNat % 0x08)
  else .invalid

/-- Read on from the byte at `position`, inside the character `pending` if there is one; the number
of bytes missing from it does not count the next. -/
def decodeFrom : Option Utf8Pending → Nat → List UInt8 → Except Utf8Fault (List Char)
  | none, _, [] => .ok []
  | some p, position, [] => .error ⟨p.lead, p.position, position - p.position, .unexpectedEnd⟩
  | none, position, b :: bs =>
    match utf8Lead b with
    | .character c => (decodeFrom none (position + 1) bs).map (c :: ·)
    | .sequence missing low high bits =>
      decodeFrom (some ⟨position, b, missing, low, high, bits⟩) (position + 1) bs
    | .invalid => .error ⟨b, position, 1, .invalidStart⟩
  | some p, position, b :: bs =>
    if p.low ≤ b ∧ b ≤ p.high then
      let bits := p.bits * 0x40 + b.toNat % 0x40
      match p.missing with
      | 0 => (decodeFrom none (position + 1) bs).map (Char.ofNat bits :: ·)
      | missing + 1 =>
        decodeFrom (some { p with missing := missing, low := 0x80, high := 0xBF, bits := bits })
          (position + 1) bs
    else .error ⟨p.lead, p.position, position - p.position, .invalidContinuation⟩

/-- The text that the bytes spell. -/
def decode (bytes : List UInt8) : Except Utf8Fault (List Char) := decodeFrom none 0 bytes

/-- The bytes of one character. -/
def encodeChar (c : Char) : List UInt8 :=
  let n := c.toNat
  if n < 0x80 then [UInt8.ofNat n]
  else if n < 0x800 then [UInt8.ofNat (0xC0 + n / 0x40), UInt8.ofNat (0x80 + n % 0x40)]
  else if n < 0x10000 then
    [UInt8.ofNat (0xE0 + n / 0x1000), UInt8.ofNat (0x80 + n / 0x40 % 0x40),
      UInt8.ofNat (0x80 + n % 0x40)]
  else
    [UInt8.ofNat (0xF0 + n / 0x40000), UInt8.ofNat (0x80 + n / 0x1000 % 0x40),
      UInt8.ofNat (0x80 + n / 0x40 % 0x40), UInt8.ofNat (0x80 + n % 0x40)]

/-- The bytes of a text. -/
def encode (cs : List Char) : List UInt8 := cs.flatMap encodeChar

/-- How many bytes a text takes. -/
def byteCount (s : String) : Nat := (encode s.toList).length

namespace Utf8Reason

def message : Utf8Reason → String
  | invalidStart => "invalid start byte"
  | invalidContinuation => "invalid continuation byte"
  | unexpectedEnd => "unexpected end of data"

end Utf8Reason

end CellShader.Text
