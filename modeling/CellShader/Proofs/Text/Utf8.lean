import CellShader.Text.Utf8
import Mathlib.Tactic.IntervalCases

/-!
# Bytes read back as text

The bytes of a character are a first one, which tells how many there are, and tail bytes with six
bits each.  Reading gathers the bits again: one more tail byte gives `n` from `n / 0x40`
(`decodeFrom_tail`, `decodeFrom_last`).  A character is read back by cases on how many bytes it has
(`decodeFrom_encodeChar`), and a text character by character (`decode_encode`).
-/

namespace CellShader.Text

/-! ## Tail bytes -/

/-- A byte behind the first one of a character, with the last six bits of `n`. -/
def tailByte (n : Nat) : UInt8 := UInt8.ofNat (0x80 + n % 0x40)

theorem toNat_tailByte (n : Nat) : (tailByte n).toNat = 0x80 + n % 0x40 := by
  rw [tailByte, UInt8.toNat_ofNat']
  omega

/-- The bits of a tail byte behind the other ones. -/
theorem bits_tailByte (n : Nat) : n / 0x40 * 0x40 + (tailByte n).toNat % 0x40 = n := by
  rw [toNat_tailByte]
  omega

theorem le_tail (n : Nat) : (0x80 : UInt8).toNat ≤ 0x80 + n % 0x40 := Nat.le_add_right _ _

theorem tail_le (n : Nat) : 0x80 + n % 0x40 ≤ (0xBF : UInt8).toNat := by
  show _ ≤ 0xBF
  omega

section Bounds

variable {p : Prop} [Decidable p] {b : UInt8} {n : Nat}

theorem ite_le_tail (h : p → b.toNat ≤ 0x80 + n % 0x40) :
    (if p then b else 0x80).toNat ≤ 0x80 + n % 0x40 := by
  split
  · exact h ‹p›
  · exact le_tail n

theorem tail_le_ite (h : p → 0x80 + n % 0x40 ≤ b.toNat) :
    0x80 + n % 0x40 ≤ (if p then b else 0xBF).toNat := by
  split
  · exact h ‹p›
  · exact tail_le n

end Bounds

section Tail

variable {low high lead : UInt8} {n start position : Nat} {bs : List UInt8}
  (hlow : low.toNat ≤ 0x80 + n % 0x40) (hhigh : 0x80 + n % 0x40 ≤ high.toNat)

include hlow hhigh

theorem tailByte_within : low ≤ tailByte n ∧ tailByte n ≤ high := by
  rw [UInt8.le_iff_toNat_le, UInt8.le_iff_toNat_le, toNat_tailByte]
  exact ⟨hlow, hhigh⟩

theorem decodeFrom_tail (missing : Nat) :
    decodeFrom (some ⟨start, lead, missing + 1, low, high, n / 0x40⟩) position (tailByte n :: bs) =
      decodeFrom (some ⟨start, lead, missing, 0x80, 0xBF, n⟩) (position + 1) bs := by
  rw [decodeFrom, if_pos (tailByte_within hlow hhigh)]
  simp only [bits_tailByte]

theorem decodeFrom_last :
    decodeFrom (some ⟨start, lead, 0, low, high, n / 0x40⟩) position (tailByte n :: bs) =
      (decodeFrom none (position + 1) bs).map (Char.ofNat n :: ·) := by
  rw [decodeFrom, if_pos (tailByte_within hlow hhigh)]
  simp only [bits_tailByte]

end Tail

/-! ## First bytes -/

theorem utf8Lead_one {n : Nat} (h : n < 0x80) :
    utf8Lead (UInt8.ofNat n) = .character (Char.ofNat n) := by
  have hn : (UInt8.ofNat n).toNat = n := UInt8.toNat_ofNat_of_lt' (Nat.lt_of_lt_of_le h (by decide))
  have hlt : UInt8.ofNat n < 0x80 := UInt8.lt_iff_toNat_lt.2 (by rw [hn]; exact h)
  rw [utf8Lead, if_pos hlt, hn]

theorem utf8Lead_two {k : Nat} (hmin : 0x2 ≤ k) (hmax : k < 0x20) :
    utf8Lead (UInt8.ofNat (0xC0 + k)) = .sequence 0 0x80 0xBF k := by
  interval_cases k <;> rfl

theorem utf8Lead_three {k : Nat} (h : k < 0x10) :
    utf8Lead (UInt8.ofNat (0xE0 + k)) =
      .sequence 1 (if k = 0 then 0xA0 else 0x80) (if k = 0xD then 0x9F else 0xBF) k := by
  interval_cases k <;> rfl

theorem utf8Lead_four {k : Nat} (h : k < 0x5) :
    utf8Lead (UInt8.ofNat (0xF0 + k)) =
      .sequence 2 (if k = 0 then 0x90 else 0x80) (if k = 0x4 then 0x8F else 0xBF) k := by
  interval_cases k <;> rfl

/-! ## Characters -/

/-- The first byte of a character of several bytes, with what is read from it. -/
theorem decodeFrom_lead {b low high : UInt8} {missing bits position : Nat} {bs : List UInt8}
    (h : utf8Lead b = .sequence missing low high bits) :
    decodeFrom none position (b :: bs) =
      decodeFrom (some ⟨position, b, missing, low, high, bits⟩) (position + 1) bs := by
  rw [decodeFrom, h]

theorem encodeChar_eq (c : Char) :
    encodeChar c =
      if c.toNat < 0x80 then [UInt8.ofNat c.toNat]
      else if c.toNat < 0x800 then [UInt8.ofNat (0xC0 + c.toNat / 0x40), tailByte c.toNat]
      else if c.toNat < 0x10000 then
        [UInt8.ofNat (0xE0 + c.toNat / 0x40 / 0x40), tailByte (c.toNat / 0x40), tailByte c.toNat]
      else
        [UInt8.ofNat (0xF0 + c.toNat / 0x40 / 0x40 / 0x40), tailByte (c.toNat / 0x40 / 0x40),
          tailByte (c.toNat / 0x40), tailByte c.toNat] := by
  simp only [encodeChar, tailByte, Nat.div_div_eq_div_mul]

theorem toNat_bounds (c : Char) :
    c.toNat < 0xD800 ∨ 0xDFFF < c.toNat ∧ c.toNat < 0x110000 := c.valid

theorem decodeFrom_encodeChar (c : Char) (position : Nat) (bs : List UInt8) :
    decodeFrom none position (encodeChar c ++ bs) =
      (decodeFrom none (position + (encodeChar c).length) bs).map (c :: ·) := by
  have hc := toNat_bounds c
  have hchar := Char.ofNat_toNat c
  rw [encodeChar_eq]
  generalize c.toNat = n at hc hchar
  subst hchar
  by_cases h1 : n < 0x80
  · rw [if_pos h1, List.singleton_append, decodeFrom, utf8Lead_one h1]
    rfl
  by_cases h2 : n < 0x800
  · rw [if_neg h1, if_pos h2, List.cons_append, List.singleton_append,
      decodeFrom_lead (utf8Lead_two (by omega) (by omega)),
      decodeFrom_last (le_tail _) (tail_le _)]
    rfl
  by_cases h3 : n < 0x10000
  · have hlow : (if n / 0x40 / 0x40 = 0 then 0xA0 else 0x80 : UInt8).toNat ≤
        0x80 + n / 0x40 % 0x40 := by
      apply ite_le_tail
      intro hlead
      show 0xA0 ≤ _
      omega
    -- the surrogates are kept out
    have hhigh : 0x80 + n / 0x40 % 0x40 ≤
        (if n / 0x40 / 0x40 = 0xD then 0x9F else 0xBF : UInt8).toNat := by
      apply tail_le_ite
      intro hlead
      show _ ≤ 0x9F
      omega
    rw [if_neg h1, if_neg h2, if_pos h3, List.cons_append, List.cons_append,
      List.singleton_append, decodeFrom_lead (utf8Lead_three (by omega)),
      decodeFrom_tail hlow hhigh, decodeFrom_last (le_tail _) (tail_le _)]
    rfl
  · have hlow : (if n / 0x40 / 0x40 / 0x40 = 0 then 0x90 else 0x80 : UInt8).toNat ≤
        0x80 + n / 0x40 / 0x40 % 0x40 := by
      apply ite_le_tail
      intro hlead
      show 0x90 ≤ _
      omega
    -- nothing lies beyond the last code point
    have hhigh : 0x80 + n / 0x40 / 0x40 % 0x40 ≤
        (if n / 0x40 / 0x40 / 0x40 = 0x4 then 0x8F else 0xBF : UInt8).toNat := by
      apply tail_le_ite
      intro hlead
      show _ ≤ 0x8F
      omega
    rw [if_neg h1, if_neg h2, if_neg h3, List.cons_append, List.cons_append, List.cons_append,
      List.singleton_append, decodeFrom_lead (utf8Lead_four (by omega)),
      decodeFrom_tail hlow hhigh, decodeFrom_tail (le_tail _) (tail_le _),
      decodeFrom_last (le_tail _) (tail_le _)]
    rfl

/-! ## Texts -/

theorem decodeFrom_encode (cs : List Char) (position : Nat) :
    decodeFrom none position (encode cs) = .ok cs := by
  induction cs generalizing position with
  | nil => rfl
  | cons c cs ih =>
    rw [encode, List.flatMap_cons, decodeFrom_encodeChar]
    show (decodeFrom none _ (encode cs)).map _ = _
    rw [ih]
    rfl

/-- The bytes of a text spell it. -/
theorem decode_encode (cs : List Char) : decode (encode cs) = .ok cs := decodeFrom_encode cs 0

end CellShader.Text
