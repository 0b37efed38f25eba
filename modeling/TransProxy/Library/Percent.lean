import TransProxy.Library.Ascii

/-!
# Percent-encoding

Bytes that may stand in a text as characters are kept, and all others are written as a
percent sign and two hexadecimal digits.
-/
namespace TransProxy.Library

/-- `{:02X}`. -/
def hexUpper (b : UInt8) : List Char :=
  [(Nat.digitChar (b.toNat / 16)).toUpper, (Nat.digitChar (b.toNat % 16)).toUpper]

def percentEncodeByte (keep : UInt8 → Bool) (b : UInt8) : List Char :=
  if keep b then [asciiChar b] else '%' :: hexUpper b

def percentEncode (keep : UInt8 → Bool) (bytes : Bytes) : List Char :=
  bytes.flatMap (percentEncodeByte keep)

def hexValue (c : Char) : Option ℕ :=
  if '0' ≤ c ∧ c ≤ '9' then some (c.toNat - 48)
  else if 'A' ≤ c ∧ c ≤ 'F' then some (c.toNat - 55)
  else if 'a' ≤ c ∧ c ≤ 'f' then some (c.toNat - 87)
  else none

/-- The bytes of a text; a percent sign without two digits is refused. -/
def percentDecode : List Char → Option Bytes
  | [] => some []
  | '%' :: hi :: lo :: text => do
    let hi ← hexValue hi
    let lo ← hexValue lo
    (percentDecode text).map (UInt8.ofNat (16 * hi + lo) :: ·)
  | c :: text =>
    if c = '%' then none else (percentDecode text).map (String.utf8EncodeChar c ++ ·)

/-- The bytes that are kept stand for themselves. -/
def KeepsPlain (keep : UInt8 → Bool) : Prop := ∀ b, keep b = true → b.toNat < 128 ∧ b ≠ 37

variable {keep : UInt8 → Bool}

theorem percentDecode_cons {c : Char} (h : c ≠ '%') (text : List Char) :
    percentDecode (c :: text) = (percentDecode text).map (String.utf8EncodeChar c ++ ·) := by
  rw [percentDecode.eq_def]
  split
  · next heq => cases heq
  · next heq => exact absurd (List.cons.inj heq).1 h
  · next heq =>
    obtain ⟨rfl, rfl⟩ := List.cons.inj heq
    rw [if_neg h]

theorem percentDecode_encodeByte (hkeep : KeepsPlain keep) (b : UInt8) (text : List Char) :
    percentDecode (percentEncodeByte keep b ++ text) = (percentDecode text).map (b :: ·) := by
  rw [percentEncodeByte]
  split_ifs with hb
  · obtain ⟨hascii, hne⟩ := hkeep b hb
    have hchar : (asciiChar b).toNat < 128 := toNat_asciiChar b ▸ hascii
    have hplain : asciiChar b ≠ '%' := by
      intro heq
      exact hne (by rw [← asciiByte_asciiChar b, heq]; rfl)
    rw [List.cons_append, List.nil_append, percentDecode_cons hplain, utf8EncodeChar_of_ascii hchar,
      asciiByte_asciiChar]
    rfl
  · have hlt := b.toNat_lt
    have hvalue : ∀ d < 16, hexValue (Nat.digitChar d).toUpper = some d := by decide
    have hdigits : 16 * (b.toNat / 16) + b.toNat % 16 = b.toNat := Nat.div_add_mod b.toNat 16
    simp only [hexUpper, List.cons_append, List.nil_append, percentDecode,
      hvalue (b.toNat / 16) (by omega), hvalue (b.toNat % 16) (by omega), Option.bind_eq_bind,
      Option.bind_some, hdigits, UInt8.ofNat_toNat]

theorem percentDecode_encode (hkeep : KeepsPlain keep) (bytes : Bytes) :
    percentDecode (percentEncode keep bytes) = some bytes := by
  induction bytes with
  | nil => rfl
  | cons b bytes ih =>
    rw [percentEncode, List.flatMap_cons, percentDecode_encodeByte hkeep, ← percentEncode, ih]
    rfl

/-- What is written is kept, a percent sign or a digit. -/
theorem mem_percentEncode {bytes : Bytes} {c : Char} (h : c ∈ percentEncode keep bytes) :
    (∃ b ∈ bytes, keep b = true ∧ c = asciiChar b) ∨ c = '%' ∨ c.isAlphanum = true := by
  have hdigit : ∀ d < 16, (Nat.digitChar d).toUpper.isAlphanum = true := by decide
  obtain ⟨b, hb, hc⟩ := List.mem_flatMap.mp h
  rw [percentEncodeByte] at hc
  split_ifs at hc with hkept
  · exact .inl ⟨b, hb, hkept, List.mem_singleton.mp hc⟩
  · have hlt := b.toNat_lt
    rcases List.mem_cons.mp hc with rfl | hhex
    · exact .inr (.inl rfl)
    · rcases List.mem_pair.mp hhex with rfl | rfl
      · exact .inr (.inr (hdigit _ (by omega)))
      · exact .inr (.inr (hdigit _ (by omega)))

end TransProxy.Library
