import Mathlib.Data.Bool.AllAny
import TransProxy.Library.Bytes

/-!
# ASCII text

An ASCII character is one byte, and a string of such bytes is that of such characters.
-/
namespace TransProxy.Library

def asciiByte (c : Char) : UInt8 := UInt8.ofNat c.toNat

def asciiChar (b : UInt8) : Char := Char.ofNat b.toNat

/-- ASCII without blanks and control characters. -/
def IsVisible (c : Char) : Prop := 32 < c.toNat ∧ c.toNat < 127

instance (c : Char) : Decidable (IsVisible c) := inferInstanceAs (Decidable (_ ∧ _))

variable {s t : String} {text : List Char} {c : Char} {b : UInt8}

theorem strBytes_ofList (text : List Char) :
    strBytes (String.ofList text) = text.flatMap String.utf8EncodeChar := by
  simp [strBytes, List.utf8Encode]

theorem strBytes_injective : Function.Injective strBytes := by
  intro s t h
  have hs := fromUtf8_eq_some_iff.mpr h
  rw [fromUtf8_eq_some_iff.mpr (rfl : strBytes t = strBytes t)] at hs
  exact (Option.some.inj hs).symm

theorem utf8EncodeChar_of_ascii (h : c.toNat < 128) : String.utf8EncodeChar c = [asciiByte c] := by
  have hle : c.val.toNat ≤ 0x7f := Nat.lt_succ_iff.mp h
  simp only [String.utf8EncodeChar, hle, if_true]
  rfl

theorem strBytes_of_ascii (h : ∀ c ∈ s.toList, c.toNat < 128) :
    strBytes s = s.toList.map asciiByte := by
  have hbytes : ∀ text : List Char, (∀ c ∈ text, c.toNat < 128) →
      text.flatMap String.utf8EncodeChar = text.map asciiByte := by
    intro text htext
    induction text with
    | nil => rfl
    | cons c text ih =>
      obtain ⟨hc, hrest⟩ := List.forall_mem_cons.mp htext
      rw [List.flatMap_cons, utf8EncodeChar_of_ascii hc, ih hrest]
      rfl
  rw [← hbytes _ h, ← strBytes_ofList, String.ofList_toList]

theorem IsVisible.ascii (h : IsVisible c) : c.toNat < 128 := Nat.lt_succ_of_lt h.2

theorem isVisible_of_isAlphanum (h : c.isAlphanum = true) : IsVisible c := by
  delta Char.isAlphanum Char.isAlpha Char.isUpper Char.isLower Char.isDigit at h
  simp only [Bool.or_eq_true, Bool.and_eq_true, decide_eq_true_eq, ge_iff_le,
    UInt32.le_iff_toNat_le, Char.reduceVal, UInt32.reduceToNat] at h
  change 32 < c.val.toNat ∧ c.val.toNat < 127
  omega

theorem toNat_asciiChar (b : UInt8) : (asciiChar b).toNat = b.toNat := by
  have hb := b.toNat_lt
  have hvalid : b.toNat.isValidChar := .inl (by omega)
  rw [asciiChar, Char.ofNat, dif_pos hvalid]
  rfl

theorem asciiByte_asciiChar (b : UInt8) : asciiByte (asciiChar b) = b := by
  rw [asciiByte, toNat_asciiChar, UInt8.ofNat_toNat]

theorem asciiChar_asciiByte (h : c.toNat < 128) : asciiChar (asciiByte c) = c := by
  have hsize : c.toNat < UInt8.size := Nat.lt_trans h (by decide)
  rw [asciiChar, asciiByte, UInt8.toNat_ofNat_of_lt' hsize]
  exact Char.ofNat_toNat c

/-- Bytes below 128 are those of characters. -/
theorem toList_of_ascii (h : ∀ b ∈ strBytes s, b.toNat < 128) :
    s.toList = (strBytes s).map asciiChar := by
  have hascii : ∀ c ∈ (String.ofList ((strBytes s).map asciiChar)).toList, c.toNat < 128 := by
    simpa [toNat_asciiChar] using h
  have hbytes : strBytes (String.ofList ((strBytes s).map asciiChar)) = strBytes s := by
    rw [strBytes_of_ascii hascii, String.toList_ofList, List.map_map]
    exact List.map_id'' asciiByte_asciiChar _
  rw [← strBytes_injective hbytes, String.toList_ofList, hbytes]

end TransProxy.Library
