import TransProxy.Library.Bytes

/-!
# Fields of messages

Fields of a fixed size and fields behind a byte that holds their length, read from the
front of a byte string. What is left over is returned with them.
-/
namespace TransProxy.Library

theorem size_toArray_take {n : ℕ} {input : Bytes} (h : n ≤ input.length) :
    (input.take n).toArray.size = n := by
  simp [h]

def readBytes (n : ℕ) (input : Bytes) : Option (Vector UInt8 n × Bytes) :=
  if h : n ≤ input.length then some (⟨(input.take n).toArray, size_toArray_take h⟩, input.drop n)
  else none

def readField : Bytes → Option (Bytes × Bytes)
  | [] => none
  | len :: input =>
    if len.toNat ≤ input.length then some (input.take len.toNat, input.drop len.toNat) else none

def readU16 : Bytes → Option (UInt16 × Bytes)
  | hi :: lo :: input => some (u16FromBeBytes hi lo, input)
  | _ => none

def readU32 : Bytes → Option (UInt32 × Bytes)
  | a :: b :: c :: d :: input => some (u32FromBeBytes a b c d, input)
  | _ => none

theorem readBytes_append {n : ℕ} (v : Vector UInt8 n) (rest : Bytes) :
    readBytes n (v.toList ++ rest) = some (v, rest) := by
  have hlen : v.toList.length = n := v.length_toList
  have hle : n ≤ (v.toList ++ rest).length := by simp
  rw [readBytes, dif_pos hle, Option.some.injEq, Prod.mk.injEq]
  constructor
  · apply Vector.toList_inj.mp
    simp [hlen]
  · rw [List.drop_left' hlen]

/-- A field of less than 256 bytes is not cut, since its length fits into a byte. -/
theorem readField_append {field : Bytes} (h : field.length < 256) (rest : Bytes) :
    readField (UInt8.ofNat field.length :: (field ++ rest)) = some (field, rest) := by
  have hlen : (UInt8.ofNat field.length).toNat = field.length := UInt8.toNat_ofNat_of_lt' h
  rw [readField, hlen, if_pos (by simp), List.take_left, List.drop_left]

/-- A field that is complete does not change with what follows. -/
theorem readField_of_append {input field rest : Bytes} (h : readField input = some (field, rest))
    (more : Bytes) : readField (input ++ more) = some (field, rest ++ more) := by
  cases input with
  | nil => cases h
  | cons len input =>
    rw [readField] at h
    split_ifs at h with hlen
    obtain ⟨rfl, rfl⟩ := Prod.mk.inj (Option.some.inj h)
    rw [List.cons_append, readField, if_pos (by rw [List.length_append]; omega),
      List.take_append_of_le_length hlen, List.drop_append_of_le_length hlen]

theorem readU16_append (x : UInt16) (rest : Bytes) :
    readU16 (u16ToBeBytes x ++ rest) = some (x, rest) := by
  rw [u16ToBeBytes, List.cons_append, List.cons_append, readU16, u16FromBeBytes_u16ToBeBytes,
    List.nil_append]

theorem readU32_append (x : UInt32) (rest : Bytes) :
    readU32 (u32ToBeBytes x ++ rest) = some (x, rest) := by
  rw [u32ToBeBytes, List.cons_append, List.cons_append, List.cons_append, List.cons_append, readU32,
    u32FromBeBytes_u32ToBeBytes, List.nil_append]

end TransProxy.Library
