import Mathlib.Data.List.Basic
import Mathlib.Order.Basic

/-!
# Byte strings: big-endian integers, windows, joining and UTF-8

A string is Lean's `String`, which is a byte array that is valid UTF-8, and its
bytes are reached by `strBytes`; `fromUtf8` is the checked way back. Two byte
strings agree on a window when they hold the same bytes there, which is all that
a reader confined to the window can see.
-/
namespace TransProxy.Library

abbrev Bytes := List UInt8

def u16FromBeBytes (hi lo : UInt8) : UInt16 := UInt16.ofNat (256 * hi.toNat + lo.toNat)

def u16ToBeBytes (x : UInt16) : Bytes := [UInt8.ofNat (x.toNat / 256), UInt8.ofNat x.toNat]

def u32FromBeBytes (a b c d : UInt8) : UInt32 :=
  UInt32.ofNat (16777216 * a.toNat + 65536 * b.toNat + 256 * c.toNat + d.toNat)

def u32ToBeBytes (x : UInt32) : Bytes :=
  [UInt8.ofNat (x.toNat / 16777216), UInt8.ofNat (x.toNat / 65536), UInt8.ofNat (x.toNat / 256),
    UInt8.ofNat x.toNat]

theorem toNat_u16FromBeBytes (hi lo : UInt8) :
    (u16FromBeBytes hi lo).toNat = 256 * hi.toNat + lo.toNat := by
  have h1 := hi.toNat_lt
  have h2 := lo.toNat_lt
  rw [u16FromBeBytes, UInt16.toNat_ofNat']
  omega

/-- Reading back the two bytes written for a 16-bit integer. -/
theorem u16FromBeBytes_u16ToBeBytes (x : UInt16) :
    u16FromBeBytes (UInt8.ofNat (x.toNat / 256)) (UInt8.ofNat x.toNat) = x := by
  have hx := x.toNat_lt
  apply UInt16.toNat.inj
  rw [toNat_u16FromBeBytes, UInt8.toNat_ofNat', UInt8.toNat_ofNat']
  omega

/-- Writing the 16-bit integer read from two bytes gives the two bytes back. -/
theorem u16ToBeBytes_u16FromBeBytes (hi lo : UInt8) :
    u16ToBeBytes (u16FromBeBytes hi lo) = [hi, lo] := by
  have h1 := hi.toNat_lt
  have h2 := lo.toNat_lt
  rw [u16ToBeBytes, toNat_u16FromBeBytes]
  have hhi : UInt8.ofNat ((256 * hi.toNat + lo.toNat) / 256) = hi := by
    apply UInt8.toNat.inj
    rw [UInt8.toNat_ofNat']
    omega
  have hlo : UInt8.ofNat (256 * hi.toNat + lo.toNat) = lo := by
    apply UInt8.toNat.inj
    rw [UInt8.toNat_ofNat']
    omega
  rw [hhi, hlo]

theorem toNat_u32FromBeBytes (a b c d : UInt8) : (u32FromBeBytes a b c d).toNat =
    16777216 * a.toNat + 65536 * b.toNat + 256 * c.toNat + d.toNat := by
  have ha := a.toNat_lt
  have hb := b.toNat_lt
  have hc := c.toNat_lt
  have hd := d.toNat_lt
  rw [u32FromBeBytes, UInt32.toNat_ofNat']
  omega

/-- Reading back the four bytes written for a 32-bit integer. -/
theorem u32FromBeBytes_u32ToBeBytes (x : UInt32) :
    u32FromBeBytes (UInt8.ofNat (x.toNat / 16777216)) (UInt8.ofNat (x.toNat / 65536))
      (UInt8.ofNat (x.toNat / 256)) (UInt8.ofNat x.toNat) = x := by
  have hx := x.toNat_lt
  apply UInt32.toNat.inj
  simp only [toNat_u32FromBeBytes, UInt8.toNat_ofNat']
  omega

/-- Writing the 32-bit integer read from four bytes gives the four bytes back. -/
theorem u32ToBeBytes_u32FromBeBytes (a b c d : UInt8) :
    u32ToBeBytes (u32FromBeBytes a b c d) = [a, b, c, d] := by
  have ha := a.toNat_lt
  have hb := b.toNat_lt
  have hc := c.toNat_lt
  have hd := d.toNat_lt
  rw [u32ToBeBytes, toNat_u32FromBeBytes]
  simp only [List.cons.injEq, and_true, ← UInt8.toNat_inj, UInt8.toNat_ofNat']
  refine ⟨?_, ?_, ?_, ?_⟩ <;> omega

/-- The elements of a vector, one by one. -/
theorem toList_eq_ofFn {α : Type*} {n : ℕ} (v : Vector α n) :
    v.toList = List.ofFn (fun i : Fin n => v[i]) := by
  apply List.ext_getElem
  · simp
  · simp

/-- What holds of all 256 bytes. -/
theorem forall_byte {P : UInt8 → Prop} (h : ∀ n : Fin 256, P (UInt8.ofNat n)) (b : UInt8) : P b := by
  have hb := h ⟨b.toNat, b.toNat_lt⟩
  rwa [UInt8.ofNat_toNat] at hb

/-- The two byte strings hold the same bytes at the positions from `lo` below `hi`. -/
def AgreeOn (lo hi : ℕ) (p q : Bytes) : Prop := ∀ i, lo ≤ i → i < hi → p[i]? = q[i]?

theorem AgreeOn.symm {lo hi : ℕ} {p q : Bytes} (h : AgreeOn lo hi p q) : AgreeOn lo hi q p :=
  fun i h1 h2 => (h i h1 h2).symm

theorem AgreeOn.mono {lo lo' hi hi' : ℕ} {p q : Bytes} (h : AgreeOn lo hi p q) (hlo : lo ≤ lo')
    (hhi : hi' ≤ hi) : AgreeOn lo' hi' p q :=
  fun i h1 h2 => h i (Nat.le_trans hlo h1) (Nat.lt_of_lt_of_le h2 hhi)

theorem AgreeOn.getElem {lo hi : ℕ} {p q : Bytes} (h : AgreeOn lo hi p q) {i : ℕ} (hlo : lo ≤ i)
    (hhi : i < hi) (hp : i < p.length) (hq : i < q.length) : p[i] = q[i] := by
  have he := h i hlo hhi
  rw [List.getElem?_eq_getElem hp, List.getElem?_eq_getElem hq] at he
  exact Option.some.inj he

/-- Both packets hold the byte at a position of the window that one of them covers. -/
theorem AgreeOn.byte {p q : Bytes} {lo hi pos : ℕ} (hag : AgreeOn lo hi p q) (hlo : lo ≤ pos)
    (hhi : pos < hi) (hp : pos < p.length) : ∃ hq : pos < q.length, p[pos] = q[pos] := by
  have hq : pos < q.length := by
    have hbyte := hag pos hlo hhi
    rw [List.getElem?_eq_getElem hp] at hbyte
    exact (List.getElem?_eq_some_iff.mp hbyte.symm).1
  exact ⟨hq, hag.getElem hlo hhi hp hq⟩

/-- Agreement on a window as equality of the slices. -/
theorem agreeOn_iff_slice_eq {lo hi : ℕ} {p q : Bytes} (hlt : lo ≤ hi) :
    AgreeOn lo hi p q ↔ (q.drop lo).take (hi - lo) = (p.drop lo).take (hi - lo) := by
  constructor
  · intro h
    apply List.ext_getElem?
    intro i
    by_cases hi' : i < hi - lo
    · rw [List.getElem?_take_of_lt hi', List.getElem?_take_of_lt hi', List.getElem?_drop,
        List.getElem?_drop]
      exact (h (lo + i) (by omega) (by omega)).symm
    · rw [List.getElem?_take_eq_none (by omega), List.getElem?_take_eq_none (by omega)]
  · intro h i h1 h2
    have he := congrArg (fun l => l[i - lo]?) h
    simp only [List.getElem?_take_of_lt (show i - lo < hi - lo by omega), List.getElem?_drop,
      show lo + (i - lo) = i by omega] at he
    exact he.symm

theorem map_intercalate {α β : Type*} (f : α → β) (sep : List α) (parts : List (List α)) :
    (sep.intercalate parts).map f = (sep.map f).intercalate (parts.map (List.map f)) := by
  induction parts with
  | nil => rfl
  | cons part parts ih =>
    cases parts with
    | nil => simp
    | cons next parts => simpa using ih

theorem intercalate_ne_nil {α : Type*} {sep x : List α} {xs : List (List α)} (hx : x ≠ []) :
    sep.intercalate (x :: xs) ≠ [] := by
  cases xs with
  | nil => simpa using hx
  | cons y ys => simp [hx]

theorem mem_intercalate {α : Type*} {sep : List α} {parts : List (List α)} {a : α}
    (h : a ∈ sep.intercalate parts) : a ∈ sep ∨ ∃ part ∈ parts, a ∈ part := by
  induction parts with
  | nil => simp at h
  | cons part parts ih =>
    cases parts with
    | nil => exact .inr ⟨part, by simp, by simpa using h⟩
    | cons next parts =>
      rw [List.intercalate_cons_cons, List.mem_append, List.mem_append] at h
      rcases h with (hpart | hsep) | hrest
      · exact .inr ⟨part, List.mem_cons_self, hpart⟩
      · exact .inl hsep
      · exact (ih hrest).imp_right fun ⟨p, hp, ha⟩ => ⟨p, List.mem_cons_of_mem part hp, ha⟩

/-- Joining is undone by the lengths of the parts. -/
theorem intercalate_injective {α : Type*} {sep : List α} {xs ys : List (List α)}
    (hlen : xs.map List.length = ys.map List.length)
    (h : sep.intercalate xs = sep.intercalate ys) : xs = ys := by
  induction xs generalizing ys with
  | nil =>
    cases ys with
    | nil => rfl
    | cons y ys => simp at hlen
  | cons x xs ih =>
    cases ys with
    | nil => simp at hlen
    | cons y ys =>
      simp only [List.map_cons, List.cons.injEq] at hlen
      match xs, ys, hlen.2 with
      | [], [], _ => simpa using h
      | x' :: xs, y' :: ys, htail =>
        simp only [List.intercalate_cons_cons, List.append_assoc] at h
        obtain ⟨hx, hrest⟩ := List.append_inj h hlen.1
        rw [hx, ih htail (List.append_cancel_left hrest)]

def strBytes (s : String) : Bytes := s.toByteArray.data.toList

/-- The string with these bytes, when they are valid UTF-8. -/
def fromUtf8 (b : Bytes) : Option String := String.fromUTF8? ⟨b.toArray⟩

theorem fromUtf8_eq_some_iff {b : Bytes} {s : String} : fromUtf8 b = some s ↔ strBytes s = b := by
  unfold fromUtf8 String.fromUTF8?
  constructor
  · intro h
    split at h
    · obtain rfl := Option.some.inj h
      simp [strBytes, String.fromUTF8]
    · cases h
  · rintro rfl
    have hs : (⟨(strBytes s).toArray⟩ : ByteArray) = s.toByteArray := by simp [strBytes]
    rw [dif_pos (hs ▸ s.isValidUTF8)]
    congr 1

theorem mapM_fromUtf8_eq_some_iff {parts : List Bytes} {strs : List String} :
    parts.mapM fromUtf8 = some strs ↔ strs.map strBytes = parts := by
  induction parts generalizing strs with
  | nil => cases strs <;> simp
  | cons part parts ih =>
    cases strs with
    | nil => simp [Option.bind_eq_some_iff]
    | cons s strs => simp [Option.bind_eq_some_iff, ih, fromUtf8_eq_some_iff]

@[simp] theorem strBytes_append (s t : String) : strBytes (s ++ t) = strBytes s ++ strBytes t := by
  simp [strBytes]

theorem strBytes_intercalate (sep : String) (parts : List String) :
    strBytes (sep.intercalate parts) = (strBytes sep).intercalate (parts.map strBytes) := by
  induction parts with
  | nil => rfl
  | cons part parts ih =>
    cases parts with
    | nil => simp
    | cons next parts =>
      rw [String.intercalate_cons_cons, strBytes_append, strBytes_append, ih]
      simp [List.append_assoc]

theorem isSome_fromUtf8_iff {b : Bytes} : (fromUtf8 b).isSome ↔ ∃ s, strBytes s = b := by
  simp only [Option.isSome_iff_exists, fromUtf8_eq_some_iff]

theorem isSome_fromUtf8_iff_isValid {b : Bytes} :
    (fromUtf8 b).isSome ↔ ByteArray.IsValidUTF8 ⟨b.toArray⟩ := by
  unfold fromUtf8 String.fromUTF8?
  split_ifs with h <;> simp [h]

/-- ASCII text after a byte string does not change whether it is valid UTF-8. -/
theorem isSome_fromUtf8_append_ascii {b rest : Bytes} {c : UInt8} (hc : c &&& 0x80 = 0)
    (hrest : (fromUtf8 (c :: rest)).isSome) :
    (fromUtf8 (b ++ c :: rest)).isSome ↔ (fromUtf8 b).isSome := by
  constructor
  · intro h
    obtain ⟨s, hs⟩ := isSome_fromUtf8_iff.mp h
    have harr : s.toByteArray.data = (b ++ c :: rest).toArray := by rw [← hs, strBytes]
    have hlt : (⟨b.length⟩ : String.Pos.Raw) < s.rawEndPos := by
      have hsize := congrArg Array.size harr
      simp at hsize
      simp only [String.Pos.Raw.lt_iff, String.byteIdx_rawEndPos]
      omega
    -- the position before `c` is a character boundary because `c` starts a character
    have hpos : (⟨b.length⟩ : String.Pos.Raw).IsValid s := by
      rw [String.Pos.Raw.isValid_iff_isUTF8FirstByte]
      refine .inr ⟨hlt, ?_⟩
      have hbyte : s.getUTF8Byte ⟨b.length⟩ hlt = c := by
        simp [String.getUTF8Byte, ByteArray.getElem_eq_getElem_data, harr]
      rw [hbyte]
      exact .inl hc
    have hcut := (String.Pos.Raw.isValid_iff_isValidUTF8_extract_zero.mp hpos).2
    rw [isSome_fromUtf8_iff_isValid]
    convert hcut using 1
    apply ByteArray.ext
    simp [ByteArray.data_extract, harr]
  · intro h
    obtain ⟨s, rfl⟩ := isSome_fromUtf8_iff.mp h
    obtain ⟨t, ht⟩ := isSome_fromUtf8_iff.mp hrest
    exact isSome_fromUtf8_iff.mpr ⟨s ++ t, by rw [strBytes_append, ht]⟩

def toAsciiLowercase (b : UInt8) : UInt8 := if 65 ≤ b ∧ b ≤ 90 then b + 32 else b

def eqIgnoreAsciiCase (p q : Bytes) : Bool := p.map toAsciiLowercase == q.map toAsciiLowercase

theorem eqIgnoreAsciiCase_iff {p q : Bytes} :
    eqIgnoreAsciiCase p q = true ↔ p.map toAsciiLowercase = q.map toAsciiLowercase := by
  simp [eqIgnoreAsciiCase]

theorem eqIgnoreAsciiCase_symm {p q : Bytes} (h : eqIgnoreAsciiCase p q = true) :
    eqIgnoreAsciiCase q p = true :=
  eqIgnoreAsciiCase_iff.mpr (eqIgnoreAsciiCase_iff.mp h).symm

@[simp] theorem eqIgnoreAsciiCase_refl (p : Bytes) : eqIgnoreAsciiCase p p = true := by
  simp [eqIgnoreAsciiCase]

end TransProxy.Library
