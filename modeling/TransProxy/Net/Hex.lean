import TransProxy.Net.AddrParse

/-!
# Numbers in other bases

`from_str_radix` of the unsigned types, and bytes written with two hexadecimal digits.
-/
namespace TransProxy.Net
open Library

/-- One more digit of a number below `size`. -/
def pushDigit (radix size n : ℕ) (c : Char) : Except String ℕ :=
  match toDigit radix c with
  | none => .error "invalid digit found in string"
  | some digit =>
    if radix * n + digit < size then .ok (radix * n + digit)
    else .error "number too large to fit in target type"

/-- `from_str_radix`; a sign alone is no number. -/
def fromStrRadix (radix size : ℕ) : List Char → Except String ℕ
  | [] => .error "cannot parse integer from empty string"
  | ['+'] => .error "invalid digit found in string"
  | '+' :: digits => digits.foldlM (pushDigit radix size) 0
  | digits => digits.foldlM (pushDigit radix size) 0

/-- The digit of a number below 16, in lower or in upper case. -/
def hexDigit (upper : Bool) (n : ℕ) : Char :=
  if n < 10 then Char.ofNat (48 + n) else Char.ofNat ((if upper then 55 else 87) + n)

/-- `{:02x}` or `%02X`. -/
def hexByte (upper : Bool) (b : UInt8) : List Char :=
  [hexDigit upper (b.toNat / 16), hexDigit upper (b.toNat % 16)]

theorem toDigit_hexDigit (upper : Bool) {n : ℕ} (h : n < 16) :
    toDigit 16 (hexDigit upper n) = some n := by
  have hall : ∀ upper : Bool, ∀ n < 16, toDigit 16 (hexDigit upper n) = some n := by decide
  exact hall upper n h

theorem hexDigit_ne_plus (upper : Bool) {n : ℕ} (h : n < 16) : hexDigit upper n ≠ '+' := by
  have hall : ∀ upper : Bool, ∀ n < 16, hexDigit upper n ≠ '+' := by decide
  exact hall upper n h

theorem pushDigit_hexDigit (upper : Bool) {size n d : ℕ} (hd : d < 16) (h : 16 * n + d < size) :
    pushDigit 16 size n (hexDigit upper d) = .ok (16 * n + d) := by
  simp [pushDigit, toDigit_hexDigit upper hd, h]

/-- The number that bytes are the digits of, the first one in front. -/
def ofBytes (n : ℕ) (bytes : Bytes) : ℕ := bytes.foldl (fun n b => 256 * n + b.toNat) n

theorem le_ofBytes (n : ℕ) (bytes : Bytes) : n ≤ ofBytes n bytes := by
  induction bytes generalizing n with
  | nil => exact Nat.le_refl n
  | cons b bytes ih =>
    have hrest := ih (256 * n + b.toNat)
    rw [ofBytes] at hrest
    rw [ofBytes, List.foldl_cons]
    omega

theorem foldlM_hexByte (upper : Bool) (size n : ℕ) (bytes : Bytes) (h : ofBytes n bytes < size) :
    (bytes.flatMap (hexByte upper)).foldlM (pushDigit 16 size) n = .ok (ofBytes n bytes) := by
  induction bytes generalizing n with
  | nil => rfl
  | cons b bytes ih =>
    have hb := b.toNat_lt
    have hle : 256 * n + b.toNat ≤ ofBytes n (b :: bytes) := le_ofBytes _ bytes
    have hhigh : pushDigit 16 size n (hexDigit upper (b.toNat / 16)) =
        .ok (16 * n + b.toNat / 16) :=
      pushDigit_hexDigit upper (by omega) (by omega)
    have hlow : pushDigit 16 size (16 * n + b.toNat / 16) (hexDigit upper (b.toNat % 16)) =
        .ok (16 * (16 * n + b.toNat / 16) + b.toNat % 16) :=
      pushDigit_hexDigit upper (by omega) (by omega)
    have hbyte : 16 * (16 * n + b.toNat / 16) + b.toNat % 16 = 256 * n + b.toNat := by omega
    rw [hbyte] at hlow
    rw [List.flatMap_cons, hexByte, List.cons_append, List.cons_append, List.foldlM_cons, hhigh]
    change ([hexDigit upper (b.toNat % 16)] ++ bytes.flatMap (hexByte upper)).foldlM
      (pushDigit 16 size) (16 * n + b.toNat / 16) = _
    rw [List.singleton_append, List.foldlM_cons, hlow]
    exact ih (256 * n + b.toNat) h

/-- Reading back the digits written for bytes. -/
theorem fromStrRadix_hexBytes (upper : Bool) {size : ℕ} {bytes : Bytes} (hne : bytes ≠ [])
    (h : ofBytes 0 bytes < size) :
    fromStrRadix 16 size (bytes.flatMap (hexByte upper)) = .ok (ofBytes 0 bytes) := by
  obtain ⟨b, rest, rfl⟩ := List.exists_cons_of_ne_nil hne
  have hb := b.toNat_lt
  have hplus : hexDigit upper (b.toNat / 16) ≠ '+' := hexDigit_ne_plus upper (by omega)
  rw [← foldlM_hexByte upper size 0 _ h]
  have hfirst : ∃ more,
      (b :: rest).flatMap (hexByte upper) = hexDigit upper (b.toNat / 16) :: more := ⟨_, rfl⟩
  obtain ⟨more, hmore⟩ := hfirst
  rw [hmore, fromStrRadix]
  · simp
  · simp [hplus]
  · simp [hplus]

end TransProxy.Net
