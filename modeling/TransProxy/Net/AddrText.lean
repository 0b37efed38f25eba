import TransProxy.Library.Ascii
import TransProxy.Net.Addr

/-!
# The characters of addresses

The text of an address is digits, dots and colons, which none of the formats that it is
put into gives a meaning to.
-/
namespace TransProxy.Net
open Library

/-- The characters that addresses are written with. -/
def IsAddrChar (c : Char) : Prop := c.isDigit = true ∨ c ∈ ['a', 'b', 'c', 'd', 'e', 'f', '.', ':']

theorem IsAddrChar.visible {c : Char} (h : IsAddrChar c) : IsVisible c := by
  rcases h with hdigit | hother
  · exact isVisible_of_isAlphanum (by simp [Char.isAlphanum, hdigit])
  · exact List.all_iff_forall_prop.mp (by decide) c hother

theorem toList_toString (n : ℕ) : (toString n).toList = Nat.toDigits 10 n := Nat.toList_repr

theorem isAddrChar_toDigits_ten {n : ℕ} {c : Char} (h : c ∈ Nat.toDigits 10 n) : IsAddrChar c :=
  .inl (Nat.isDigit_of_mem_toDigits (by decide) (by decide) h)

theorem isAddrChar_toDigits_sixteen (n : ℕ) : ∀ c ∈ Nat.toDigits 16 n, IsAddrChar c := by
  have hdigit : ∀ d < 16, IsAddrChar (Nat.digitChar d) := by
    unfold IsAddrChar
    decide
  induction n using Nat.strongRecOn with
  | ind n ih =>
    intro c hc
    rcases Nat.lt_or_ge n 16 with hlt | hge
    · rw [Nat.toDigits_of_lt_base hlt, List.mem_singleton] at hc
      exact hc ▸ hdigit n hlt
    · rw [Nat.toDigits_of_base_le (by decide) hge] at hc
      rcases List.mem_append.mp hc with hfront | hlast
      · exact ih (n / 16) (Nat.div_lt_self (by omega) (by decide)) c hfront
      · rw [List.mem_singleton] at hlast
        exact hlast ▸ hdigit (n % 16) (Nat.mod_lt n (by decide))

theorem isAddrChar_intercalate {sep : String} {parts : List String}
    (hsep : ∀ c ∈ sep.toList, IsAddrChar c) (hparts : ∀ part ∈ parts, ∀ c ∈ part.toList, IsAddrChar c) :
    ∀ c ∈ (sep.intercalate parts).toList, IsAddrChar c := by
  induction parts with
  | nil => simp
  | cons part parts ih =>
    obtain ⟨hpart, hrest⟩ := List.forall_mem_cons.mp hparts
    cases parts with
    | nil => simpa using hpart
    | cons next parts =>
      rw [String.intercalate_cons_cons, String.toList_append, String.toList_append]
      simp only [List.forall_mem_append]
      exact ⟨⟨hpart, hsep⟩, ih hrest⟩

theorem Ipv4Addr.isAddrChar_display (ip : Ipv4Addr) : ∀ c ∈ ip.display.toList, IsAddrChar c := by
  apply isAddrChar_intercalate
  · simp [IsAddrChar]
  · intro part hpart c hc
    obtain ⟨b, -, rfl⟩ := List.mem_map.mp hpart
    rw [toList_toString] at hc
    exact isAddrChar_toDigits_ten hc

theorem isAddrChar_hexGroups (segments : List ℕ) :
    ∀ c ∈ (hexGroups segments).toList, IsAddrChar c := by
  apply isAddrChar_intercalate
  · simp [IsAddrChar]
  · intro part hpart c hc
    obtain ⟨n, -, rfl⟩ := List.mem_map.mp hpart
    rw [String.toList_ofList] at hc
    exact isAddrChar_toDigits_sixteen n c hc

theorem Ipv6Addr.isAddrChar_display (ip : Ipv6Addr) : ∀ c ∈ ip.display.toList, IsAddrChar c := by
  rw [Ipv6Addr.display]
  split_ifs with hmapped
  · rw [String.toList_append]
    simp only [List.forall_mem_append]
    exact ⟨by simp [IsAddrChar], Ipv4Addr.isAddrChar_display _⟩
  · simp only
    split_ifs with hzeroes
    · rw [String.toList_append, String.toList_append]
      simp only [List.forall_mem_append]
      exact ⟨⟨isAddrChar_hexGroups _, by simp [IsAddrChar]⟩, isAddrChar_hexGroups _⟩
    · exact isAddrChar_hexGroups _

theorem IpAddr.isAddrChar_display (ip : IpAddr) : ∀ c ∈ ip.display.toList, IsAddrChar c := by
  cases ip with
  | v4 ip => exact ip.isAddrChar_display
  | v6 ip => exact ip.isAddrChar_display

/-- An IPv6 address stands in brackets, with the scope unless it is zero. -/
def SocketAddr.display : SocketAddr → String
  | .v4 ip port => ip.display ++ ":" ++ toString port.toNat
  | .v6 ip port _ scopeId =>
    "[" ++ ip.display ++ (if scopeId = 0 then "" else "%" ++ toString scopeId.toNat) ++ "]:" ++
      toString port.toNat

theorem SocketAddr.mem_display {addr : SocketAddr} {c : Char} (h : c ∈ addr.display.toList) :
    IsAddrChar c ∨ c ∈ ['[', ']', '%'] := by
  have hport : ∀ n : ℕ, c ∈ (toString n).toList → IsAddrChar c := by
    intro n hc
    rw [toList_toString] at hc
    exact isAddrChar_toDigits_ten hc
  cases addr with
  | v4 ip port =>
    simp only [SocketAddr.display, String.toList_append, List.mem_append] at h
    rcases h with (hip | hcolon) | hc
    · exact .inl (ip.isAddrChar_display c hip)
    · exact .inl (.inr (by simp_all))
    · exact .inl (hport _ hc)
  | v6 ip port flowinfo scopeId =>
    simp only [SocketAddr.display, String.toList_append, List.mem_append] at h
    rcases h with (((hopen | hip) | hscope) | hclose) | hc
    · exact .inr (by simp_all)
    · exact .inl (ip.isAddrChar_display c hip)
    · split_ifs at hscope with hzero
      · simp at hscope
      · rw [String.toList_append, List.mem_append] at hscope
        rcases hscope with hpercent | hc
        · exact .inr (by simp_all)
        · exact .inl (hport _ hc)
    · have hmem : c = ']' ∨ c = ':' := by simpa using hclose
      rcases hmem with rfl | rfl
      · exact .inr (by simp)
      · exact .inl (.inr (by simp))
    · exact .inl (hport _ hc)

end TransProxy.Net
