import Mathlib.Data.List.Induction
import TransProxy.Net.AddrParse
import TransProxy.Net.AddrText

/-!
# Addresses that are displayed and read again

Every reader of the parser is shown to read back what is written for its value, up to where the
text goes on with something that cannot belong to it.
-/
namespace TransProxy.Net
open Library

/-! ## Numbers -/

def NoDigit (radix : ℕ) (text : List Char) : Prop := ∀ c ∈ text.head?, toDigit radix c = none

theorem toDigit_digitChar {radix d : ℕ} (hd : d < radix) (hradix : radix ≤ 16) :
    toDigit radix (Nat.digitChar d) = some d := by
  have hdigit : ∀ d < 16, toDigit 16 (Nat.digitChar d) = some d := by decide
  have hvalue := hdigit d (by omega)
  simp only [toDigit, Option.filter_eq_some_iff] at hvalue ⊢
  exact ⟨hvalue.1, by simpa using hd⟩

theorem toDigits_digits {radix : ℕ} (hone : 1 < radix) (hradix : radix ≤ 16) (n : ℕ) :
    ∀ c ∈ Nat.toDigits radix n, ∃ d < radix, c = Nat.digitChar d := by
  induction n using Nat.strongRecOn with
  | ind n ih =>
    intro c hc
    rcases Nat.lt_or_ge n radix with hlt | hge
    · rw [Nat.toDigits_of_lt_base hlt, List.mem_singleton] at hc
      exact ⟨n, hlt, hc⟩
    · rw [Nat.toDigits_of_base_le hone hge] at hc
      rcases List.mem_append.mp hc with hfront | hlast
      · exact ih (n / radix) (Nat.div_lt_self (by omega) hone) c hfront
      · exact ⟨n % radix, Nat.mod_lt n (by omega), List.mem_singleton.mp hlast⟩

/-- The value that the digits stand for. -/
theorem foldl_toDigits {radix : ℕ} (hone : 1 < radix) (hradix : radix ≤ 16) (n : ℕ) :
    (Nat.toDigits radix n).foldl (fun n c => radix * n + (toDigit radix c).getD 0) 0 = n := by
  induction n using Nat.strongRecOn with
  | ind n ih =>
    rcases Nat.lt_or_ge n radix with hlt | hge
    · simp [Nat.toDigits_of_lt_base hlt, toDigit_digitChar hlt hradix]
    · have hlast := Nat.mod_lt n (show 0 < radix by omega)
      rw [Nat.toDigits_of_base_le hone hge, List.foldl_append,
        ih (n / radix) (Nat.div_lt_self (by omega) hone)]
      simp [toDigit_digitChar hlast hradix, Nat.div_add_mod]

/-- No zero stands in front of other digits. -/
theorem head_toDigits {radix : ℕ} (hone : 1 < radix) (hradix : radix ≤ 16) {n : ℕ} (hn : 0 < n) :
    (Nat.toDigits radix n).head? ≠ some '0' := by
  have hchar : ∀ d < 16, 0 < d → Nat.digitChar d ≠ '0' := by decide
  induction n using Nat.strongRecOn with
  | ind n ih =>
    rcases Nat.lt_or_ge n radix with hlt | hge
    · rw [Nat.toDigits_of_lt_base hlt]
      simpa using hchar n (by omega) hn
    · have hpos : 0 < n / radix := Nat.div_pos hge (by omega)
      rw [Nat.toDigits_of_base_le hone hge, List.head?_append_of_ne_nil _ Nat.toDigits_ne_nil]
      exact ih (n / radix) (Nat.div_lt_self (by omega) hone) hpos

theorem takeWhile_toDigits {radix : ℕ} (hone : 1 < radix) (hradix : radix ≤ 16) (n : ℕ)
    {rest : List Char} (hrest : NoDigit radix rest) :
    (Nat.toDigits radix n ++ rest).takeWhile (fun c => (toDigit radix c).isSome) =
      Nat.toDigits radix n := by
  have hall : ∀ c ∈ Nat.toDigits radix n, (toDigit radix c).isSome = true := by
    intro c hc
    obtain ⟨d, hd, rfl⟩ := toDigits_digits hone hradix n c hc
    rw [toDigit_digitChar hd hradix]
    rfl
  rw [List.takeWhile_append_of_pos hall]
  cases rest with
  | nil => simp
  | cons c rest => simp [hrest c rfl]

/-- The digits of a number in the range are read, if there are not too many of them. -/
theorem readNumber_toDigits {radix size n : ℕ} {maxDigits : Option ℕ} {allowZero : Bool}
    (hone : 1 < radix) (hradix : radix ≤ 16) (hn : n < size)
    (hlen : ∀ max ∈ maxDigits, (Nat.toDigits radix n).length ≤ max) {rest : List Char}
    (hrest : NoDigit radix rest) :
    (readNumber radix size maxDigits allowZero).run (Nat.toDigits radix n ++ rest) =
      some (n, rest) := by
  have hmax : maxDigits.any (fun max => decide (max < (Nat.toDigits radix n).length)) = false := by
    cases maxDigits with
    | none => rfl
    | some max => simpa using hlen max rfl
  have hzero : (!allowZero && (Nat.toDigits radix n).head? == some '0' &&
      decide (1 < (Nat.toDigits radix n).length)) = false := by
    rcases Nat.eq_zero_or_pos n with rfl | hpos
    · simp
    · simp [head_toDigits hone hradix hpos]
  simp only [StateT.run, readNumber, takeWhile_toDigits hone hradix n hrest, Nat.toDigits_ne_nil,
    if_false, hmax, hzero, foldl_toDigits hone hradix, hn, if_true, List.drop_left]
  rfl

theorem length_toDigits_byte (b : UInt8) : (Nat.toDigits 10 b.toNat).length ≤ 3 :=
  (Nat.length_toDigits_le_iff (by decide) (by decide)).mpr
    (Nat.lt_of_lt_of_le b.toNat_lt (by decide))

/-- One part of a dotted address. -/
theorem readNumber_byte (b : UInt8) {rest : List Char} (hrest : NoDigit 10 rest) :
    (readNumber 10 256 (some 3) false).run (Nat.toDigits 10 b.toNat ++ rest) =
      some (b.toNat, rest) :=
  readNumber_toDigits (by decide) (by decide) b.toNat_lt
    (by simpa using length_toDigits_byte b) hrest

theorem readNumber_group {n : ℕ} (hn : n < 65536) {rest : List Char} (hrest : NoDigit 16 rest) :
    (readNumber 16 65536 (some 4) true).run (Nat.toDigits 16 n ++ rest) = some (n, rest) := by
  have hlen : (Nat.toDigits 16 n).length ≤ 4 :=
    (Nat.length_toDigits_le_iff (by decide) (by decide)).mpr hn
  exact readNumber_toDigits (by decide) (by decide) hn (by simpa using hlen) hrest

/-! ## Sequences -/

section Reading
variable {α β : Type} {x : Reader α} {f : α → Reader β} {text text' : List Char} {a : α}

theorem run_bind_of_some (h : x.run text = some (a, text')) :
    (x >>= f).run text = (f a).run text' := by
  rw [StateT.run_bind, h]
  rfl

theorem run_bind_of_none (h : x.run text = none) : (x >>= f).run text = none := by
  rw [StateT.run_bind, h]
  rfl

theorem run_orElse_of_some (h : x.run text = some (a, text')) (y : Reader α) :
    (x <|> y).run text = some (a, text') := by
  change (x.run text <|> y.run text) = _
  rw [h]
  rfl

theorem run_orElse_of_none (h : x.run text = none) (y : Reader α) :
    (x <|> y).run text = y.run text := by
  change (x.run text <|> y.run text) = _
  rw [h]
  rfl

theorem readGivenChar_cons (c : Char) (rest : List Char) :
    (readGivenChar c).run (c :: rest) = some ((), rest) := by
  have hchar : readChar.run (c :: rest) = some (c, rest) := rfl
  rw [readGivenChar, run_bind_of_some hchar, if_pos rfl]
  rfl

theorem readGivenChar_of_ne {c : Char} (h : text.head? ≠ some c) :
    (readGivenChar c).run text = none := by
  cases text with
  | nil => rfl
  | cons d text =>
    have hchar : readChar.run (d :: text) = some (d, text) := rfl
    have hne : d ≠ c := by simpa using h
    rw [readGivenChar, run_bind_of_some hchar, if_neg hne]
    rfl

/-- In front of the first part there is no separator. -/
theorem run_readSeparator_zero (sep : Char) : (readSeparator sep 0 x).run text = x.run text := by
  rw [readSeparator, if_neg (Nat.lt_irrefl 0)]

theorem run_readSeparator_succ (sep : Char) (i : ℕ) :
    (readSeparator sep (i + 1) x).run (sep :: text) = x.run text := by
  rw [readSeparator, if_pos (Nat.succ_pos i), run_bind_of_some (readGivenChar_cons sep text)]

theorem run_readSeparator_of_ne {sep : Char} (i : ℕ) (h : text.head? ≠ some sep) :
    (readSeparator sep (i + 1) x).run text = none := by
  rw [readSeparator, if_pos (Nat.succ_pos i), run_bind_of_none (readGivenChar_of_ne h)]

end Reading

/-! ## Dotted addresses -/

theorem noDigit_cons {radix : ℕ} {c : Char} (h : toDigit radix c = none) (text : List Char) :
    NoDigit radix (c :: text) := by
  intro c' hc
  obtain rfl : c = c' := by simpa using hc
  exact h

theorem toList_display_ipv4 (a b c d : UInt8) : (Ipv4Addr.new a b c d).display.toList =
    Nat.toDigits 10 a.toNat ++ '.' :: (Nat.toDigits 10 b.toNat ++ '.' ::
      (Nat.toDigits 10 c.toNat ++ '.' :: Nat.toDigits 10 d.toNat)) := by
  simp [Ipv4Addr.display, Ipv4Addr.new, List.append_assoc]

theorem readIpv4Addr_display (ip : Ipv4Addr) {rest : List Char} (hrest : NoDigit 10 rest) :
    readIpv4Addr.run (ip.display.toList ++ rest) = some (ip, rest) := by
  have hdot : ∀ (b : UInt8) (text : List Char), (readNumber 10 256 (some 3) false).run
      (Nat.toDigits 10 b.toNat ++ '.' :: text) = some (b.toNat, '.' :: text) :=
    fun b text => readNumber_byte b (noDigit_cons (by decide) text)
  obtain ⟨a, b, c, d, rfl⟩ := ip.exists_new
  have hfirst : ∀ text, (readSeparator '.' 0 (readNumber 10 256 (some 3) false)).run
      (Nat.toDigits 10 a.toNat ++ '.' :: text) = some (a.toNat, '.' :: text) := by
    intro text
    rw [run_readSeparator_zero, hdot]
  have hnext : ∀ (i : ℕ) (b : UInt8) (text : List Char),
      (readSeparator '.' (i + 1) (readNumber 10 256 (some 3) false)).run
        ('.' :: (Nat.toDigits 10 b.toNat ++ '.' :: text)) = some (b.toNat, '.' :: text) := by
    intro i b text
    rw [run_readSeparator_succ, hdot]
  have hlast : (readSeparator '.' 3 (readNumber 10 256 (some 3) false)).run
      ('.' :: (Nat.toDigits 10 d.toNat ++ rest)) = some (d.toNat, rest) := by
    rw [run_readSeparator_succ, readNumber_byte _ hrest]
  rw [toList_display_ipv4]
  simp only [List.append_assoc, List.cons_append, readIpv4Addr]
  rw [run_bind_of_some (hfirst _), run_bind_of_some (hnext 0 _ _), run_bind_of_some (hnext 1 _ _),
    run_bind_of_some hlast]
  simp

theorem readNumber_suffix {radix size n : ℕ} {maxDigits : Option ℕ} {allowZero : Bool}
    {text rest : List Char} (h : (readNumber radix size maxDigits allowZero).run text =
      some (n, rest)) : rest <:+ text := by
  simp only [StateT.run, readNumber] at h
  split_ifs at h
  obtain ⟨-, rfl⟩ := Prod.mk.inj (Option.some.inj h)
  exact List.drop_suffix _ _

/-- Without a dot there is no dotted address. -/
theorem readIpv4Addr_of_no_dot {text : List Char} (h : '.' ∉ text) :
    readIpv4Addr.run text = none := by
  cases hfirst : (readSeparator '.' 0 (readNumber 10 256 (some 3) false)).run text with
  | none => exact run_bind_of_none hfirst
  | some found =>
    obtain ⟨n, rest⟩ := found
    rw [readIpv4Addr, run_bind_of_some hfirst]
    rw [run_readSeparator_zero] at hfirst
    apply run_bind_of_none
    apply run_readSeparator_of_ne
    intro hdot
    exact h ((readNumber_suffix hfirst).subset (List.mem_of_mem_head? hdot))

/-! ## Groups -/

/-- Groups in hexadecimal, with `i` others in front of them. -/
def groupsText : ℕ → List ℕ → List Char
  | _, [] => []
  | 0, g :: groups => Nat.toDigits 16 g ++ groupsText 1 groups
  | i + 1, g :: groups => ':' :: (Nat.toDigits 16 g ++ groupsText (i + 2) groups)

theorem toList_hexGroups_cons (g : ℕ) (groups : List ℕ) (i : ℕ) :
    (hexGroups (g :: groups)).toList = Nat.toDigits 16 g ++ groupsText (i + 1) groups := by
  induction groups generalizing g i with
  | nil => simp [hexGroups, groupsText]
  | cons next groups ih =>
    have hcons : hexGroups (g :: next :: groups) =
        String.ofList (Nat.toDigits 16 g) ++ ":" ++ hexGroups (next :: groups) := by
      simp only [hexGroups, List.map_cons, String.intercalate_cons_cons]
    rw [hcons, String.toList_append, String.toList_append, ih next (i + 1), groupsText]
    simp

theorem toList_hexGroups (groups : List ℕ) : (hexGroups groups).toList = groupsText 0 groups := by
  cases groups with
  | nil => rfl
  | cons g groups => exact toList_hexGroups_cons g groups 0

theorem no_dot_groupsText (i : ℕ) (groups : List ℕ) : '.' ∉ groupsText i groups := by
  have hdigits : ∀ g, '.' ∉ Nat.toDigits 16 g := by
    intro g hmem
    obtain ⟨d, hd, heq⟩ := toDigits_digits (by decide) (by decide) g '.' hmem
    have hne : ∀ d < 16, '.' ≠ Nat.digitChar d := by decide
    exact hne d hd heq
  induction groups generalizing i with
  | nil => simp [groupsText]
  | cons g groups ih =>
    cases i with
    | zero => simp [groupsText, hdigits, ih]
    | succ i => simp [groupsText, hdigits, ih]

theorem noDigit_groupsText {i : ℕ} {groups : List ℕ} {rest : List Char} (h : NoDigit 16 rest) :
    NoDigit 16 (groupsText (i + 1) groups ++ rest) := by
  cases groups with
  | nil => exact h
  | cons g groups => exact noDigit_cons (by decide) _

/-- A group of an IPv6 address at its place. -/
abbrev readGroup (i : ℕ) : Reader ℕ := readSeparator ':' i (readNumber 16 65536 (some 4) true)

theorem run_readGroup_text {g : ℕ} (hg : g < 65536) {rest : List Char} (hrest : NoDigit 16 rest)
    (i : ℕ) (groups : List ℕ) : (readGroup i).run (groupsText i (g :: groups) ++ rest) =
      some (g, groupsText (i + 1) groups ++ rest) := by
  have hnext : NoDigit 16 (groupsText (i + 1) groups ++ rest) := noDigit_groupsText hrest
  cases i with
  | zero =>
    rw [readGroup, run_readSeparator_zero, groupsText, List.append_assoc,
      readNumber_group hg hnext]
  | succ i =>
    rw [readGroup, groupsText, List.cons_append, run_readSeparator_succ, List.append_assoc,
      readNumber_group hg hnext]

theorem readIpv4_at_no_dot {text : List Char} (h : '.' ∉ text) (i : ℕ) :
    (readSeparator ':' i readIpv4Addr).run text = none := by
  cases i with
  | zero => rw [run_readSeparator_zero, readIpv4Addr_of_no_dot h]
  | succ i =>
    cases text with
    | nil => exact run_readSeparator_of_ne i (by simp)
    | cons c text =>
      by_cases hcolon : c = ':'
      · subst hcolon
        rw [run_readSeparator_succ, readIpv4Addr_of_no_dot (List.not_mem_of_not_mem_cons h)]
      · exact run_readSeparator_of_ne i (by simpa using hcolon)

theorem readGroups_of_no_dot {text : List Char} (h : '.' ∉ text) (limit fuel : ℕ)
    (groups : List ℕ) : readGroups limit (fuel + 1) groups text =
      match (readGroup groups.length).run text with
      | some (group, rest) => readGroups limit fuel (groups ++ [group]) rest
      | none => (groups, false, text) := by
  cases hgroup : (readGroup groups.length).run text with
  | none => simp [readGroups, readIpv4_at_no_dot h, hgroup]
  | some read => simp [readGroups, readIpv4_at_no_dot h, hgroup]

/-- All groups are read, up to where nothing follows that could be one more. -/
theorem readGroups_text {limit fuel : ℕ} (groups more : List ℕ) {rest : List Char}
    (hmore : ∀ g ∈ more, g < 65536) (hdot : '.' ∉ rest) (hdigit : NoDigit 16 rest)
    (hfuel : more.length ≤ fuel)
    (hstop : more.length < fuel → (readGroup (groups.length + more.length)).run rest = none) :
    readGroups limit fuel groups (groupsText groups.length more ++ rest) =
      (groups ++ more, false, rest) := by
  induction more generalizing groups fuel with
  | nil =>
    cases fuel with
    | zero => simp [readGroups, groupsText]
    | succ fuel =>
      rw [groupsText, List.nil_append, readGroups_of_no_dot hdot,
        show (readGroup groups.length).run rest = none from hstop (Nat.succ_pos fuel)]
      simp
  | cons g more ih =>
    cases fuel with
    | zero => simp at hfuel
    | succ fuel =>
      obtain ⟨hg, hmore⟩ := List.forall_mem_cons.mp hmore
      have htext : '.' ∉ groupsText groups.length (g :: more) ++ rest := by
        simp [no_dot_groupsText, hdot]
      rw [readGroups_of_no_dot htext, run_readGroup_text hg hdigit]
      have hfuel : more.length ≤ fuel := by simpa using hfuel
      have hstop : more.length < fuel →
          (readGroup ((groups ++ [g]).length + more.length)).run rest = none := by
        intro hlt
        have hstop := hstop (by simpa using hlt)
        simpa [Nat.add_assoc, Nat.add_comm 1] using hstop
      have hrest := ih (groups ++ [g]) hmore hfuel hstop
      simpa using hrest

/-! ## Runs of zeros -/

structure ZeroSpan.Within (z : ZeroSpan) (segments : List ℕ) : Prop where
  le : z.start + z.len ≤ segments.length
  zero : ∀ i, z.start ≤ i → i < z.start + z.len → segments[i]? = some 0

/-- The longest span so far and the one that the last group belongs to, one group further. -/
def spanStep : ZeroSpan × ZeroSpan → ℕ × ℕ → ZeroSpan × ZeroSpan :=
  fun (longest, current) (segment, i) =>
    if segment = 0 then
      let current : ZeroSpan := if current.len = 0 then ⟨i, 1⟩ else ⟨current.start, current.len + 1⟩
      (if longest.len < current.len then current else longest, current)
    else (longest, ⟨0, 0⟩)

theorem longestZeroSpan_eq (segments : List ℕ) :
    longestZeroSpan segments = (segments.zipIdx.foldl spanStep (⟨0, 0⟩, ⟨0, 0⟩)).1 := rfl

theorem ZeroSpan.Within.append {z : ZeroSpan} {segments : List ℕ} (h : z.Within segments)
    (more : List ℕ) : z.Within (segments ++ more) where
  le := Nat.le_trans h.le (by simp)
  zero i hstart hend := by
    rw [List.getElem?_append_left (Nat.lt_of_lt_of_le hend h.le)]
    exact h.zero i hstart hend

/-- A span that ends with the groups is one longer behind another zero. -/
theorem ZeroSpan.Within.extend {start len : ℕ} {segments : List ℕ}
    (h : (⟨start, len⟩ : ZeroSpan).Within segments) (hend : start + len = segments.length) :
    (⟨start, len + 1⟩ : ZeroSpan).Within (segments ++ [0]) where
  le := by
    simp only [List.length_append, List.length_singleton]
    omega
  zero i hstart hi := by
    simp only at hstart hi
    rcases Nat.lt_or_ge i segments.length with hlt | hge
    · exact (h.append [0]).zero i hstart (by simpa [hend] using hlt)
    · obtain rfl : i = segments.length := by omega
      simp

theorem within_spans (segments : List ℕ) :
    (segments.zipIdx.foldl spanStep (⟨0, 0⟩, ⟨0, 0⟩)).1.Within segments ∧
      ((segments.zipIdx.foldl spanStep (⟨0, 0⟩, ⟨0, 0⟩)).2.len = 0 ∨
        (segments.zipIdx.foldl spanStep (⟨0, 0⟩, ⟨0, 0⟩)).2.Within segments ∧
          (segments.zipIdx.foldl spanStep (⟨0, 0⟩, ⟨0, 0⟩)).2.start +
            (segments.zipIdx.foldl spanStep (⟨0, 0⟩, ⟨0, 0⟩)).2.len = segments.length) := by
  induction segments using List.reverseRecOn with
  | nil => exact ⟨⟨Nat.le_refl 0, fun i _ hi => absurd hi (Nat.not_lt_zero i)⟩, .inl rfl⟩
  | append_singleton segments segment ih =>
    rw [List.zipIdx_append, List.foldl_append]
    generalize segments.zipIdx.foldl spanStep (⟨0, 0⟩, ⟨0, 0⟩) = spans at ih ⊢
    obtain ⟨longest, current⟩ := spans
    obtain ⟨hlongest, hcurrent⟩ := ih
    dsimp only at hlongest hcurrent
    simp only [List.zipIdx_cons, List.zipIdx_nil, List.foldl_cons, List.foldl_nil, Nat.zero_add,
      spanStep]
    by_cases hzero : segment = 0
    · subst hzero
      have hextended : ∃ span : ZeroSpan, (if current.len = 0 then ⟨segments.length, 1⟩
          else ⟨current.start, current.len + 1⟩) = span ∧ span.Within (segments ++ [0]) ∧
            span.start + span.len = segments.length + 1 := by
        by_cases hlen : current.len = 0
        · have hempty : (⟨segments.length, 0⟩ : ZeroSpan).Within segments :=
            ⟨Nat.le_refl _, fun i hstart hi => absurd hi (Nat.not_lt.mpr hstart)⟩
          exact ⟨_, if_pos hlen, hempty.extend rfl, rfl⟩
        · obtain ⟨hwithin, hend⟩ := hcurrent.resolve_left hlen
          refine ⟨_, if_neg hlen, hwithin.extend hend, ?_⟩
          simp only
          omega
      obtain ⟨span, hspan, hwithin, hend⟩ := hextended
      rw [if_pos rfl]
      simp only [hspan]
      refine ⟨?_, .inr ⟨hwithin, by simpa using hend⟩⟩
      split_ifs
      · exact hwithin
      · exact hlongest.append _
    · rw [if_neg hzero]
      exact ⟨hlongest.append _, .inl rfl⟩

theorem within_longestZeroSpan (segments : List ℕ) :
    (longestZeroSpan segments).Within segments := by
  rw [longestZeroSpan_eq]
  exact (within_spans segments).1

/-- The zeros that are left out can be filled in again. -/
theorem ZeroSpan.Within.fill {z : ZeroSpan} {segments : List ℕ} (h : z.Within segments) :
    segments.take z.start ++ List.replicate z.len 0 ++ segments.drop (z.start + z.len) =
      segments := by
  have hle := h.le
  have hmiddle : (segments.drop z.start).take z.len = List.replicate z.len 0 := by
    apply List.eq_replicate_iff.mpr
    refine ⟨by rw [List.length_take, List.length_drop]; omega, ?_⟩
    intro b hb
    obtain ⟨i, hi⟩ := List.mem_iff_getElem?.mp hb
    rw [List.getElem?_take] at hi
    split_ifs at hi with hlt
    rw [List.getElem?_drop, h.zero (z.start + i) (by omega) (by omega)] at hi
    exact (Option.some.inj hi).symm
  rw [← hmiddle, List.append_assoc, ← List.drop_drop, List.take_append_drop,
    List.take_append_drop]

/-! ## IPv6 addresses -/

theorem length_segments (ip : Ipv6Addr) : ip.segments.length = 8 := by
  simp [Ipv6Addr.segments]

theorem getD_segments (ip : Ipv6Addr) {i : ℕ} (h : i < 8) : ip.segments.getD i 0 =
    256 * (ip.octets.toList.getD (2 * i) 0).toNat +
      (ip.octets.toList.getD (2 * i + 1) 0).toNat := by
  simp [Ipv6Addr.segments, h]

theorem segments_lt (ip : Ipv6Addr) : ∀ g ∈ ip.segments, g < 65536 := by
  intro g hg
  obtain ⟨i, _, rfl⟩ := List.mem_map.mp hg
  have hhi := (ip.octets.toList.getD (2 * i) 0).toNat_lt
  have hlo := (ip.octets.toList.getD (2 * i + 1) 0).toNat_lt
  omega

theorem ofSegments_segments (ip : Ipv6Addr) : Ipv6Addr.ofSegments ip.segments = ip := by
  obtain ⟨octets⟩ := ip
  simp only [Ipv6Addr.ofSegments, Ipv6Addr.mk.injEq]
  ext i hi
  have hget : octets.toList.getD i 0 = octets[i] := by simp [hi]
  rw [Vector.getElem_ofFn, getD_segments ⟨octets⟩ (by omega : i / 2 < 8), ← hget]
  dsimp only
  have hlo := (octets.toList.getD (2 * (i / 2) + 1) 0).toNat_lt
  split_ifs with heven
  · have hdiv : (256 * (octets.toList.getD (2 * (i / 2)) 0).toNat +
        (octets.toList.getD (2 * (i / 2) + 1) 0).toNat) / 256 =
          (octets.toList.getD (2 * (i / 2)) 0).toNat := by omega
    rw [hdiv, UInt8.ofNat_toNat, show 2 * (i / 2) = i by omega]
  · rw [UInt8.ofNat_add, UInt8.ofNat_toNat, show 2 * (i / 2) + 1 = i by omega]
    simp

section Readers
variable {text rest : List Char} {head tail : List ℕ} {b : Bool}

theorem readIpv6Addr_of_eight (hgroups : readGroups 8 8 [] text = (head, b, rest))
    (hlen : head.length = 8) : readIpv6Addr.run text = some (.ofSegments head, rest) := by
  simp only [StateT.run, readIpv6Addr, hgroups, hlen, if_true]

/-- With a `::` for the groups in the middle. -/
theorem readIpv6Addr_of_colons
    (hgroups : readGroups 8 8 [] text = (head, false, ':' :: ':' :: rest)) (hlen : head.length < 8)
    {limit : ℕ} (hlimit : limit = 8 - (head.length + 1)) {rest' : List Char}
    (htail : readGroups limit limit [] rest = (tail, b, rest')) :
    readIpv6Addr.run text = some (.ofSegments (head ++
      List.replicate (8 - head.length - tail.length) 0 ++ tail), rest') := by
  have hne : head.length ≠ 8 := Nat.ne_of_lt hlen
  subst hlimit
  unfold readIpv6Addr
  simp only [StateT.run, hgroups, hne, if_false, Bool.false_eq_true]
  change StateT.run _ _ = _
  rw [run_bind_of_some (readGivenChar_cons ':' _), run_bind_of_some (readGivenChar_cons ':' _)]
  have hget : (get : Reader (List Char)).run rest = some (rest, rest) := rfl
  rw [run_bind_of_some hget, htail]
  rfl

theorem readNumber_of_noDigit {radix size : ℕ} {maxDigits : Option ℕ} {allowZero : Bool}
    (h : NoDigit radix text) : (readNumber radix size maxDigits allowZero).run text = none := by
  have hnone : text.takeWhile (fun c => (toDigit radix c).isSome) = [] := by
    cases text with
    | nil => rfl
    | cons c text => simp [h c rfl]
  simp [StateT.run, readNumber, hnone]

theorem readIpv4Addr_of_noDigit (h : NoDigit 10 text) : readIpv4Addr.run text = none := by
  apply run_bind_of_none
  rw [run_readSeparator_zero, readNumber_of_noDigit h]

/-- What cannot begin a group ends the groups, where no separator was read for one. -/
theorem run_readGroup_of_end (h : NoDigit 16 text) (hcolon : text.head? ≠ some ':') (i : ℕ) :
    (readGroup i).run text = none := by
  cases i with
  | zero => rw [readGroup, run_readSeparator_zero, readNumber_of_noDigit h]
  | succ i => exact run_readSeparator_of_ne i hcolon

theorem run_readGroup_of_colons (i : ℕ) : (readGroup i).run (':' :: ':' :: text) = none := by
  have hcolon : ∀ text, NoDigit 16 (':' :: text) := noDigit_cons (by decide)
  cases i with
  | zero => rw [readGroup, run_readSeparator_zero, readNumber_of_noDigit (hcolon _)]
  | succ i => rw [readGroup, run_readSeparator_succ, readNumber_of_noDigit (hcolon _)]

end Readers

/-- The text of an address does not go on with this. -/
structure EndsAddr (rest : List Char) : Prop where
  noDot : '.' ∉ rest
  noDecimal : NoDigit 10 rest
  noDigit : NoDigit 16 rest
  noColon : rest.head? ≠ some ':'

section Display
variable {ip : Ipv6Addr} {rest : List Char}

theorem readIpv6Addr_groups (hrest : EndsAddr rest) :
    readIpv6Addr.run ((hexGroups ip.segments).toList ++ rest) = some (ip, rest) := by
  have hgroups : readGroups 8 8 [] (groupsText 0 ip.segments ++ rest) =
      (ip.segments, false, rest) :=
    readGroups_text [] ip.segments (segments_lt ip) hrest.noDot hrest.noDigit
      (Nat.le_of_eq (length_segments ip)) fun hlt => absurd hlt (by rw [length_segments]; decide)
  rw [toList_hexGroups, readIpv6Addr_of_eight hgroups (length_segments ip), ofSegments_segments]

theorem readIpv6Addr_zeroes {z : ZeroSpan} (hz : z.Within ip.segments) (hlen : 1 < z.len)
    (hrest : EndsAddr rest) :
    readIpv6Addr.run ((hexGroups (ip.segments.take z.start) ++ "::" ++
      hexGroups (ip.segments.drop (z.start + z.len))).toList ++ rest) = some (ip, rest) := by
  have hle : z.start + z.len ≤ 8 := by
    rw [← length_segments ip]
    exact hz.le
  have hhead : (ip.segments.take z.start).length = z.start := by
    rw [List.length_take, length_segments]
    omega
  have htail : (ip.segments.drop (z.start + z.len)).length = 8 - (z.start + z.len) := by
    rw [List.length_drop, length_segments]
  have htext : (hexGroups (ip.segments.take z.start) ++ "::" ++
      hexGroups (ip.segments.drop (z.start + z.len))).toList ++ rest =
        groupsText 0 (ip.segments.take z.start) ++ ':' :: ':' ::
          (groupsText 0 (ip.segments.drop (z.start + z.len)) ++ rest) := by
    simp [toList_hexGroups]
  have hbefore : readGroups 8 8 [] (groupsText 0 (ip.segments.take z.start) ++ ':' :: ':' ::
      (groupsText 0 (ip.segments.drop (z.start + z.len)) ++ rest)) =
        (ip.segments.take z.start, false, ':' :: ':' ::
          (groupsText 0 (ip.segments.drop (z.start + z.len)) ++ rest)) := by
    apply readGroups_text []
    · exact fun g hg => segments_lt ip g (List.mem_of_mem_take hg)
    · simp [no_dot_groupsText, hrest.noDot]
    · exact noDigit_cons (by decide) _
    · omega
    · exact fun _ => run_readGroup_of_colons _
  have hbehind : readGroups (8 - ((ip.segments.take z.start).length + 1))
      (8 - ((ip.segments.take z.start).length + 1)) []
        (groupsText 0 (ip.segments.drop (z.start + z.len)) ++ rest) =
          (ip.segments.drop (z.start + z.len), false, rest) := by
    apply readGroups_text [] _ _ hrest.noDot hrest.noDigit
    · omega
    · exact fun _ => run_readGroup_of_end hrest.noDigit hrest.noColon _
    · exact fun g hg => segments_lt ip g (List.mem_of_mem_drop hg)
  rw [htext, readIpv6Addr_of_colons hbefore (by omega) rfl hbehind, hhead, htail,
    show 8 - z.start - (8 - (z.start + z.len)) = z.len by omega, hz.fill, ofSegments_segments]

theorem readGroups_noDigit {text : List Char} (h10 : NoDigit 10 text) (h16 : NoDigit 16 text)
    (limit fuel : ℕ) : readGroups limit fuel [] text = ([], false, text) := by
  cases fuel with
  | zero => rfl
  | succ fuel =>
    have hdotted : (readSeparator ':' 0 readIpv4Addr).run text = none := by
      rw [run_readSeparator_zero, readIpv4Addr_of_noDigit h10]
    have hgroup : (readGroup 0).run text = none := by
      rw [readGroup, run_readSeparator_zero, readNumber_of_noDigit h16]
    rw [readGroups]
    simp [hdotted, hgroup]

/-- The last four bytes make the last two groups. -/
theorem readIpv6Addr_mapped {a b c d : UInt8} (hmapped : ip.segments =
    [0, 0, 0, 0, 0, 0xFFFF, 256 * a.toNat + b.toNat, 256 * c.toNat + d.toNat])
    (hrest : EndsAddr rest) :
    readIpv6Addr.run (("::ffff:" ++ (Ipv4Addr.new a b c d).display).toList ++ rest) =
      some (ip, rest) := by
  generalize hip4 : Ipv4Addr.new a b c d = ip4
  have htext : ("::ffff:" ++ ip4.display).toList ++ rest =
      ':' :: ':' :: (Nat.toDigits 16 0xFFFF ++ ':' :: (ip4.display.toList ++ rest)) := by
    have hdigits : Nat.toDigits 16 0xFFFF = ['f', 'f', 'f', 'f'] := by decide
    simp [hdigits]
  have hbefore : ∀ text, readGroups 8 8 [] (':' :: ':' :: text) = ([], false, ':' :: ':' :: text) :=
    fun text => readGroups_noDigit (noDigit_cons (by decide) _) (noDigit_cons (by decide) _) 8 8
  have hnoDotted : (readSeparator ':' 0 readIpv4Addr).run
      (Nat.toDigits 16 0xFFFF ++ ':' :: (ip4.display.toList ++ rest)) = none := by
    rw [run_readSeparator_zero]
    exact readIpv4Addr_of_noDigit (noDigit_cons (by decide) _)
  have hgroup : (readGroup 0).run (Nat.toDigits 16 0xFFFF ++ ':' :: (ip4.display.toList ++ rest)) =
      some (0xFFFF, ':' :: (ip4.display.toList ++ rest)) := by
    rw [readGroup, run_readSeparator_zero,
      readNumber_group (by decide) (noDigit_cons (by decide) _)]
  have hdotted : (readSeparator ':' 1 readIpv4Addr).run (':' :: (ip4.display.toList ++ rest)) =
      some (ip4, rest) := by
    rw [run_readSeparator_succ, readIpv4Addr_display ip4 hrest.noDecimal]
  have hbehind : readGroups 7 7 [] (Nat.toDigits 16 0xFFFF ++ ':' :: (ip4.display.toList ++ rest)) =
      ([0xFFFF, 256 * ip4.octets[0].toNat + ip4.octets[1].toNat,
        256 * ip4.octets[2].toNat + ip4.octets[3].toNat], true, rest) := by
    rw [readGroups]
    simp only [List.length_nil, hnoDotted, ite_self, hgroup]
    rw [readGroups]
    simp only [List.nil_append, List.length_singleton, hdotted]
    rfl
  have hsegments : ip.segments = [] ++ List.replicate 5 0 ++
      [0xFFFF, 256 * ip4.octets[0].toNat + ip4.octets[1].toNat,
        256 * ip4.octets[2].toNat + ip4.octets[3].toNat] := by
    rw [hmapped, ← hip4]
    rfl
  rw [htext, readIpv6Addr_of_colons (hbefore _) (by decide) rfl hbehind, ← ofSegments_segments ip,
    hsegments]
  rfl

theorem readIpv6Addr_display (hrest : EndsAddr rest) :
    readIpv6Addr.run (ip.display.toList ++ rest) = some (ip, rest) := by
  rw [Ipv6Addr.display]
  split_ifs with hmapped
  · have hsegments : ip.segments = [0, 0, 0, 0, 0, 0xFFFF,
        256 * ip.octets[12].toNat + ip.octets[13].toNat,
        256 * ip.octets[14].toNat + ip.octets[15].toNat] := by
      rw [← List.take_append_drop 6 ip.segments, hmapped]
      simp [Ipv6Addr.segments, List.range, List.range.loop]
    exact readIpv6Addr_mapped hsegments hrest
  · dsimp only
    split_ifs with hlen
    · exact readIpv6Addr_zeroes (within_longestZeroSpan _) hlen hrest
    · exact readIpv6Addr_groups hrest

end Display

/-! ## Socket addresses -/

/-- What the text of an address does not show. -/
def SocketAddr.withoutFlowinfo : SocketAddr → SocketAddr
  | .v4 ip port => .v4 ip port
  | .v6 ip port _ scopeId => .v6 ip port 0 scopeId

theorem readPort_display (port : UInt16) :
    readPort.run (':' :: (toString port.toNat).toList) = some (port, []) := by
  have hnumber : (readNumber 10 65536 none true).run (Nat.toDigits 10 port.toNat) =
      some (port.toNat, []) := by
    have hread := @readNumber_toDigits 10 65536 port.toNat none true (by decide) (by decide)
      port.toNat_lt (by simp) [] (by simp [NoDigit])
    rwa [List.append_nil] at hread
  rw [readPort, run_bind_of_some (readGivenChar_cons ':' _), toList_toString,
    run_bind_of_some hnumber, UInt16.ofNat_toNat]
  rfl

theorem readSocketAddrV4_display (ip : Ipv4Addr) (port : UInt16) :
    readSocketAddrV4.run (SocketAddr.display (.v4 ip port)).toList = some (.v4 ip port, []) := by
  have htext : (SocketAddr.display (.v4 ip port)).toList =
      ip.display.toList ++ ':' :: (toString port.toNat).toList := by
    simp [SocketAddr.display]
  rw [htext, readSocketAddrV4,
    run_bind_of_some (readIpv4Addr_display ip (noDigit_cons (by decide) _)),
    run_bind_of_some (readPort_display port)]
  rfl

theorem endsAddr_cons {c : Char} {text : List Char} (hc : c = ']' ∨ c = '%')
    (hdot : '.' ∉ text) : EndsAddr (c :: text) := by
  rcases hc with rfl | rfl
  · exact ⟨by simp [hdot], noDigit_cons (by decide) _, noDigit_cons (by decide) _, by simp⟩
  · exact ⟨by simp [hdot], noDigit_cons (by decide) _, noDigit_cons (by decide) _, by simp⟩

theorem no_dot_digits (n : ℕ) : '.' ∉ (toString n).toList := by
  intro hmem
  rw [toList_toString] at hmem
  exact absurd (Nat.isDigit_of_mem_toDigits (by decide) (by decide) hmem) (by decide)

/-- As it stands behind the address. -/
def scopeText (scopeId : UInt32) : String :=
  if scopeId = 0 then "" else "%" ++ toString scopeId.toNat

/-- A scope that is not zero is written and read, and without one the text goes on. -/
theorem readScopeId_display (scopeId : UInt32) (rest : List Char) :
    (readScopeId <|> pure 0).run ((scopeText scopeId).toList ++ ']' :: rest) =
      some (scopeId, ']' :: rest) := by
  rw [scopeText]
  by_cases hzero : scopeId = 0
  · subst hzero
    have hfirst : readScopeId.run (']' :: rest) = none :=
      run_bind_of_none (readGivenChar_of_ne (by simp))
    rw [if_pos rfl]
    exact run_orElse_of_none hfirst _
  · have hnumber : (readNumber 10 4294967296 none true).run
        (Nat.toDigits 10 scopeId.toNat ++ ']' :: rest) = some (scopeId.toNat, ']' :: rest) :=
      readNumber_toDigits (by decide) (by decide) scopeId.toNat_lt (by simp)
        (noDigit_cons (by decide) _)
    have hfirst : readScopeId.run ('%' :: (Nat.toDigits 10 scopeId.toNat ++ ']' :: rest)) =
        some (scopeId, ']' :: rest) := by
      rw [readScopeId, run_bind_of_some (readGivenChar_cons '%' _), run_bind_of_some hnumber,
        UInt32.ofNat_toNat]
      rfl
    rw [if_neg hzero, String.toList_append, toList_toString]
    exact run_orElse_of_some hfirst _

theorem readSocketAddrV6_display (ip : Ipv6Addr) (port : UInt16) (flowinfo scopeId : UInt32) :
    readSocketAddrV6.run (SocketAddr.display (.v6 ip port flowinfo scopeId)).toList =
      some (.v6 ip port 0 scopeId, []) := by
  have htext : (SocketAddr.display (.v6 ip port flowinfo scopeId)).toList =
      '[' :: (ip.display.toList ++ ((scopeText scopeId).toList ++
        ']' :: ':' :: (toString port.toNat).toList)) := by
    simp [SocketAddr.display, scopeText]
  have hends : EndsAddr ((scopeText scopeId).toList ++
      ']' :: ':' :: (toString port.toNat).toList) := by
    have hport := no_dot_digits port.toNat
    have hscope := no_dot_digits scopeId.toNat
    rw [scopeText]
    split_ifs
    · exact endsAddr_cons (.inl rfl) (by simpa using hport)
    · rw [String.toList_append]
      exact endsAddr_cons (.inr rfl) (by simp_all)
  rw [htext, readSocketAddrV6, run_bind_of_some (readGivenChar_cons '[' _),
    run_bind_of_some (readIpv6Addr_display hends), run_bind_of_some (readScopeId_display scopeId _),
    run_bind_of_some (readGivenChar_cons ']' _), run_bind_of_some (readPort_display port)]
  rfl

/-- The text of a socket address is read as that address. -/
theorem SocketAddr.parse_display (addr : SocketAddr) :
    SocketAddr.parse addr.display = some addr.withoutFlowinfo := by
  cases addr with
  | v4 ip port =>
    rw [SocketAddr.parse, run_orElse_of_some (readSocketAddrV4_display ip port)]
    rfl
  | v6 ip port flowinfo scopeId =>
    have hfirst : readSocketAddrV4.run (SocketAddr.display (.v6 ip port flowinfo scopeId)).toList =
        none := by
      apply run_bind_of_none
      apply readIpv4Addr_of_noDigit
      simp only [SocketAddr.display, String.toList_append]
      exact noDigit_cons (by decide) _
    rw [SocketAddr.parse, run_orElse_of_none hfirst, readSocketAddrV6_display]
    rfl

end TransProxy.Net
