import Mathlib.Data.List.Basic
import Mathlib.Order.Basic

/-!
# Text as lists of characters

Cutting text at a character or behind a given beginning, and unsigned decimal
numbers as the standard parsers read them.
-/
namespace TransProxy.Library

/-- Cut at the first `sep`, which is left out. -/
def splitOnce (sep : Char) : List Char → Option (List Char × List Char)
  | [] => none
  | c :: text =>
    if c = sep then some ([], text)
    else (splitOnce sep text).map (fun (part, rest) => (c :: part, rest))

/-- Cut at the last `sep`. -/
def rsplitOnce (sep : Char) (text : List Char) : Option (List Char × List Char) :=
  (splitOnce sep text.reverse).map (fun (rest, part) => (part.reverse, rest.reverse))

theorem splitOnce_eq_none_iff {sep : Char} {text : List Char} :
    splitOnce sep text = none ↔ sep ∉ text := by
  induction text with
  | nil => simp [splitOnce]
  | cons c text ih =>
    by_cases h : c = sep
    · simp [splitOnce, h]
    · simp [splitOnce, h, ih, Ne.symm h]

theorem splitOnce_append {sep : Char} {part : List Char} (h : sep ∉ part) (rest : List Char) :
    splitOnce sep (part ++ sep :: rest) = some (part, rest) := by
  induction part with
  | nil => simp [splitOnce]
  | cons c part ih =>
    simp only [List.mem_cons, not_or] at h
    simp [splitOnce, Ne.symm h.1, ih h.2]

theorem eq_append_of_splitOnce {sep : Char} {text part rest : List Char}
    (h : splitOnce sep text = some (part, rest)) : text = part ++ sep :: rest ∧ sep ∉ part := by
  induction text generalizing part with
  | nil => cases h
  | cons c text ih =>
    by_cases hc : c = sep
    · simp only [splitOnce, hc, if_true, Option.some.injEq, Prod.mk.injEq] at h
      obtain ⟨rfl, rfl⟩ := h
      simp [hc]
    · simp only [splitOnce, hc, if_false] at h
      obtain ⟨⟨part', rest'⟩, htext, heq⟩ := Option.map_eq_some_iff.mp h
      obtain ⟨rfl, rfl⟩ := Prod.mk.inj heq
      obtain ⟨rfl, hsep⟩ := ih htext
      simp [hsep, Ne.symm hc]

theorem rsplitOnce_append {sep : Char} {rest : List Char} (h : sep ∉ rest) (part : List Char) :
    rsplitOnce sep (part ++ sep :: rest) = some (part, rest) := by
  have hrev : (part ++ sep :: rest).reverse = rest.reverse ++ sep :: part.reverse := by simp
  rw [rsplitOnce, hrev, splitOnce_append (by simpa using h)]
  simp

/-- What follows the given beginning. -/
def stripStart : List Char → List Char → Option (List Char)
  | [], text => some text
  | _ :: _, [] => none
  | c :: start, d :: text => if c = d then stripStart start text else none

theorem stripStart_eq_some_iff {start text rest : List Char} :
    stripStart start text = some rest ↔ text = start ++ rest := by
  induction start generalizing text with
  | nil => simp [stripStart, eq_comm]
  | cons c start ih =>
    cases text with
    | nil => simp [stripStart]
    | cons d text =>
      by_cases h : c = d
      · subst h
        simp [stripStart, ih]
      · simp [stripStart, h, Ne.symm h]

def stripPrefix (start text : String) : Option String :=
  (stripStart start.toList text.toList).map String.ofList

theorem stripPrefix_eq_some_iff {start text rest : String} :
    stripPrefix start text = some rest ↔ text = start ++ rest := by
  rw [stripPrefix, Option.map_eq_some_iff, ← String.toList_inj]
  simp only [stripStart_eq_some_iff, String.toList_append]
  constructor
  · rintro ⟨_, h, rfl⟩
    simp [h]
  · intro h
    exact ⟨rest.toList, h, by simp⟩

/-- The characters with the property White_Space. -/
def isWhiteSpace (c : Char) : Bool :=
  let n := c.toNat
  (9 ≤ n && n ≤ 13) || n == 0x20 || n == 0x85 || n == 0xA0 || n == 0x1680 ||
    (0x2000 ≤ n && n ≤ 0x200A) || n == 0x2028 || n == 0x2029 || n == 0x202F || n == 0x205F ||
    n == 0x3000

def trim (text : List Char) : List Char :=
  (((text.dropWhile isWhiteSpace).reverse).dropWhile isWhiteSpace).reverse

/-- A plus sign or none, then decimal digits for a number below `size`. -/
def parseUnsigned (size : ℕ) (text : List Char) : Option ℕ :=
  let digits := match text with
    | '+' :: rest => rest
    | _ => text
  if digits ≠ [] ∧ digits.all Char.isDigit then
    let n := digits.foldl (fun n c => 10 * n + (c.toNat - 48)) 0
    if n < size then some n else none
  else none

/-- Reading back the digits written for a number. -/
theorem parseUnsigned_toDigits {size n : ℕ} (h : n < size) :
    parseUnsigned size (Nat.toDigits 10 n) = some n := by
  have hdigits : ∀ c ∈ Nat.toDigits 10 n, c.isDigit = true := fun c hc =>
    Nat.isDigit_of_mem_toDigits (by decide) (by decide) hc
  have hvalue : (Nat.toDigits 10 n).foldl (fun n c => 10 * n + (c.toNat - 48)) 0 = n :=
    Nat.ofDigitChars_eq_foldl.symm.trans Nat.ofDigitChars_ten_toDigits
  have hne : Nat.toDigits 10 n ≠ [] := Nat.toDigits_ne_nil
  rw [parseUnsigned]
  · rw [if_pos ⟨hne, List.all_eq_true.mpr hdigits⟩, hvalue, if_pos h]
  · intro rest heq
    have hplus := hdigits '+' (by simp [heq])
    cases hplus

end TransProxy.Library
