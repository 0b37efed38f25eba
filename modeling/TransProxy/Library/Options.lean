import TransProxy.Library.Fields

/-!
# Options in units of eight bytes

Options behind the fixed part of a message: a type, a length that counts units of eight bytes
with the two in front, and the data. A length of zero makes the whole message invalid.
-/
namespace TransProxy.Library

def readOptionsUpTo : ℕ → Bytes → Option (List (UInt8 × Bytes))
  | _, [] => some []
  | _, [_] => none
  | 0, _ :: _ :: _ => none
  | n + 1, kind :: len :: input =>
    if len = 0 ∨ input.length < 8 * len.toNat - 2 then none
    else
      (readOptionsUpTo n (input.drop (8 * len.toNat - 2))).map
        (fun options => (kind, input.take (8 * len.toNat - 2)) :: options)

/-- Each option takes more than one byte. -/
def readOptions (input : Bytes) : Option (List (UInt8 × Bytes)) :=
  readOptionsUpTo input.length input

/-- The data fill the units of the length. -/
def FillsUnits (len : UInt8) (data : Bytes) : Prop := data.length + 2 = 8 * len.toNat

variable {kind len : UInt8} {data rest input : Bytes} {n m : ℕ} {options : List (UInt8 × Bytes)}

theorem readOptionsUpTo_cons (h : FillsUnits len data) (kind : UInt8) (rest : Bytes) (n : ℕ) :
    readOptionsUpTo (n + 1) (kind :: len :: (data ++ rest)) =
      (readOptionsUpTo n rest).map (fun options => (kind, data) :: options) := by
  have hlen : data.length = 8 * len.toNat - 2 := by
    rw [FillsUnits] at h
    omega
  have hpos : len ≠ 0 := by
    rintro rfl
    simp [FillsUnits] at h
  have hvalid : ¬ (len = 0 ∨ (data ++ rest).length < 8 * len.toNat - 2) := by
    simp [hpos, hlen]
  rw [readOptionsUpTo, if_neg hvalid, ← hlen, List.drop_left, List.take_left]

/-- More options than there are do no harm. -/
theorem readOptionsUpTo_mono (h : readOptionsUpTo n input = some options) (hle : n ≤ m) :
    readOptionsUpTo m input = some options := by
  induction n generalizing m input options with
  | zero =>
    match input with
    | [] => cases m <;> exact h
    | [_] => cases h
    | _ :: _ :: _ => cases h
  | succ n ih =>
    obtain ⟨m, rfl⟩ : ∃ k, m = k + 1 := ⟨m - 1, by omega⟩
    match input with
    | [] => cases m <;> exact h
    | [_] => cases h
    | kind :: len :: input =>
      rw [readOptionsUpTo] at h ⊢
      split_ifs at h ⊢ with hbad
      obtain ⟨more, hmore, rfl⟩ := Option.map_eq_some_iff.mp h
      rw [ih hmore (by omega)]
      rfl

/-- One option in front of others. -/
theorem readOptions_cons (h : FillsUnits len data) (hrest : readOptions rest = some options) :
    readOptions (kind :: len :: (data ++ rest)) = some ((kind, data) :: options) := by
  have hmore : readOptionsUpTo (data ++ rest).length.succ rest = some options :=
    readOptionsUpTo_mono hrest (by simp; omega)
  rw [readOptions, List.length_cons, List.length_cons, readOptionsUpTo_cons h, hmore]
  rfl

end TransProxy.Library
