import Mathlib.Data.Finset.Card
import TransProxy.Library.HashMap

/-!
# Maps in which the last write wins until it expires

The ideal map is the list of all writes. A map of bounded size that forgets entries
before a write can only answer less than the ideal map, and answers the same as
long as nothing was forgotten.
-/
namespace TransProxy.Library

structure Write (κ ν : Type*) where
  key : κ
  value : ν
  time : ℕ
  lifetime : ℕ

namespace Write
variable {κ ν : Type*} [DecidableEq κ]

def expires (w : Write κ ν) : ℕ := w.time + w.lifetime

def last (writes : List (Write κ ν)) (k : κ) : Option (Write κ ν) :=
  (writes.filter (fun w => w.key = k)).getLast?

def read (writes : List (Write κ ν)) (k : κ) (t : ℕ) : Option ν :=
  ((last writes k).filter (fun w => decide (t < w.expires))).map value

theorem last_snoc (writes : List (Write κ ν)) (w : Write κ ν) (k : κ) :
    last (writes ++ [w]) k = if w.key = k then some w else last writes k := by
  by_cases h : w.key = k
  · simp [last, h]
  · simp [last, h]

def keys (writes : List (Write κ ν)) : Finset κ := (writes.map key).toFinset

/-- The map holds a value and its expiry only as the last write left them. -/
def Refines (writes : List (Write κ ν)) (m : HashMap κ (ν × ℕ)) : Prop :=
  ∀ k e, m.lookup k = some e → ∃ w, last writes k = some w ∧ e = (w.value, w.expires)

/-- The map has forgotten no key. -/
def Complete (writes : List (Write κ ν)) (m : HashMap κ (ν × ℕ)) : Prop :=
  ∀ k w, last writes k = some w → m.lookup k = some (w.value, w.expires)

variable {writes : List (Write κ ν)} {m m' : HashMap κ (ν × ℕ)}

theorem refines_empty : Refines ([] : List (Write κ ν)) ∅ := by
  intro k e h
  cases h

theorem complete_empty : Complete ([] : List (Write κ ν)) ∅ := by
  intro k w h
  cases h

/-- Forgetting entries in front of a write is allowed. -/
theorem Refines.insert (hm : Refines writes m) (hsub : HashMap.Sub m' m) (w : Write κ ν) :
    Refines (writes ++ [w]) (AList.insert w.key (w.value, w.expires) m') := by
  intro k e h
  rw [HashMap.lookup_insert_eq] at h
  rw [last_snoc]
  by_cases hk : k = w.key
  · rw [if_pos hk] at h
    rw [if_pos hk.symm]
    exact ⟨w, rfl, (Option.some.inj h).symm⟩
  · rw [if_neg hk] at h
    rw [if_neg (Ne.symm hk)]
    exact hm k e (hsub k e h)

theorem Complete.insert (hm : Complete writes m) (w : Write κ ν) :
    Complete (writes ++ [w]) (AList.insert w.key (w.value, w.expires) m) := by
  intro k v h
  rw [last_snoc] at h
  rw [HashMap.lookup_insert_eq]
  by_cases hk : k = w.key
  · rw [if_pos hk.symm] at h
    obtain rfl := Option.some.inj h
    rw [if_pos hk]
  · rw [if_neg (Ne.symm hk)] at h
    rw [if_neg hk]
    exact hm k v h

theorem mem_keys_of_last {k : κ} {w : Write κ ν} (h : last writes k = some w) : k ∈ keys writes := by
  have hmem := List.mem_of_getLast? h
  rw [List.mem_filter, decide_eq_true_eq] at hmem
  obtain ⟨hw, rfl⟩ := hmem
  exact List.mem_toFinset.mpr (List.mem_map_of_mem hw)

theorem keys_subset_snoc (writes : List (Write κ ν)) (w : Write κ ν) :
    keys writes ⊆ keys (writes ++ [w]) := by
  intro k hk
  simp only [keys, List.map_append, List.toFinset_append, Finset.mem_union]
  exact .inl hk

/-- The map has no more entries than there are keys. -/
theorem Refines.len_le (hm : Refines writes m) : m.len ≤ (keys writes).card := by
  rw [← HashMap.length_keys, ← List.toFinset_card_of_nodup m.keys_nodup]
  apply Finset.card_le_card
  intro k hk
  obtain ⟨e, he⟩ := HashMap.exists_lookup_of_mem (AList.mem_keys.mp (List.mem_toFinset.mp hk))
  obtain ⟨w, hw, _⟩ := hm k e he
  exact mem_keys_of_last hw

/-- Reading a map that is both: the ideal map. -/
theorem Complete.read_eq (hm : Refines writes m) (hc : Complete writes m) (k : κ) (t : ℕ) :
    read writes k t = ((m.lookup k).filter (fun e => decide (t < e.2))).map Prod.fst := by
  cases hlast : last writes k with
  | none =>
    cases hlookup : m.lookup k with
    | none => simp [read, hlast]
    | some e =>
      obtain ⟨w, hw, _⟩ := hm k e hlookup
      rw [hlast] at hw
      cases hw
  | some w =>
    rw [hc k w hlast, read, hlast]
    by_cases ht : t < w.expires
    · simp [Option.filter, ht]
    · simp [Option.filter, ht]

end Write
end TransProxy.Library
