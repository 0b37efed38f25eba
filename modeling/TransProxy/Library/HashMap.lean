import Mathlib.Data.List.AList

/-!
# Hash maps as finite maps with distinct keys

The observable content of a hash map is a list of entries with distinct keys,
which is `AList`. A hash map promises nothing about the order in which it visits
its entries: that order is an argument of every operation that iterates.
-/
namespace TransProxy.Library

/-- Finite maps from `κ` to `ν`; the keys are distinct by construction. -/
abbrev HashMap (κ ν : Type*) := AList (fun _ : κ => ν)

namespace HashMap
variable {κ ν : Type*}

def len (m : HashMap κ ν) : ℕ := m.entries.length

def toList (m : HashMap κ ν) : List (κ × ν) := m.entries.map (fun e => (e.1, e.2))

def retain (p : κ → ν → Bool) (m : HashMap κ ν) : HashMap κ ν where
  entries := m.entries.filter (fun e => p e.1 e.2)
  nodupKeys := m.nodupKeys.sublist List.filter_sublist

/-- The order in which a map visits its entries: any arrangement of them. -/
structure IterOrder (κ ν : Type*) where
  visit : HashMap κ ν → List (κ × ν)
  perm : ∀ m, (visit m).Perm m.toList

/-- The order in which the entries are stored. -/
def IterOrder.stored : IterOrder κ ν := ⟨toList, fun _ => .refl _⟩

theorem length_keys (m : HashMap κ ν) : m.keys.length = m.len := by
  simp [AList.keys, len, List.keys]

theorem len_retain_le (p : κ → ν → Bool) (m : HashMap κ ν) : len (m.retain p) ≤ m.len :=
  List.length_filter_le ..

/-- Every key is visited once. -/
theorem IterOrder.nodup_keys (order : IterOrder κ ν) (m : HashMap κ ν) :
    ((order.visit m).map Prod.fst).Nodup := by
  rw [((order.perm m).map Prod.fst).nodup_iff]
  have hkeys : m.toList.map Prod.fst = m.keys := by
    simp [toList, AList.keys, List.keys, Function.comp_def]
  rw [hkeys]
  exact m.keys_nodup

theorem IterOrder.length_visit (order : IterOrder κ ν) (m : HashMap κ ν) :
    (order.visit m).length = m.len := by
  rw [(order.perm m).length_eq]
  simp [toList, len]

theorem len_le_of_forall_mem {m m' : HashMap κ ν} (h : ∀ k ∈ m, k ∈ m') : m.len ≤ m'.len := by
  rw [← length_keys, ← length_keys]
  refine (List.subperm_of_subset m.keys_nodup ?_).length_le
  intro k hk
  exact AList.mem_keys.mp (h k (AList.mem_keys.mpr hk))

variable [DecidableEq κ]

theorem mem_toList_iff {m : HashMap κ ν} {k : κ} {v : ν} :
    (k, v) ∈ m.toList ↔ m.lookup k = some v := by
  rw [← Option.mem_def, AList.mem_lookup_iff]
  simp [toList]

theorem IterOrder.mem_visit_iff (order : IterOrder κ ν) {m : HashMap κ ν} {k : κ} {v : ν} :
    (k, v) ∈ order.visit m ↔ m.lookup k = some v := by
  rw [(order.perm m).mem_iff, mem_toList_iff]

theorem mem_of_lookup {m : HashMap κ ν} {k : κ} {v : ν} (h : m.lookup k = some v) : k ∈ m := by
  rw [← AList.lookup_isSome, h]
  rfl

theorem exists_lookup_of_mem {m : HashMap κ ν} {k : κ} (h : k ∈ m) : ∃ v, m.lookup k = some v :=
  Option.isSome_iff_exists.mp (AList.lookup_isSome.mpr h)

theorem lookup_retain (p : κ → ν → Bool) (m : HashMap κ ν) (k : κ) :
    (m.retain p).lookup k = (m.lookup k).filter (p k) := by
  ext v
  rw [Option.filter_eq_some_iff]
  simp only [← Option.mem_def, AList.mem_lookup_iff]
  simp [retain]

theorem len_erase_of_mem {m : HashMap κ ν} {k : κ} (h : k ∈ m) :
    len (m.erase k) + 1 = m.len := by
  have hk : k ∈ m.keys := AList.mem_keys.mp h
  rw [← length_keys, ← length_keys, AList.keys_erase, List.length_erase_of_mem hk]
  have := List.length_pos_of_mem hk
  omega

theorem lookup_erase_eq (m : HashMap κ ν) (k j : κ) :
    (m.erase k).lookup j = if j = k then none else m.lookup j := by
  split_ifs with h
  · subst h; exact AList.lookup_erase _ _
  · exact AList.lookup_erase_ne h

theorem lookup_insert_eq (m : HashMap κ ν) (k : κ) (v : ν) (j : κ) :
    (m.insert k v).lookup j = if j = k then some v else m.lookup j := by
  split_ifs with h
  · subst h; exact AList.lookup_insert _
  · exact AList.lookup_insert_ne h

def Sub (m m' : HashMap κ ν) : Prop := ∀ k v, m.lookup k = some v → m'.lookup k = some v

@[refl] theorem Sub.refl (m : HashMap κ ν) : Sub m m := fun _ _ h => h

theorem Sub.trans {m m' m'' : HashMap κ ν} (h : Sub m m') (h' : Sub m' m'') : Sub m m'' :=
  fun k v hk => h' k v (h k v hk)

theorem sub_retain (p : κ → ν → Bool) (m : HashMap κ ν) : Sub (m.retain p) m := by
  intro k v h
  rw [lookup_retain, Option.filter_eq_some_iff] at h
  exact h.1

theorem sub_erase (m : HashMap κ ν) (k : κ) : Sub (m.erase k) m := by
  intro j v h
  rw [lookup_erase_eq] at h
  split_ifs at h
  exact h

theorem len_insert_le (m : HashMap κ ν) (k : κ) (v : ν) : len (m.insert k v) ≤ m.len + 1 := by
  rw [← length_keys, ← length_keys, AList.keys_insert, List.length_cons]
  exact Nat.succ_le_succ (List.length_erase_le ..)

def eraseAll (m : HashMap κ ν) (keys : List κ) : HashMap κ ν :=
  keys.foldl (fun m k => m.erase k) m

theorem sub_eraseAll (m : HashMap κ ν) (keys : List κ) : Sub (m.eraseAll keys) m := by
  induction keys generalizing m with
  | nil => rfl
  | cons k keys ih => exact (ih (m.erase k)).trans (sub_erase m k)

theorem len_eraseAll_le (m : HashMap κ ν) (keys : List κ) : len (m.eraseAll keys) ≤ m.len := by
  induction keys generalizing m with
  | nil => rfl
  | cons k keys ih =>
    have herase : len (m.erase k) ≤ m.len := by
      rw [← length_keys, ← length_keys, AList.keys_erase]
      exact List.length_erase_le ..
    exact Nat.le_trans (ih (m.erase k)) herase

theorem len_eraseAll {m : HashMap κ ν} {keys : List κ} (hnodup : keys.Nodup)
    (hmem : ∀ k ∈ keys, k ∈ m) : len (m.eraseAll keys) + keys.length = m.len := by
  induction keys generalizing m with
  | nil => rfl
  | cons k keys ih =>
    obtain ⟨hk, hrest⟩ := List.nodup_cons.mp hnodup
    have hlen := len_erase_of_mem (hmem k List.mem_cons_self)
    have hrestMem : ∀ j ∈ keys, j ∈ m.erase k := by
      intro j hj
      refine AList.mem_erase.mpr ⟨?_, hmem j (List.mem_cons_of_mem k hj)⟩
      rintro rfl
      exact hk hj
    have hih := ih hrest hrestMem
    simp only [eraseAll, List.foldl_cons, List.length_cons] at hih ⊢
    omega

theorem IterOrder.mem_of_mem_visit (order : IterOrder κ ν) {m : HashMap κ ν} {e : κ × ν}
    (h : e ∈ order.visit m) : e.1 ∈ m :=
  mem_of_lookup (order.mem_visit_iff.mp h)

/-- The first `n` keys that are visited go, as many as there are. -/
theorem IterOrder.len_eraseAll_take (order : IterOrder κ ν) (m : HashMap κ ν) (n : ℕ) :
    len (m.eraseAll (((order.visit m).take n).map Prod.fst)) = m.len - n := by
  have hnodup : (((order.visit m).take n).map Prod.fst).Nodup :=
    (order.nodup_keys m).sublist ((List.take_sublist n _).map _)
  have hlen := len_eraseAll hnodup fun k hk => by
    obtain ⟨e, he, rfl⟩ := List.mem_map.mp hk
    exact order.mem_of_mem_visit (List.mem_of_mem_take he)
  rw [List.length_map, List.length_take, order.length_visit] at hlen
  omega

theorem lookup_eraseAll (m : HashMap κ ν) (keys : List κ) (k : κ) :
    (m.eraseAll keys).lookup k = if k ∈ keys then none else m.lookup k := by
  induction keys generalizing m with
  | nil => simp [eraseAll]
  | cons j keys ih =>
    have hih := ih (m.erase j)
    rw [eraseAll] at hih
    rw [eraseAll, List.foldl_cons, hih, lookup_erase_eq]
    by_cases hj : k = j <;> simp [hj]

theorem len_insert_of_notMem {m : HashMap κ ν} {k : κ} (h : k ∉ m) (v : ν) :
    len (m.insert k v) = m.len + 1 := by
  rw [← length_keys, ← length_keys, AList.keys_insert, List.erase_of_not_mem h, List.length_cons]

/-- A map without one of the keys of a larger one is smaller. -/
theorem len_lt_of_notMem {m m' : HashMap κ ν} (h : ∀ k ∈ m, k ∈ m') {k : κ} {v : ν}
    (hk : m'.lookup k = some v) (hno : k ∉ m) : m.len < m'.len := by
  have hmem := mem_of_lookup hk
  have hle : len (m.insert k v) ≤ m'.len := by
    refine len_le_of_forall_mem fun j hj => ?_
    rcases (AList.mem_insert _).mp hj with rfl | hj
    · exact hmem
    · exact h j hj
  rw [len_insert_of_notMem hno] at hle
  omega

def filled (key : ℕ → κ) (v : ν) : ℕ → HashMap κ ν
  | 0 => ∅
  | n + 1 => (filled key v n).insert (key n) v

theorem mem_filled {key : ℕ → κ} {v : ν} {n : ℕ} {k : κ} :
    k ∈ filled key v n ↔ ∃ i < n, key i = k := by
  induction n with
  | zero => simp [filled, AList.notMem_empty]
  | succ n ih =>
    rw [filled, AList.mem_insert, ih]
    constructor
    · rintro (rfl | ⟨i, hi, rfl⟩)
      · exact ⟨n, Nat.lt_succ_self n, rfl⟩
      · exact ⟨i, Nat.lt_succ_of_lt hi, rfl⟩
    · rintro ⟨i, hi, rfl⟩
      rcases Nat.lt_succ_iff_lt_or_eq.mp hi with hi | rfl
      · exact .inr ⟨i, hi, rfl⟩
      · exact .inl rfl

theorem eq_of_lookup_filled {key : ℕ → κ} {v w : ν} {n : ℕ} {k : κ}
    (h : (filled key v n).lookup k = some w) : w = v := by
  induction n with
  | zero => cases h
  | succ n ih =>
    rw [filled, lookup_insert_eq] at h
    split_ifs at h
    · exact (Option.some.inj h).symm
    · exact ih h

/-- Distinct keys fill as many places. -/
theorem len_filled {key : ℕ → κ} {v : ν} {n : ℕ}
    (hkey : ∀ i < n, ∀ j < n, key i = key j → i = j) : len (filled key v n) = n := by
  induction n with
  | zero => rfl
  | succ n ih =>
    have hnew : key n ∉ filled key v n := by
      rw [mem_filled]
      rintro ⟨i, hi, heq⟩
      exact Nat.ne_of_lt hi (hkey i (Nat.lt_succ_of_lt hi) n (Nat.lt_succ_self n) heq)
    rw [filled, len_insert_of_notMem hnew, ih]
    exact fun i hi j hj => hkey i (Nat.lt_succ_of_lt hi) j (Nat.lt_succ_of_lt hj)

end HashMap
end TransProxy.Library
