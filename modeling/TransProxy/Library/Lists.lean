import Mathlib.Data.List.Basic

/-!
# Tasks in a list

A task is known by its position. Tasks are added at the end and changed where they
stand, so that the positions of the others stay.
-/
namespace TransProxy.Library
variable {α β : Type*} {xs : List α} {i k : ℕ} {a b x : α}

theorem getElem?_set_cases (h : (xs.set i a)[k]? = some b) :
    k = i ∧ b = a ∨ k ≠ i ∧ xs[k]? = some b := by
  rw [List.getElem?_set] at h
  split_ifs at h with hik hlt
  · exact .inl ⟨hik.symm, (Option.some.inj h).symm⟩
  · exact .inr ⟨Ne.symm hik, h⟩

theorem getElem?_set_of_eq_some (h : xs[i]? = some x) : (xs.set i a)[i]? = some a := by
  rw [List.getElem?_set, if_pos rfl, if_pos (List.getElem?_eq_some_iff.mp h).1]

/-- A change at one position, seen at any position. -/
theorem exists_getElem?_set (hi : xs[i]? = some x) (hk : xs[k]? = some b) :
    ∃ c, (xs.set i a)[k]? = some c ∧ (k = i ∧ c = a ∧ b = x ∨ k ≠ i ∧ c = b) := by
  by_cases hki : k = i
  · subst hki
    exact ⟨a, getElem?_set_of_eq_some hi, .inl ⟨rfl, rfl, Option.some.inj (hk.symm.trans hi)⟩⟩
  · exact ⟨b, by rw [List.getElem?_set_ne (Ne.symm hki), hk], .inr ⟨hki, rfl⟩⟩

theorem forall_mem_set {P : α → Prop} (ha : P a) (h : ∀ y ∈ xs, P y) : ∀ y ∈ xs.set i a, P y := by
  intro y hy
  rcases List.mem_or_eq_of_mem_set hy with hold | rfl
  · exact h y hold
  · exact ha

theorem getElem?_snoc_cases (h : (xs ++ [a])[k]? = some b) :
    xs[k]? = some b ∨ k = xs.length ∧ b = a := by
  rcases Nat.lt_or_ge k xs.length with hlt | hge
  · rw [List.getElem?_append_left hlt] at h
    exact .inl h
  · rw [List.getElem?_append_right hge, List.getElem?_singleton] at h
    split_ifs at h with hzero
    exact .inr ⟨by omega, (Option.some.inj h).symm⟩

theorem getElem?_snoc_of_some (h : xs[k]? = some b) : (xs ++ [a])[k]? = some b := by
  rw [List.getElem?_append_left (List.getElem?_eq_some_iff.mp h).1]
  exact h

/-- Distinct values stand at distinct positions. -/
theorem eq_of_nodup_map {f : α → β} (hnodup : (xs.map f).Nodup) (hi : xs[i]? = some a)
    (hk : xs[k]? = some b) (hf : f a = f b) : i = k := by
  have hlt : i < (xs.map f).length := by
    rw [List.length_map]
    exact (List.getElem?_eq_some_iff.mp hi).1
  apply (List.getElem?_inj hlt hnodup).mp
  rw [List.getElem?_map, List.getElem?_map, hi, hk, Option.map_some, Option.map_some, hf]

/-- What a change leaves alone is left alone in the whole list. -/
theorem map_set_of_eq {f : α → β} (hi : xs[i]? = some x) (hf : f a = f x) :
    (xs.set i a).map f = xs.map f := by
  apply List.ext_getElem?
  intro k
  rw [List.getElem?_map, List.getElem?_map, List.getElem?_set]
  split_ifs with hik hlt
  · subst hik
    rw [hi, Option.map_some, Option.map_some, hf]
  · subst hik
    exact absurd (List.getElem?_eq_some_iff.mp hi).1 hlt
  · rfl

end TransProxy.Library
