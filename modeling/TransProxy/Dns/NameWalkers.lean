import TransProxy.Dns.Question

/-!
# What the walkers over a name have in common

The type, the name and the records of a message are found by three loops over the same bytes.
Skipping a name passes over labels up to its end, and the other two loops pass over the same
labels.
-/
namespace TransProxy.Dns
open Library

inductive NameEnd where
  | zero
  | pointer

/-- The labels from the first position up to the end of the name, which is in front of the second
position. -/
inductive Skips (packet : Bytes) : ℕ → List Bytes → NameEnd → ℕ → Prop
  | zero {pos : ℕ} (h : pos < packet.length) (hb : packet[pos] = 0) :
    Skips packet pos [] .zero (pos + 1)
  | pointer {pos : ℕ} (h : pos < packet.length) (hb : packet[pos] ≠ 0)
    (hptr : packet[pos] &&& 0xC0 = 0xC0) : Skips packet pos [] .pointer (pos + 2)
  | label {pos q : ℕ} {labels : List Bytes} {last : NameEnd} (h : pos < packet.length)
    (hb : packet[pos] ≠ 0) (hptr : packet[pos] &&& 0xC0 ≠ 0xC0)
    (hrest : Skips packet (pos + 1 + packet[pos].toNat) labels last q) :
    Skips packet pos (slice packet (pos + 1) (pos + 1 + packet[pos].toNat) :: labels) last q

section Skips
variable {packet : Bytes} {pos q : ℕ} {labels : List Bytes} {last : NameEnd}

theorem skipDnsName_of_skips (h : Skips packet pos labels last q) :
    skipDnsName packet pos = some q := by
  induction h with
  | zero h hb => exact skipDnsName_zero h hb
  | pointer h hb hptr => exact skipDnsName_pointer h hb hptr
  | label h hb hptr _ ih => rw [skipDnsName_label h hb hptr, ih]

theorem exists_skips (h : skipDnsName packet pos = some q) :
    ∃ labels last, Skips packet pos labels last q := by
  fun_induction skipDnsName packet pos with
  | case1 => cases h
  | case2 pos hin b hzero =>
    obtain rfl := Option.some.inj h
    exact ⟨_, _, .zero (by omega) hzero⟩
  | case3 pos hin b hzero hptr =>
    obtain rfl := Option.some.inj h
    exact ⟨_, _, .pointer (by omega) hzero hptr⟩
  | case4 pos hin b hzero hptr ih =>
    obtain ⟨labels, last, hrest⟩ := ih h
    exact ⟨_, _, .label (by omega) hzero hptr hrest⟩

/-- A name is skipped label by label. -/
theorem skipDnsName_eq_some_iff :
    skipDnsName packet pos = some q ↔ ∃ labels last, Skips packet pos labels last q :=
  ⟨exists_skips, fun ⟨_, _, h⟩ => skipDnsName_of_skips h⟩

/-- A name has one way to be skipped. -/
theorem Skips.unique {q' : ℕ} {labels' : List Bytes} {last' : NameEnd}
    (h : Skips packet pos labels last q) (h' : Skips packet pos labels' last' q') :
    labels = labels' ∧ last = last' ∧ q = q' := by
  induction h generalizing labels' with
  | zero h hb =>
    cases h' with
    | zero => exact ⟨rfl, rfl, rfl⟩
    | pointer _ hb' _ => exact absurd hb hb'
    | label _ hb' _ _ => exact absurd hb hb'
  | pointer h hb hptr =>
    cases h' with
    | zero _ hb' => exact absurd hb' hb
    | pointer => exact ⟨rfl, rfl, rfl⟩
    | label _ _ hptr' _ => exact absurd hptr hptr'
  | label h hb hptr _ ih =>
    cases h' with
    | zero _ hb' => exact absurd hb' hb
    | pointer _ _ hptr' => exact absurd hptr' hptr
    | label _ _ _ hrest' =>
      obtain ⟨rfl, rfl, rfl⟩ := ih hrest'
      exact ⟨rfl, rfl, rfl⟩

/-- The byte before the end of an uncompressed name is its terminating zero. -/
theorem Skips.getElem?_end (h : Skips packet pos labels .zero q) :
    ∃ e, q = e + 1 ∧ packet[e]? = some 0 := by
  generalize hlast : NameEnd.zero = last at h
  induction h with
  | zero h hb => exact ⟨_, rfl, by rw [List.getElem?_eq_getElem h, hb]⟩
  | pointer => cases hlast
  | label _ _ _ _ ih => exact ih hlast

/-- The labels that are read are those that are skipped. -/
theorem skips_of_readLabels (packet : Bytes) (pos : ℕ) :
    ∀ r, readLabels packet pos = some r → Skips packet pos r.1 .zero r.2 := by
  fun_induction readLabels packet pos with
  | case1 => simp
  | case2 pos hin len hzero =>
    rintro r h
    obtain rfl := Option.some.inj h
    exact .zero (by omega) hzero
  | case3 => simp
  | case4 => simp
  | case5 pos hin len hzero hptr hshort ih =>
    intro r h
    obtain ⟨rest, hrest, rfl⟩ := Option.map_eq_some_iff.mp h
    exact .label (by omega) hzero hptr (ih rest hrest)

end Skips

section Walkers
variable {packet : Bytes}

/-- There is a type exactly if two bytes follow the name, and they are the type. -/
theorem parseQueryType_eq_some_iff {v : UInt16} : parseQueryType packet = some v ↔
    ∃ q, skipDnsName packet 12 = some q ∧ ∃ h : q + 2 ≤ packet.length, v = u16At packet q h := by
  cases hname : skipDnsName packet 12 with
  | none =>
    have hnone : parseQueryType packet = none := by
      rw [parseQueryType, queryTypePos_eq_skipDnsName, hname]
      split_ifs <;> rfl
    simp [hnone]
  | some q =>
    rw [parseQueryType_eq hname]
    by_cases hshort : packet.length < q + 2
    · simp [hshort, Nat.not_le.mpr hshort]
    · simp [hshort, Nat.le_of_not_lt hshort, eq_comm]

/-- A name that is read is skipped up to the byte behind its zero, and joins the labels. -/
theorem skips_of_parseQueryName {name : String} (h : parseQueryName packet = some name) :
    ∃ e strs, skipDnsName packet 12 = some (e + 1) ∧ packet[e]? = some 0 ∧
      Skips packet 12 (strs.map strBytes) .zero (e + 1) ∧ name = ".".intercalate strs := by
  obtain ⟨strs, q, -, hread, rfl⟩ := parseQueryName_eq_some_iff.mp h
  have hskips := skips_of_readLabels packet 12 _ hread
  obtain ⟨e, rfl, hzero⟩ := hskips.getElem?_end
  exact ⟨e, strs, skipDnsName_of_skips hskips, hzero, hskips, rfl⟩

/-- The three walkers over the first name of a message agree. -/
theorem nameWalkers_agree (packet : Bytes) :
    (∀ q, skipDnsName packet 12 = some q ↔ ∃ labels last, Skips packet 12 labels last q) ∧
    (∀ v, parseQueryType packet = some v ↔ ∃ q, skipDnsName packet 12 = some q ∧
      ∃ h : q + 2 ≤ packet.length, v = u16At packet q h) ∧
    ∀ name, parseQueryName packet = some name →
      ∃ e strs, skipDnsName packet 12 = some (e + 1) ∧ packet[e]? = some 0 ∧
        (∀ labels last q, Skips packet 12 labels last q ↔
          labels = strs.map strBytes ∧ last = .zero ∧ q = e + 1) ∧
        name = ".".intercalate strs := by
  refine ⟨fun q => skipDnsName_eq_some_iff, fun v => parseQueryType_eq_some_iff, ?_⟩
  intro name h
  obtain ⟨e, strs, hskip, hzero, hskips, hname⟩ := skips_of_parseQueryName h
  refine ⟨e, strs, hskip, hzero, fun labels last q => ⟨fun h' => h'.unique hskips, ?_⟩, hname⟩
  rintro ⟨rfl, rfl, rfl⟩
  exact hskips

end Walkers
end TransProxy.Dns
