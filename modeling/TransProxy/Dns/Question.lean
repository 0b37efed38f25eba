import Mathlib.Data.Set.List
import TransProxy.Dns.Wire

/-!
# What a question says, and what decides how it is read

A question is a sequence of labels and a type. `readLabels` decodes it from the
wire without rendering it; the walkers of the forwarder are compared with it, and
two packets that agree on the bytes of a question are read alike.
-/
namespace TransProxy.Dns
open Library

theorem lt_of_skipDnsName {packet : Bytes} {pos e : ℕ} (h : skipDnsName packet pos = some e) :
    pos < e ∧ pos < packet.length := by
  fun_induction skipDnsName packet pos with
  | case1 pos hend => cases h
  | case2 pos hin b hzero => obtain rfl := Option.some.inj h; omega
  | case3 pos hin b hzero hptr => obtain rfl := Option.some.inj h; omega
  | case4 pos hin b hzero hptr ih =>
    have hnext := ih h
    omega

/-- The two loops over a name stop at the same position. -/
theorem queryTypePos_eq_skipDnsName (packet : Bytes) (pos : ℕ) :
    queryTypePos packet pos = skipDnsName packet pos := by
  fun_induction queryTypePos packet pos with
  | case1 pos hend => rw [skipDnsName_end hend]
  | case2 pos hin len hzero => rw [skipDnsName_zero (by omega) hzero]
  | case3 pos hin len hzero hptr => rw [skipDnsName_pointer (by omega) hzero hptr]
  | case4 pos hin len hzero hptr ih => rw [skipDnsName_label (by omega) hzero hptr, ih]

theorem skipQuestions_bounds {packet : Bytes} {n pos e : ℕ}
    (h : skipQuestions packet n pos = some e) : pos ≤ e ∧ (pos ≤ packet.length → e ≤ packet.length) := by
  induction n generalizing pos with
  | zero =>
    obtain rfl := Option.some.inj h
    exact ⟨Nat.le_refl _, id⟩
  | succ n ih =>
    rw [skipQuestions] at h
    cases hname : skipDnsName packet pos with
    | none => simp [hname] at h
    | some p =>
      have hlt := lt_of_skipDnsName hname
      by_cases hshort : packet.length < p + 4
      · simp [hname, hshort] at h
      · simp only [hname, if_neg hshort] at h
        have hrest := ih h
        omega

/-- A first question is a name with four more bytes behind it. -/
theorem skipQuestions_succ {packet : Bytes} {n pos e : ℕ}
    (h : skipQuestions packet (n + 1) pos = some e) :
    ∃ p, skipDnsName packet pos = some p ∧ p + 4 ≤ e ∧ p + 4 ≤ packet.length := by
  rw [skipQuestions] at h
  cases hname : skipDnsName packet pos with
  | none => simp [hname] at h
  | some p =>
    by_cases hshort : packet.length < p + 4
    · simp [hname, hshort] at h
    · simp only [hname, if_neg hshort] at h
      have hrest := skipQuestions_bounds h
      exact ⟨p, rfl, hrest.1, by omega⟩

/-- A name is skipped alike in every packet with the same bytes. -/
theorem skipDnsName_congr {p q : Bytes} {lo hi pos e : ℕ} (hag : AgreeOn lo hi p q)
    (hlo : lo ≤ pos) (hhi : e ≤ hi) (h : skipDnsName p pos = some e) :
    skipDnsName q pos = some e := by
  have hlt := lt_of_skipDnsName h
  obtain ⟨hq, hsame⟩ := hag.byte hlo (by omega) hlt.2
  fun_induction skipDnsName p pos with
  | case1 pos hend => cases h
  | case2 pos hin b hzero => rw [skipDnsName_zero hq (hsame ▸ hzero), ← h]
  | case3 pos hin b hzero hptr =>
    rw [skipDnsName_pointer hq (hsame ▸ hzero) (hsame ▸ hptr), ← h]
  | case4 pos hin b hzero hptr ih =>
    have hlt' := lt_of_skipDnsName h
    obtain ⟨hq', hsame'⟩ := hag.byte (by omega) (by omega) hlt'.2
    rw [skipDnsName_label hq (hsame ▸ hzero) (hsame ▸ hptr), ← hsame]
    exact ih (by omega) h hlt' hq' hsame'

theorem skipQuestions_congr {p q : Bytes} {lo hi n pos e : ℕ} (hag : AgreeOn lo hi p q)
    (hlo : lo ≤ pos) (hhi : e ≤ hi) (hq : hi ≤ q.length) (h : skipQuestions p n pos = some e) :
    skipQuestions q n pos = some e := by
  induction n generalizing pos with
  | zero => exact h
  | succ n ih =>
    obtain ⟨p', hname, hle, hin⟩ := skipQuestions_succ h
    have hlt := lt_of_skipDnsName hname
    rw [skipQuestions, hname] at h
    rw [skipQuestions, skipDnsName_congr hag hlo (by omega) hname]
    simp only [if_neg (show ¬ p.length < p' + 4 by omega)] at h
    simp only [if_neg (show ¬ q.length < p' + 4 by omega)]
    exact ih (by omega) h

theorem slice_congr {p q : Bytes} {lo hi a b : ℕ} (hag : AgreeOn lo hi p q) (hlo : lo ≤ a)
    (hhi : b ≤ hi) : slice p a b = slice q a b := by
  by_cases hab : a ≤ b
  · exact ((agreeOn_iff_slice_eq hab).mp (hag.mono hlo hhi)).symm
  · simp [slice, show b - a = 0 by omega]

/-- A name inside the window has the same parts, or none, in both packets. -/
theorem queryNameParts_congr {p q : Bytes} {lo hi pos e : ℕ} (hag : AgreeOn lo hi p q)
    (hlo : lo ≤ pos) (hhi : e ≤ hi) (h : skipDnsName p pos = some e) (parts : List String) :
    queryNameParts q pos parts = queryNameParts p pos parts := by
  have hlt := lt_of_skipDnsName h
  obtain ⟨hq, hsame⟩ := hag.byte hlo (by omega) hlt.2
  fun_induction skipDnsName p pos generalizing parts with
  | case1 pos hend => cases h
  | case2 pos hin b hzero =>
    rw [queryNameParts_zero hq (hsame ▸ hzero), queryNameParts_zero hlt.2 hzero]
  | case3 pos hin b hzero hptr =>
    rw [queryNameParts_pointer hq (hsame ▸ hzero) (hsame ▸ hptr),
      queryNameParts_pointer hlt.2 hzero hptr]
  | case4 pos hin b hzero hptr ih =>
    -- the rest of the name starts inside both packets, so this label is not cut short
    have hb : b.toNat = p[pos].toNat := rfl
    have hlt' := lt_of_skipDnsName h
    obtain ⟨hq', hsame'⟩ := hag.byte (by omega) (by omega) hlt'.2
    have hin' : pos + 1 + q[pos].toNat ≤ q.length := by rw [← hsame]; omega
    rw [queryNameParts_label hq (hsame ▸ hzero) (hsame ▸ hptr) hin',
      queryNameParts_label hlt.2 hzero hptr (by omega), ← hsame,
      slice_congr hag.symm (by omega) (by omega)]
    cases fromUtf8 (slice p (pos + 1) (pos + 1 + p[pos].toNat)) with
    | none => rfl
    | some label => exact ih (by omega) h _ hlt' hq' hsame'

/-- Two packets with the same question bytes have the same query name. -/
theorem parseQueryName_congr {p q : Bytes} {hi e : ℕ} (hag : AgreeOn 12 hi p q) (hhi : e ≤ hi)
    (h : skipDnsName p 12 = some e) : parseQueryName q = parseQueryName p := by
  rw [parseQueryName, parseQueryName, queryNameParts_congr hag (Nat.le_refl _) hhi h]

/-- The type of a packet is the integer behind the name. -/
theorem parseQueryType_eq {packet : Bytes} {e : ℕ} (h : skipDnsName packet 12 = some e) :
    parseQueryType packet =
      if h : packet.length < e + 2 then none else some (u16At packet e (u16_inBounds h)) := by
  have hlt := lt_of_skipDnsName h
  rw [parseQueryType, if_neg (by omega), queryTypePos_eq_skipDnsName, h]

theorem u16At_congr {p q : Bytes} {lo hi pos : ℕ} (hag : AgreeOn lo hi p q) (hlo : lo ≤ pos)
    (hhi : pos + 2 ≤ hi) (hp : pos + 2 ≤ p.length) (hq : pos + 2 ≤ q.length) :
    u16At p pos hp = u16At q pos hq := by
  have hfst : p[pos] = q[pos] := hag.getElem hlo (by omega) (by omega) (by omega)
  have hsnd : p[pos + 1] = q[pos + 1] := hag.getElem (by omega) (by omega) (by omega) (by omega)
  rw [u16At, u16At, hfst, hsnd]

/-- Two packets with the same question bytes have the same query type. -/
theorem parseQueryType_congr {p q : Bytes} {hi e : ℕ} (hag : AgreeOn 12 hi p q) (hhi : e + 2 ≤ hi)
    (hp : hi ≤ p.length) (hq : hi ≤ q.length) (h : skipDnsName p 12 = some e) :
    parseQueryType q = parseQueryType p := by
  have hlt := lt_of_skipDnsName h
  rw [parseQueryType_eq h, parseQueryType_eq (skipDnsName_congr hag (Nat.le_refl _) (by omega) h),
    dif_neg (by omega), dif_neg (by omega),
    u16At_congr hag (by omega) hhi (by omega) (by omega)]

def qdcount (packet : Bytes) : ℕ :=
  if h : packet.length < 12 then 0 else (u16At packet 4 (qdcount_inBounds h)).toNat

def questionSection (packet : Bytes) : Option Bytes :=
  if packet.length < 12 then none
  else (skipQuestions packet (qdcount packet) 12).map (slice packet 12)

theorem questionSection_eq_some_iff {packet sec : Bytes} :
    questionSection packet = some sec ↔
      12 ≤ packet.length ∧ ∃ e, skipQuestions packet (qdcount packet) 12 = some e ∧
        slice packet 12 e = sec := by
  rw [questionSection]
  by_cases h : packet.length < 12
  · simp [h, Nat.not_le.mpr h]
  · simp [h, Nat.le_of_not_lt h]

theorem length_slice {packet : Bytes} {lo hi : ℕ} (h : hi ≤ packet.length) :
    (slice packet lo hi).length = hi - lo := by
  rw [slice, List.length_take, List.length_drop]
  omega

/-- Equal question sections end at the same position and agree up to it. -/
theorem agreeOn_of_questionSection {p q sec : Bytes} (hp : questionSection p = some sec)
    (hq : questionSection q = some sec) :
    ∃ e, skipQuestions p (qdcount p) 12 = some e ∧ e ≤ p.length ∧ e ≤ q.length ∧
      AgreeOn 12 e p q := by
  obtain ⟨hp12, e, hpe, hps⟩ := questionSection_eq_some_iff.mp hp
  obtain ⟨hq12, e', hqe, hqs⟩ := questionSection_eq_some_iff.mp hq
  have hpb := skipQuestions_bounds hpe
  have hqb := skipQuestions_bounds hqe
  have hlen : e - 12 = e' - 12 := by
    rw [← length_slice (hpb.2 hp12), ← length_slice (hqb.2 hq12), hps, hqs]
  obtain rfl : e = e' := by omega
  exact ⟨e, hpe, hpb.2 hp12, hqb.2 hq12, (agreeOn_iff_slice_eq hpb.1).mpr (hqs.trans hps.symm)⟩

/-- A packet that repeats a nonempty question section is read as the original is. -/
theorem parse_eq_of_questionSection {p q sec : Bytes} (hp : questionSection p = some sec)
    (hq : questionSection q = some sec) (hone : 1 ≤ qdcount p) :
    parseQueryName q = parseQueryName p ∧ parseQueryType q = parseQueryType p := by
  obtain ⟨e, hpe, hple, hqle, hag⟩ := agreeOn_of_questionSection hp hq
  obtain ⟨n, hn⟩ : ∃ n, qdcount p = n + 1 := ⟨qdcount p - 1, by omega⟩
  rw [hn] at hpe
  obtain ⟨pos, hname, hpos, _⟩ := skipQuestions_succ hpe
  exact ⟨parseQueryName_congr hag (by omega) hname,
    parseQueryType_congr hag (by omega) hple hqle hname⟩

/-- The labels of the name at a position and the position behind it; none for a name
that is cut short or compressed. -/
def readLabels (packet : Bytes) (pos : ℕ) : Option (List Bytes × ℕ) :=
  if h : packet.length ≤ pos then none
  else
    let len := getElem packet pos (byte_inBounds h)
    if len = 0 then some ([], pos + 1)
    else if len &&& 0xC0 = 0xC0 then none
    else if packet.length < pos + 1 + len.toNat then none
    else
      (readLabels packet (pos + 1 + len.toNat)).map
        (fun r => (slice packet (pos + 1) (pos + 1 + len.toNat) :: r.1, r.2))
termination_by packet.length - pos

section ReadLabels
variable {packet : Bytes} {pos : ℕ}

theorem readLabels_end (h : packet.length ≤ pos) : readLabels packet pos = none := by
  rw [readLabels, dif_pos h]

theorem readLabels_zero (h : pos < packet.length) (hb : packet[pos] = 0) :
    readLabels packet pos = some ([], pos + 1) := by
  rw [readLabels, dif_neg (by omega)]
  simp [hb]

theorem readLabels_pointer (h : pos < packet.length) (hb : packet[pos] ≠ 0)
    (hptr : packet[pos] &&& 0xC0 = 0xC0) : readLabels packet pos = none := by
  rw [readLabels, dif_neg (by omega)]
  simp [hb, hptr]

theorem readLabels_short (h : pos < packet.length) (hb : packet[pos] ≠ 0)
    (hshort : packet.length < pos + 1 + packet[pos].toNat) : readLabels packet pos = none := by
  rw [readLabels, dif_neg (by omega)]
  simp [hb, hshort]

theorem readLabels_label (h : pos < packet.length) (hb : packet[pos] ≠ 0)
    (hptr : packet[pos] &&& 0xC0 ≠ 0xC0) (hin : pos + 1 + packet[pos].toNat ≤ packet.length) :
    readLabels packet pos = (readLabels packet (pos + 1 + packet[pos].toNat)).map
      (fun r => (slice packet (pos + 1) (pos + 1 + packet[pos].toNat) :: r.1, r.2)) := by
  rw [readLabels, dif_neg (by omega)]
  simp [hb, hptr, Nat.not_lt.mpr hin]

end ReadLabels

/-- The name loop renders the labels, if all of them are UTF-8. -/
theorem queryNameParts_eq_readLabels (packet : Bytes) (pos : ℕ) (parts : List String) :
    queryNameParts packet pos parts =
      (readLabels packet pos).bind (fun r => (r.1.mapM fromUtf8).map (parts ++ ·)) := by
  fun_induction queryNameParts packet pos parts with
  | case1 pos parts hend => rw [readLabels_end hend]; rfl
  | case2 pos parts hin len hzero =>
    rw [readLabels_zero (by omega) hzero]
    simp
  | case3 pos parts hin len hzero hptr => rw [readLabels_pointer (by omega) hzero hptr]; rfl
  | case4 pos parts hin len hzero hptr hshort =>
    rw [readLabels_short (by omega) hzero hshort]
    rfl
  | case5 pos parts hin len hzero hptr hshort hutf8 =>
    rw [readLabels_label (by omega) hzero hptr (Nat.le_of_not_lt hshort)]
    simp only [len] at hutf8
    cases readLabels packet (pos + 1 + packet[pos].toNat) with
    | none => rfl
    | some r => simp [hutf8]
  | case6 pos parts hin len hzero hptr hshort label hutf8 ih =>
    rw [ih, readLabels_label (by omega) hzero hptr (Nat.le_of_not_lt hshort)]
    simp only [len] at hutf8 ⊢
    cases readLabels packet (pos + 1 + packet[pos].toNat) with
    | none => rfl
    | some r => cases hlabels : r.1.mapM fromUtf8 <;> simp [hutf8, hlabels]

theorem skipDnsName_of_readLabels (packet : Bytes) (pos : ℕ) :
    ∀ r, readLabels packet pos = some r → skipDnsName packet pos = some r.2 := by
  fun_induction readLabels packet pos with
  | case1 => simp
  | case2 pos hin len hzero => simp [skipDnsName_zero (Nat.lt_of_not_le hin) hzero]
  | case3 => simp
  | case4 => simp
  | case5 pos hin len hzero hptr hshort ih =>
    intro r h
    obtain ⟨rest, hrest, rfl⟩ := Option.map_eq_some_iff.mp h
    rw [skipDnsName_label (by omega) hzero hptr]
    exact ih rest hrest

/-- A label on the wire is not empty. -/
theorem ne_nil_of_readLabels (packet : Bytes) (pos : ℕ) :
    ∀ r, readLabels packet pos = some r → ∀ label ∈ r.1, label ≠ [] := by
  fun_induction readLabels packet pos with
  | case1 => simp
  | case2 => simp
  | case3 => simp
  | case4 => simp
  | case5 pos hin len hzero hptr hshort ih =>
    intro r h label hlabel
    obtain ⟨rest, hrest, rfl⟩ := Option.map_eq_some_iff.mp h
    rcases List.mem_cons.mp hlabel with rfl | hold
    · have hpos : 0 < len.toNat := Nat.pos_of_ne_zero (fun h0 => hzero (UInt8.toNat.inj h0))
      have hlen : (slice packet (pos + 1) (pos + 1 + len.toNat)).length =
          pos + 1 + len.toNat - (pos + 1) := length_slice (Nat.le_of_not_lt hshort)
      exact List.ne_nil_of_length_pos (by omega)
    · exact ih rest hrest label hold

theorem queryNameParts_eq_some_iff {packet : Bytes} {pos : ℕ} {strs : List String} :
    queryNameParts packet pos [] = some strs ↔
      ∃ e, readLabels packet pos = some (strs.map strBytes, e) := by
  rw [queryNameParts_eq_readLabels]
  cases readLabels packet pos with
  | none => simp
  | some r => simp [mapM_fromUtf8_eq_some_iff, Prod.ext_iff, eq_comm]

/-- A query name is a nonempty sequence of UTF-8 labels, joined by dots. -/
theorem parseQueryName_eq_some_iff {packet : Bytes} {name : String} :
    parseQueryName packet = some name ↔ ∃ strs e, strs ≠ [] ∧
      readLabels packet 12 = some (strs.map strBytes, e) ∧ ".".intercalate strs = name := by
  rw [parseQueryName]
  constructor
  · intro h
    cases hparts : queryNameParts packet 12 [] with
    | none => simp [hparts] at h
    | some strs =>
      obtain ⟨e, hread⟩ := queryNameParts_eq_some_iff.mp hparts
      by_cases hnil : strs = []
      · simp [hparts, hnil] at h
      · simp only [hparts, List.isEmpty_iff, hnil, if_false, Option.some.injEq] at h
        exact ⟨strs, e, hnil, hread, h⟩
  · rintro ⟨strs, e, hnil, hread, rfl⟩
    rw [queryNameParts_eq_some_iff.mpr ⟨e, hread⟩]
    simp [hnil]

/-- A query name has a label, and no label is empty. -/
theorem ne_empty_of_parseQueryName {packet : Bytes} {name : String}
    (h : parseQueryName packet = some name) : name ≠ "" := by
  obtain ⟨strs, e, hnil, hread, rfl⟩ := parseQueryName_eq_some_iff.mp h
  obtain ⟨s, rest, rfl⟩ := List.exists_cons_of_ne_nil hnil
  have hlabel : strBytes s ≠ [] := ne_nil_of_readLabels packet 12 _ hread (strBytes s) (by simp)
  intro hempty
  have hbytes := congrArg strBytes hempty
  rw [strBytes_intercalate, List.map_cons] at hbytes
  exact intercalate_ne_nil hlabel hbytes

/-- The labels a query name is made of. -/
theorem isSome_parseQueryName_iff {packet : Bytes} :
    (parseQueryName packet).isSome ↔ ∃ labels e, readLabels packet 12 = some (labels, e) ∧
      labels ≠ [] ∧ ∀ label ∈ labels, (fromUtf8 label).isSome := by
  simp only [Option.isSome_iff_exists, parseQueryName_eq_some_iff]
  constructor
  · rintro ⟨name, strs, e, hnil, hread, _⟩
    refine ⟨_, e, hread, by simpa using hnil, ?_⟩
    intro label hlabel
    obtain ⟨s, _, rfl⟩ := List.mem_map.mp hlabel
    exact ⟨s, fromUtf8_eq_some_iff.mpr rfl⟩
  · rintro ⟨labels, e, hread, hnil, hutf8⟩
    obtain ⟨strs, rfl⟩ : labels ∈ Set.range (List.map strBytes) := by
      rw [Set.range_list_map]
      intro label hlabel
      obtain ⟨s, hs⟩ := hutf8 label hlabel
      exact ⟨s, fromUtf8_eq_some_iff.mp hs⟩
    exact ⟨_, strs, e, by simpa using hnil, hread, rfl⟩

end TransProxy.Dns
