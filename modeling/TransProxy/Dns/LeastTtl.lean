import Mathlib.Order.Bounds.Defs
import TransProxy.Dns.Addresses
import TransProxy.Dns.Cache

/-!
# The least TTL of the answers

`extract_min_ttl` takes the least TTL of the answers, except that it takes the largest number
there is for a response without one. The lifetimes in the table and in the cache follow it.
-/
namespace TransProxy.Dns.Format
open Library Net

def Response.Ttls (m : Response) : Set UInt32 := {ttl | ∃ r ∈ m.answers, r.ttl = ttl}

/-- The fold of the answer loop. -/
def lesserTtl (least : UInt32) (r : Record) : UInt32 := if r.ttl < least then r.ttl else least

theorem lesserTtl_cases (least : UInt32) (r : Record) :
    (lesserTtl least r = least ∨ lesserTtl least r = r.ttl) ∧
      (lesserTtl least r).toNat ≤ least.toNat ∧ (lesserTtl least r).toNat ≤ r.ttl.toNat := by
  rw [lesserTtl]
  split_ifs with hless
  · rw [UInt32.lt_iff_toNat_lt] at hless
    exact ⟨.inr rfl, Nat.le_of_lt hless, Nat.le_refl _⟩
  · rw [UInt32.lt_iff_toNat_lt] at hless
    exact ⟨.inl rfl, Nat.le_refl _, Nat.le_of_not_lt hless⟩

/-- The fold ends with a TTL or where it began, and below all of them. -/
theorem foldl_lesserTtl (rs : List Record) (least : UInt32) :
    (rs.foldl lesserTtl least = least ∨ ∃ r ∈ rs, r.ttl = rs.foldl lesserTtl least) ∧
      (rs.foldl lesserTtl least).toNat ≤ least.toNat ∧
        ∀ r ∈ rs, (rs.foldl lesserTtl least).toNat ≤ r.ttl.toNat := by
  induction rs generalizing least with
  | nil => simp
  | cons r rs ih =>
    obtain ⟨hfrom, hle, hall⟩ := ih (lesserTtl least r)
    obtain ⟨hstep, hleast, hr⟩ := lesserTtl_cases least r
    rw [List.foldl_cons]
    refine ⟨?_, Nat.le_trans hle hleast, ?_⟩
    · rcases hfrom with hsame | ⟨r', hr', httl⟩
      · rcases hstep with hold | hnew
        · exact .inl (hsame.trans hold)
        · exact .inr ⟨r, List.mem_cons_self, (hsame.trans hnew).symm⟩
      · exact .inr ⟨r', List.mem_cons_of_mem r hr', httl⟩
    · intro r' hr'
      rcases List.mem_cons.mp hr' with rfl | htail
      · exact Nat.le_trans hle hr
      · exact hall r' htail

section Walk
variable {packet : Bytes}

theorem minTtl_holdsAt_record {r : Record} {pos : ℕ} (h : HoldsAt packet pos r.encode) (n : ℕ)
    (least : UInt32) : minTtl packet (n + 1) pos least =
      minTtl packet n (pos + r.encode.length) (lesserTtl least r) := by
  rw [Record.encode, holdsAt_append, holdsAt_append] at h
  obtain ⟨hname, hfields, _⟩ := h
  have hread := Record.readAt hfields
  rw [minTtl, skipDnsName_holdsAt hname]
  simp only [dif_neg (Nat.not_lt_of_le hread.inBounds), hread.ttl, hread.rdlength]
  rw [r.length_encode, ← Nat.add_assoc, ← Nat.add_assoc, lesserTtl]

theorem minTtl_holdsAt {rs : List Record} :
    ∀ {pos : ℕ}, HoldsAt packet pos (encodeRecords rs) → ∀ least : UInt32,
      minTtl packet rs.length pos least = some (rs.foldl lesserTtl least) := by
  induction rs with
  | nil => exact fun _ _ => rfl
  | cons r rs ih =>
    intro pos h least
    rw [encodeRecords_cons, holdsAt_append] at h
    rw [List.length_cons, minTtl_holdsAt_record h.1, ih h.2, List.foldl_cons]

end Walk

theorem extractMinTtl_encode (m : Response) : extractMinTtl m.encode =
    if m.answers.foldl lesserTtl u32Max = u32Max then none
      else some (m.answers.foldl lesserTtl u32Max) := by
  have hread := Response.readBy (holdsAt_start m.opening (encodeRecords m.answers ++ m.rest))
  have hanswers : HoldsAt m.encode m.opening.length (encodeRecords m.answers) :=
    holdsAt_iff.mpr ⟨m.opening, m.rest, by rw [Response.encode, List.append_assoc], rfl⟩
  rw [← Response.encode] at hread
  have hlen := hread.inBounds
  rw [extractMinTtl]
  simp only [dif_neg (Nat.not_lt_of_le hlen), hread.ancount, hread.qdcount, hread.answers,
    minTtl_holdsAt hanswers, List.length_eq_zero_iff]
  by_cases hnone : m.answers = []
  · simp [hnone]
  · rw [if_neg hnone]

/-- The fold over the answers is their least TTL. -/
theorem isLeast_foldl (m : Response) (h : m.answers ≠ []) :
    IsLeast m.Ttls (m.answers.foldl lesserTtl u32Max) := by
  obtain ⟨hfrom, _, hall⟩ := foldl_lesserTtl m.answers u32Max
  have hlower : ∀ r ∈ m.answers, m.answers.foldl lesserTtl u32Max ≤ r.ttl :=
    fun r hr => UInt32.le_iff_toNat_le.mpr (hall r hr)
  refine ⟨?_, ?_⟩
  · rcases hfrom with hmax | hmem
    · -- a fold that ends with the largest number has nothing else to end with
      obtain ⟨r, hr⟩ := List.exists_mem_of_ne_nil m.answers h
      have hle := hall r hr
      have hlt := r.ttl.toNat_lt
      have hsentinel : u32Max.toNat = 4294967295 := rfl
      rw [hmax] at hle ⊢
      exact ⟨r, hr, UInt32.toNat.inj (by omega)⟩
    · exact hmem
  · rintro _ ⟨r, hr, rfl⟩
    exact hlower r hr

theorem eq_of_isLeast {m : Response} {a b : UInt32} (ha : IsLeast m.Ttls a)
    (hb : IsLeast m.Ttls b) : a = b := by
  have hab : a ≤ b := ha.2 hb.1
  have hba : b ≤ a := hb.2 ha.1
  exact UInt32.le_antisymm hab hba

/-- The least TTL of the answers decides how long they are kept. -/
structure Response.KeptFor (m : Response) (least : UInt32) : Prop where
  extracted : extractMinTtl m.encode = some least
  cached : ∀ (order : CacheOrder) (cache : DnsCache) (key : Bytes) (time : Instant)
    (clock : Bytes → Instant) (txId : UInt16) (now agedNow : Instant),
    ((cache.put order key m.encode time clock).get key txId now agedNow).isSome ↔
      now < time + fromSecs (max 30 (min 3600 least.toNat))
  table : (tableTtl m.encode).toNat = max 300 (min 86400 least.toNat)

theorem keptFor_of_extracted {m : Response} {least : UInt32}
    (h : extractMinTtl m.encode = some least) : m.KeptFor least where
  extracted := h
  cached := by
    intro order cache key time clock txId now agedNow
    have hlife : (cacheTtl m.encode).toNat = max 30 (min 3600 least.toNat) := by
      rw [toNat_cacheTtl, h, Option.getD_some]
    rw [DnsCache.get, DnsCache.put, HashMap.lookup_insert_eq, if_pos rfl]
    dsimp only
    rw [hlife]
    split_ifs with hexpired
    · simp [Nat.not_lt.mpr hexpired]
    · simp [Nat.lt_of_not_le hexpired]
  table := by rw [toNat_tableTtl, h, Option.getD_some]

/-- The least TTL is found exactly when there is an answer whose TTL is not the sentinel. -/
theorem keptFor_iff (m : Response) (h : m.answers ≠ []) :
    (∃ least, IsLeast m.Ttls least ∧ m.KeptFor least) ↔ ∃ r ∈ m.answers, r.ttl ≠ u32Max := by
  have hleast := isLeast_foldl m h
  have hextract := extractMinTtl_encode m
  constructor
  · rintro ⟨least, hl, hkept⟩
    obtain rfl := eq_of_isLeast hl hleast
    obtain ⟨⟨r, hr, httl⟩, _⟩ := hl
    refine ⟨r, hr, ?_⟩
    intro hmax
    rw [if_pos (httl.symm.trans hmax), hkept.extracted] at hextract
    cases hextract
  · rintro ⟨r, hr, hne⟩
    refine ⟨_, hleast, keptFor_of_extracted ?_⟩
    rw [hextract, if_neg]
    intro hmax
    have hle : u32Max ≤ r.ttl := hmax ▸ hleast.2 ⟨r, hr, rfl⟩
    have hlt := r.ttl.toNat_lt
    have hsentinel : u32Max.toNat = 4294967295 := rfl
    rw [UInt32.le_iff_toNat_le] at hle
    exact hne (UInt32.toNat.inj (by omega))

def oneAnswer (ttl : UInt32) : Response :=
  { id := 0x1234, flags := 0x8180, nscount := 0, arcount := 0
    questions := questionsA
    answers := [answerA 1 ttl], rest := []
    questions_lt := questionsA_lt, answers_lt := by simp }

theorem keptFor_iff_sample : (oneAnswer 60).answers ≠ [] ∧
    ∃ least, IsLeast (oneAnswer 60).Ttls least ∧ (oneAnswer 60).KeptFor least := by
  have hanswers : (oneAnswer 60).answers ≠ [] := by simp [oneAnswer]
  refine ⟨hanswers, (keptFor_iff (oneAnswer 60) hanswers).mpr ⟨answerA 1 60, ?_, by decide⟩⟩
  exact List.mem_singleton_self _

/-- A TTL of 4294967295 seconds is read as none, and the answer kept for the shortest times. -/
theorem not_keptFor_max : IsLeast (oneAnswer u32Max).Ttls u32Max ∧
    extractMinTtl (oneAnswer u32Max).encode = none ∧
    (cacheTtl (oneAnswer u32Max).encode).toNat = 30 ∧
    (tableTtl (oneAnswer u32Max).encode).toNat = 300 ∧
    ¬ ∃ least, IsLeast (oneAnswer u32Max).Ttls least ∧ (oneAnswer u32Max).KeptFor least := by
  have hnone : extractMinTtl (oneAnswer u32Max).encode = none := by decide +kernel
  have hleast : IsLeast (oneAnswer u32Max).Ttls u32Max := isLeast_foldl _ (by simp [oneAnswer])
  refine ⟨hleast, hnone, by decide +kernel, by decide +kernel, ?_⟩
  rintro ⟨least, _, hkept⟩
  rw [hkept.extracted] at hnone
  cases hnone

end TransProxy.Dns.Format
