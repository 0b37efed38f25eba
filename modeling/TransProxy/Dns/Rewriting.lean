import TransProxy.Dns.Cache
import TransProxy.Dns.Format

/-!
# What the aging of a response changes

`rewrite_ttls` finds the records while it writes. It writes into the TTLs of the records that it
reaches, which no walker reads to find its way, so the boundaries and everything else that is
parsed stay what they were. Of a message all TTLs are aged but those of OPT records.
-/
namespace TransProxy.Dns.Format
open Library Net

/-- The packets are of one length and the same from the position on. -/
structure SameFrom (pos : ℕ) (p q : Bytes) : Prop where
  length : p.length = q.length
  bytes : ∀ i, pos ≤ i → p[i]? = q[i]?

namespace SameFrom
variable {p q : Bytes} {pos : ℕ}

theorem symm (h : SameFrom pos p q) : SameFrom pos q p :=
  ⟨h.length.symm, fun i hi => (h.bytes i hi).symm⟩

theorem mono (h : SameFrom pos p q) {pos' : ℕ} (hle : pos ≤ pos') : SameFrom pos' p q :=
  ⟨h.length, fun i hi => h.bytes i (Nat.le_trans hle hi)⟩

theorem agreeOn (h : SameFrom pos p q) (hi : ℕ) : AgreeOn pos hi p q := fun i hlo _ => h.bytes i hlo

theorem skipDnsName_eq (h : SameFrom pos p q) : skipDnsName p pos = skipDnsName q pos := by
  apply Option.ext
  intro e
  exact ⟨skipDnsName_congr (h.agreeOn e) (Nat.le_refl _) (Nat.le_refl _),
    skipDnsName_congr (h.symm.agreeOn e) (Nat.le_refl _) (Nat.le_refl _)⟩

theorem u16At_eq (h : SameFrom pos p q) {i : ℕ} (hi : pos ≤ i) (hp : i + 2 ≤ p.length)
    (hq : i + 2 ≤ q.length) : u16At p i hp = u16At q i hq :=
  u16At_congr (h.agreeOn (i + 2)) hi (Nat.le_refl _) hp hq

end SameFrom

theorem recordIps_congr {p q : Bytes} {pos size : ℕ} {rtype rclass : UInt16}
    (hag : AgreeOn pos (pos + size) p q) (hp : pos + size ≤ p.length) (hq : pos + size ≤ q.length) :
    recordIps p pos rtype rclass size hp = recordIps q pos rtype rclass size hq := by
  have hbyte : ∀ i (hi : i < size), p[pos + i] = q[pos + i] :=
    fun i hi => hag.getElem (by omega) (by omega) _ _
  rw [recordIps, recordIps]
  split_ifs with hclass h4 h16
  · obtain ⟨_, rfl⟩ := h4
    rw [hbyte 1 (by omega), hbyte 2 (by omega), hbyte 3 (by omega)]
    exact congrArg (fun b => [IpAddr.v4 (.new b _ _ _)]) (hbyte 0 (by omega))
  · obtain ⟨_, rfl⟩ := h16
    congr 4
    exact funext fun i => hbyte i.val i.isLt
  · rfl
  · rfl

/-- The length of the record data, in the fields at the position. -/
def rdlengthAt (packet : Bytes) (pos : ℕ) (h : pos + 10 ≤ packet.length) : ℕ :=
  (u16At packet (pos + 8) (rdata_inBounds h)).toNat

/-- One answer is parsed alike in packets that differ in its TTL at most. -/
theorem ipRecords_congr_step {p q : Bytes} {n pos e : ℕ} (hlen : p.length = q.length)
    (hp : skipDnsName p pos = some e) (hq : skipDnsName q pos = some e)
    (htype : AgreeOn e (e + 4) p q)
    (hdata : ∀ h : e + 10 ≤ p.length, AgreeOn (e + 8) (e + 10 + rdlengthAt p e h) p q)
    (hnext : ∀ (h : e + 10 ≤ p.length) (ips : List IpAddr),
      ipRecords p n (e + 10 + rdlengthAt p e h) ips = ipRecords q n (e + 10 + rdlengthAt p e h) ips)
    (ips : List IpAddr) : ipRecords p (n + 1) pos ips = ipRecords q (n + 1) pos ips := by
  rw [ipRecords, ipRecords, hp, hq]
  by_cases hshort : p.length < e + 10
  · simp only [dif_pos hshort, dif_pos (hlen ▸ hshort)]
  · have hin : e + 10 ≤ p.length := Nat.le_of_not_lt hshort
    have hin' : e + 10 ≤ q.length := hlen ▸ hin
    have hrtype : u16At p e (by omega) = u16At q e (by omega) :=
      u16At_congr htype (Nat.le_refl _) (by omega) _ _
    have hrclass : u16At p (e + 2) (by omega) = u16At q (e + 2) (by omega) :=
      u16At_congr htype (by omega) (by omega) _ _
    have hrdlength : u16At p (e + 8) (by omega) = u16At q (e + 8) (by omega) :=
      u16At_congr (hdata hin) (Nat.le_refl _) (by omega) _ _
    have hnext' := hnext hin
    have hdata' := hdata hin
    simp only [rdlengthAt] at hnext' hdata'
    simp only [dif_neg hshort, dif_neg (hlen ▸ hshort), ← hrtype, ← hrclass, ← hrdlength]
    by_cases hcut : p.length < e + 10 + (u16At p (e + 8) (by omega)).toNat
    · simp only [dif_pos hcut, dif_pos (hlen ▸ hcut)]
    · simp only [dif_neg hcut, dif_neg (hlen ▸ hcut)]
      rw [hnext', recordIps_congr (hdata'.mono (by omega) (Nat.le_refl _))]

theorem SameFrom.ipRecords_eq {p q : Bytes} {n : ℕ} :
    ∀ {pos : ℕ}, SameFrom pos p q → ∀ ips : List IpAddr,
      ipRecords p n pos ips = ipRecords q n pos ips := by
  induction n with
  | zero => exact fun _ _ => rfl
  | succ n ih =>
    intro pos h ips
    cases hname : skipDnsName p pos with
    | none => rw [ipRecords, ipRecords, ← h.skipDnsName_eq, hname]
    | some e =>
      have hlt := (lt_of_skipDnsName hname).1
      refine ipRecords_congr_step h.length hname (h.skipDnsName_eq ▸ hname)
        ((h.mono (by omega)).agreeOn _) (fun _ => (h.mono (by omega)).agreeOn _) ?_ ips
      exact fun _ ips => ih (h.mono (by omega)) ips

/-- Where the fields behind the names of the records stand, as far as the walk gets. -/
def headersFrom (packet : Bytes) : ℕ → ℕ → List ℕ
  | 0, _ => []
  | n + 1, pos =>
    match skipDnsName packet pos with
    | none => []
    | some e =>
      if h : e + 10 ≤ packet.length then
        e :: headersFrom packet n (e + 10 + rdlengthAt packet e h)
      else []

def recordCount (packet : Bytes) : ℕ :=
  if h : packet.length < 12 then 0
  else (u16At packet 6 (ancount_inBounds h)).toNat + (u16At packet 8 (nscount_inBounds h)).toNat +
    (u16At packet 10 (arcount_inBounds h)).toNat

/-- Where the records of all sections have their fields. -/
def recordHeaders (packet : Bytes) : List ℕ :=
  if packet.length < 12 then []
  else
    match skipQuestions packet (qdcount packet) 12 with
    | none => []
    | some pos => headersFrom packet (recordCount packet) pos

theorem SameFrom.headersFrom_eq {p q : Bytes} {n : ℕ} :
    ∀ {pos : ℕ}, SameFrom pos p q → headersFrom p n pos = headersFrom q n pos := by
  induction n with
  | zero => exact fun _ => rfl
  | succ n ih =>
    intro pos h
    rw [headersFrom, headersFrom, ← h.skipDnsName_eq]
    cases hname : skipDnsName p pos with
    | none => rfl
    | some e =>
      have hlt := (lt_of_skipDnsName hname).1
      by_cases hin : e + 10 ≤ p.length
      · have hin' : e + 10 ≤ q.length := h.length ▸ hin
        have hrdlength : rdlengthAt p e hin = rdlengthAt q e hin' :=
          congrArg UInt16.toNat (h.u16At_eq (by omega) _ _)
        simp only [dif_pos hin, dif_pos hin', hrdlength]
        rw [ih (h.mono (by omega))]
      · simp only [dif_neg hin, dif_neg (h.length ▸ hin)]

theorem lt_of_mem_headersFrom {packet : Bytes} {n : ℕ} :
    ∀ {pos : ℕ}, ∀ e ∈ headersFrom packet n pos, pos < e := by
  induction n with
  | zero => exact fun _ he => absurd he List.not_mem_nil
  | succ n ih =>
    intro pos e he
    rw [headersFrom] at he
    cases hname : skipDnsName packet pos with
    | none => simp [hname] at he
    | some e' =>
      have hlt := (lt_of_skipDnsName hname).1
      by_cases hin : e' + 10 ≤ packet.length
      · simp only [hname, dif_pos hin, List.mem_cons] at he
        rcases he with rfl | hlater
        · exact hlt
        · have hnext := ih e hlater
          omega
      · simp [hname, hin] at he

theorem getElem?_setTtl {packet : Bytes} {pos i : ℕ} {ttl : UInt32} (h : pos + 4 ≤ packet.length)
    (hi : i < pos ∨ pos + 4 ≤ i) : (setTtl packet pos ttl)[i]? = packet[i]? := by
  have hfront : (packet.take pos ++ u32ToBeBytes ttl).length = pos + 4 := by
    rw [List.length_append, List.length_take_of_le (by omega), length_u32ToBeBytes]
  rcases hi with hlow | hhigh
  · rw [setTtl, List.append_assoc, List.getElem?_append_left, List.getElem?_take_of_lt hlow]
    rw [List.length_take_of_le (by omega)]
    exact hlow
  · rw [setTtl, List.getElem?_append_right (by omega), hfront, List.getElem?_drop]
    congr 1
    omega

section Age
variable {secs : UInt32} {packet : Bytes} {pos : ℕ}

variable (secs) in
theorem length_ageRecord (h : pos + 10 ≤ packet.length) :
    (ageRecord secs packet pos h).length = packet.length := by
  rw [ageRecord]
  split_ifs
  · rfl
  · exact length_setTtl (by omega)

theorem getElem?_ageRecord (h : pos + 10 ≤ packet.length) {i : ℕ} (hi : i < pos + 4 ∨ pos + 8 ≤ i) :
    (ageRecord secs packet pos h)[i]? = packet[i]? := by
  rw [ageRecord]
  split_ifs
  · rfl
  · exact getElem?_setTtl (by omega) hi

variable (secs) in
/-- An aged record is the same behind its TTL. -/
theorem sameFrom_ageRecord (h : pos + 10 ≤ packet.length) :
    SameFrom (pos + 8) (ageRecord secs packet pos h) packet :=
  ⟨length_ageRecord secs h, fun _ hi => getElem?_ageRecord h (.inr hi)⟩

theorem ageRecord_opt (h : pos + 10 ≤ packet.length)
    (hopt : HoldsAt packet pos (u16ToBeBytes dnsTypeOpt)) :
    ageRecord secs packet pos h = packet := by
  rw [ageRecord, if_pos (u16At_holdsAt hopt _)]

/-- The walk ends at a record that has no room for its fields, writes the TTL of one that has no
room for its data and ends there too, or writes it and goes on. -/
theorem rewriteRecords_succ (secs : UInt32) (n pos : ℕ) (packet : Bytes) :
    rewriteRecords secs (n + 1) pos packet = (packet, none) ∨
      ∃ (e : ℕ) (h : e + 10 ≤ packet.length), skipDnsName packet pos = some e ∧
        (rewriteRecords secs (n + 1) pos packet = (ageRecord secs packet e h, none) ∨
          e + 10 + rdlengthAt packet e h ≤ packet.length ∧
            rewriteRecords secs (n + 1) pos packet =
              rewriteRecords secs n (e + 10 + rdlengthAt packet e h)
                (ageRecord secs packet e h)) := by
  rw [rewriteRecords]
  cases hname : skipDnsName packet pos with
  | none => exact .inl rfl
  | some e =>
    by_cases hshort : packet.length < e + 10
    · exact .inl (by simp only [dif_pos hshort])
    · have h : e + 10 ≤ packet.length := Nat.le_of_not_lt hshort
      refine .inr ⟨e, h, rfl, ?_⟩
      simp only [dif_neg hshort, length_ageRecord, rdlengthAt]
      by_cases hcut : packet.length < e + 10 + (u16At packet (e + 8) (by omega)).toNat
      · exact .inl (if_pos hcut)
      · exact .inr ⟨Nat.le_of_not_lt hcut, if_neg hcut⟩

theorem length_rewriteRecords {n : ℕ} :
    ∀ {pos : ℕ} {packet : Bytes}, (rewriteRecords secs n pos packet).1.length = packet.length := by
  induction n with
  | zero => exact rfl
  | succ n ih =>
    intro pos packet
    rcases rewriteRecords_succ secs n pos packet with h | ⟨e, he, _, h | ⟨_, h⟩⟩
    · rw [h]
    · rw [h, length_ageRecord]
    · rw [h, ih, length_ageRecord]

/-- The header of an aged record, if a byte of it changed. -/
theorem header_of_ageRecord (h : pos + 10 ≤ packet.length) {i : ℕ}
    (hi : (ageRecord secs packet pos h)[i]? ≠ packet[i]?) :
    ¬ HoldsAt packet pos (u16ToBeBytes dnsTypeOpt) ∧ pos + 4 ≤ i ∧ i < pos + 8 := by
  refine ⟨?_, ?_⟩
  · intro hopt
    rw [ageRecord_opt h hopt] at hi
    exact hi rfl
  · by_contra hout
    exact hi (getElem?_ageRecord h (by omega))

theorem changed_of_rewriteRecords {n : ℕ} {i : ℕ} : ∀ {pos : ℕ} {packet : Bytes},
    (rewriteRecords secs n pos packet).1[i]? ≠ packet[i]? →
      ∃ e ∈ headersFrom packet n pos, ¬ HoldsAt packet e (u16ToBeBytes dnsTypeOpt) ∧
        e + 4 ≤ i ∧ i < e + 8 := by
  induction n with
  | zero => exact fun h => absurd rfl h
  | succ n ih =>
    intro pos packet hi
    rcases rewriteRecords_succ secs n pos packet with h | ⟨e, he, hname, h⟩
    · rw [h] at hi
      exact absurd rfl hi
    have hheaders : headersFrom packet (n + 1) pos =
        e :: headersFrom packet n (e + 10 + rdlengthAt packet e he) := by
      rw [headersFrom, hname]
      exact dif_pos he
    rw [hheaders]
    by_cases hage : (ageRecord secs packet e he)[i]? = packet[i]?
    · rcases h with h | ⟨_, h⟩
      · rw [h] at hi
        exact absurd hage hi
      · rw [h, ← hage] at hi
        obtain ⟨e', he', hopt, hrange⟩ := ih hi
        have hlt := lt_of_mem_headersFrom e' he'
        -- the rest of the walk is over bytes that were not written
        have hsame := (sameFrom_ageRecord secs he).mono
          (show e + 8 ≤ e + 10 + rdlengthAt packet e he by omega)
        rw [hsame.headersFrom_eq] at he'
        refine ⟨e', List.mem_cons_of_mem e he', ?_, hrange⟩
        intro hopt'
        exact hopt (hopt'.congr ((hsame.symm.mono (Nat.le_of_lt hlt)).agreeOn _)
          (length_ageRecord secs he ▸ hopt'.1))
    · exact ⟨e, List.mem_cons_self, header_of_ageRecord he hage⟩

theorem getElem?_rewriteRecords {n i : ℕ} (h : i < pos) :
    (rewriteRecords secs n pos packet).1[i]? = packet[i]? := by
  have htake := congrArg (fun bytes => bytes[i]?)
    (take_rewriteRecords secs n pos packet (Nat.le_refl pos))
  simpa only [List.getElem?_take_of_lt h] using htake

/-- The walk leaves what is in front of the TTL of its first record. -/
theorem agreeOn_rewriteRecords {n e : ℕ} (hname : skipDnsName packet pos = some e) (lo : ℕ) :
    AgreeOn lo (e + 4) (rewriteRecords secs n pos packet).1 packet := by
  have hlt := (lt_of_skipDnsName hname).1
  cases n with
  | zero => exact fun _ _ _ => rfl
  | succ n =>
    rcases rewriteRecords_succ secs n pos packet with h | ⟨e', he, hname', h⟩
    · rw [h]
      exact fun _ _ _ => rfl
    · obtain rfl := Option.some.inj (hname.symm.trans hname')
      intro i _ hi
      have hfirst : (ageRecord secs packet e he)[i]? = packet[i]? :=
        getElem?_ageRecord he (.inl hi)
      rcases h with h | ⟨_, h⟩
      · rw [h, hfirst]
      · rw [h, getElem?_rewriteRecords (by omega), hfirst]

theorem ipRecords_rewriteRecords {n : ℕ} : ∀ {pos : ℕ} {packet : Bytes} (k : ℕ) (ips : List IpAddr),
    ipRecords (rewriteRecords secs n pos packet).1 k pos ips = ipRecords packet k pos ips := by
  induction n with
  | zero => exact fun _ _ => rfl
  | succ n ih =>
    intro pos packet k ips
    rcases rewriteRecords_succ secs n pos packet with h | ⟨e, he, hname, h⟩
    · rw [h]
    cases k with
    | zero => rfl
    | succ k =>
      have hag : AgreeOn 0 (e + 4) (rewriteRecords secs (n + 1) pos packet).1 packet :=
        agreeOn_rewriteRecords hname 0
      have hsame := sameFrom_ageRecord secs he
      refine (ipRecords_congr_step length_rewriteRecords.symm hname ?_ ?_ ?_ ?_ ips).symm
      · exact skipDnsName_congr hag.symm (Nat.zero_le _) (by omega) hname
      · exact (hag.mono (Nat.zero_le _) (Nat.le_refl _)).symm
      · rintro _ i hlo hi
        rcases h with h | ⟨_, h⟩
        · rw [h, hsame.bytes i hlo]
        · rw [h, getElem?_rewriteRecords hi, hsame.bytes i hlo]
      · intro _ ips
        have hrest := hsame.mono (show e + 8 ≤ e + 10 + rdlengthAt packet e he by omega)
        rcases h with h | ⟨_, h⟩
        · rw [h, hrest.ipRecords_eq]
        · rw [h, ih, hrest.ipRecords_eq]

/-- Nothing is written, or the record walk starts behind the questions. -/
theorem rewriteTtls_cases (packet : Bytes) (secs : UInt32) :
    rewriteTtls packet secs = (packet, none) ∨
      ¬ packet.length < 12 ∧ ∃ pos, skipQuestions packet (qdcount packet) 12 = some pos ∧
        rewriteTtls packet secs = rewriteRecords secs (recordCount packet) pos packet := by
  rw [rewriteTtls]
  by_cases h : packet.length < 12
  · exact .inl (dif_pos h)
  · have hcount : qdcount packet = (u16At packet 4 (qdcount_inBounds h)).toNat := dif_neg h
    have hrecords : recordCount packet = _ := dif_neg h
    rw [hcount, hrecords]
    simp only [dif_neg h]
    cases hquestions : skipQuestions packet (u16At packet 4 (qdcount_inBounds h)).toNat 12 with
    | none => exact .inl rfl
    | some pos => exact .inr ⟨h, pos, rfl, rfl⟩

theorem length_rewriteTtls (packet : Bytes) (secs : UInt32) :
    (rewriteTtls packet secs).1.length = packet.length := by
  rcases rewriteTtls_cases packet secs with h | ⟨_, pos, _, h⟩
  · rw [h]
  · rw [h, length_rewriteRecords]

theorem changed_of_rewriteTtls {packet : Bytes} {secs : UInt32} {i : ℕ}
    (hi : (rewriteTtls packet secs).1[i]? ≠ packet[i]?) :
    ∃ pos ∈ recordHeaders packet, ¬ HoldsAt packet pos (u16ToBeBytes dnsTypeOpt) ∧
      pos + 4 ≤ i ∧ i < pos + 8 := by
  rcases rewriteTtls_cases packet secs with h | ⟨hlen, pos, hquestions, h⟩
  · rw [h] at hi
    exact absurd rfl hi
  · rw [h] at hi
    rw [recordHeaders, if_neg hlen, hquestions]
    exact changed_of_rewriteRecords hi

/-- The name behind the header, and what stands between it and the first TTL, is left. -/
theorem rewriteTtls_eq_or (packet : Bytes) (secs : UInt32) :
    (rewriteTtls packet secs).1 = packet ∨
      ∃ e, skipDnsName packet 12 = some e ∧
        AgreeOn 12 (e + 4) packet (rewriteTtls packet secs).1 := by
  rcases rewriteTtls_cases packet secs with h | ⟨hlen, pos, hquestions, h⟩
  · exact .inl (congrArg Prod.fst h)
  rw [h]
  cases hcount : qdcount packet with
  | zero =>
    rw [hcount] at hquestions
    obtain rfl := Option.some.inj hquestions
    cases hname : skipDnsName packet 12 with
    | none =>
      left
      cases recordCount packet with
      | zero => rfl
      | succ n => rw [rewriteRecords, hname]
    | some e => exact .inr ⟨e, rfl, (agreeOn_rewriteRecords hname 12).symm⟩
  | succ n =>
    rw [hcount] at hquestions
    obtain ⟨e, hname, hle, _⟩ := skipQuestions_succ hquestions
    refine .inr ⟨e, hname, ?_⟩
    intro i _ hi
    rw [getElem?_rewriteRecords (show i < pos by omega)]

theorem parseQueryName_rewriteTtls (packet : Bytes) (secs : UInt32) :
    parseQueryName (rewriteTtls packet secs).1 = parseQueryName packet := by
  rcases rewriteTtls_eq_or packet secs with h | ⟨e, hname, hag⟩
  · rw [h]
  · exact parseQueryName_congr hag (Nat.le_add_right e 4) hname

theorem parseQueryType_rewriteTtls (packet : Bytes) (secs : UInt32) :
    parseQueryType (rewriteTtls packet secs).1 = parseQueryType packet := by
  have hlen := length_rewriteTtls packet secs
  rcases rewriteTtls_eq_or packet secs with h | ⟨e, hname, hag⟩
  · rw [h]
  · have hname' := skipDnsName_congr hag (Nat.le_refl 12) (Nat.le_add_right e 4) hname
    have hlt := lt_of_skipDnsName hname
    rw [parseQueryType_eq hname, parseQueryType_eq hname']
    by_cases hshort : packet.length < e + 2
    · rw [dif_pos hshort, dif_pos (hlen ▸ hshort)]
    · rw [dif_neg hshort, dif_neg (hlen ▸ hshort)]
      exact congrArg some (u16At_congr hag.symm (by omega) (by omega) _ _)

/-- Packets that are the same as far as the answers, and whose answers are parsed alike. -/
theorem parseIpRecords_congr {p q : Bytes} {pos : ℕ} (hlen : p.length = q.length)
    (hag : AgreeOn 0 pos p q) (h12 : ¬ p.length < 12)
    (hquestions : skipQuestions p (qdcount p) 12 = some pos)
    (hwalk : ∀ k ips, ipRecords p k pos ips = ipRecords q k pos ips) :
    parseIpRecords p = parseIpRecords q := by
  have h12' : ¬ q.length < 12 := hlen ▸ h12
  have hbounds := skipQuestions_bounds hquestions
  have hend : pos ≤ q.length := hlen ▸ hbounds.2 (Nat.le_of_not_lt h12)
  have hquestions' := skipQuestions_congr hag (Nat.zero_le _) (Nat.le_refl pos) hend hquestions
  have hancount : u16At p 6 (by omega) = u16At q 6 (by omega) :=
    u16At_congr hag (Nat.zero_le _) (by omega) _ _
  have hqdcount : u16At p 4 (by omega) = u16At q 4 (by omega) :=
    u16At_congr hag (Nat.zero_le _) (by omega) _ _
  rw [show qdcount p = _ from dif_neg h12] at hquestions hquestions'
  rw [hqdcount] at hquestions'
  rw [parseIpRecords, parseIpRecords]
  simp only [dif_neg h12, dif_neg h12', hquestions, hquestions', hancount, hwalk]

theorem parseIpRecords_rewriteTtls (packet : Bytes) (secs : UInt32) :
    parseIpRecords (rewriteTtls packet secs).1 = parseIpRecords packet := by
  rcases rewriteTtls_cases packet secs with h | ⟨hlen, pos, hquestions, h⟩
  · rw [h]
  · rw [h]
    refine (parseIpRecords_congr length_rewriteRecords.symm ?_ hlen hquestions ?_).symm
    · exact fun i _ hi => (getElem?_rewriteRecords hi).symm
    · exact fun k ips => (ipRecords_rewriteRecords k ips).symm

end Age

end TransProxy.Dns.Format
