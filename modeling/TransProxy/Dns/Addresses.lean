import Mathlib.Tactic.IntervalCases
import TransProxy.Dns.Format

/-!
# The addresses of a response

`parse_ip_records` finds the addresses of all answers. Of a response that is cut off behind
its questions it finds those of the answers that are whole, unless the cut falls in front of the
end of an owner name: then what was found is lost.
-/
namespace TransProxy.Dns.Format
open Library Net

/-- The address of a record of class IN and type A or AAAA. -/
def Record.address (r : Record) : Option IpAddr :=
  if r.rclass = dnsClassIn then
    if h : r.rtype = dnsTypeA ∧ r.rdata.length = 4 then
      some (.v4 ⟨⟨r.rdata.toArray, by rw [List.size_toArray]; exact h.2⟩⟩)
    else if h : r.rtype = dnsTypeAaaa ∧ r.rdata.length = 16 then
      some (.v6 ⟨⟨r.rdata.toArray, by rw [List.size_toArray]; exact h.2⟩⟩)
    else none
  else none

def addresses (rs : List Record) : List IpAddr := rs.filterMap Record.address

def found (ips : List IpAddr) : Option (List IpAddr) := if ips = [] then none else some ips

theorem recordIps_holdsAt {packet : Bytes} {r : Record} {pos : ℕ} (h : HoldsAt packet pos r.rdata)
    (hin : pos + r.rdata.length ≤ packet.length) :
    recordIps packet pos r.rtype r.rclass r.rdata.length hin = r.address.toList := by
  rw [recordIps, Record.address]
  by_cases hclass : r.rclass = dnsClassIn
  · rw [if_pos hclass, if_pos hclass]
    by_cases h4 : r.rtype = dnsTypeA ∧ r.rdata.length = 4
    · rw [dif_pos h4, dif_pos h4, Option.toList_some, List.singleton_inj, IpAddr.v4.injEq,
        Ipv4Addr.new, Ipv4Addr.mk.injEq]
      have hbyte : ∀ i (hi : i < 4), packet[pos + i] = r.rdata[i] :=
        fun i hi => h.getElem_add (by omega) (by omega)
      apply Vector.ext
      intro i hi
      interval_cases i
      · exact hbyte 0 hi
      · exact hbyte 1 hi
      · exact hbyte 2 hi
      · exact hbyte 3 hi
    · rw [dif_neg h4, dif_neg h4]
      by_cases h16 : r.rtype = dnsTypeAaaa ∧ r.rdata.length = 16
      · rw [dif_pos h16, dif_pos h16, Option.toList_some, List.singleton_inj, IpAddr.v6.injEq,
          Ipv6Addr.mk.injEq]
        apply Vector.ext
        intro i hi
        rw [Vector.getElem_ofFn]
        exact h.getElem_add (by omega) (by omega)
      · rw [dif_neg h16, dif_neg h16, Option.toList_none]
  · rw [if_neg hclass, if_neg hclass, Option.toList_none]

section Walk
variable {packet : Bytes} {pos : ℕ}

theorem ipRecords_holdsAt_record {r : Record} (h : HoldsAt packet pos r.encode) (n : ℕ)
    (ips : List IpAddr) : ipRecords packet (n + 1) pos ips =
      ipRecords packet n (pos + r.encode.length) (ips ++ r.address.toList) := by
  have hlen := h.length_le
  rw [Record.encode, holdsAt_append, holdsAt_append] at h
  obtain ⟨hname, hfields, hdata⟩ := h
  have hread := Record.readAt hfields
  have hin := hread.inBounds
  rw [r.length_fields] at hdata
  rw [r.length_encode] at hlen ⊢
  have hwhole : ¬ packet.length < pos + r.name.encode.length + 10 + r.rdata.length := by omega
  rw [ipRecords, skipDnsName_holdsAt hname]
  simp only [dif_neg (Nat.not_lt_of_le hin), hread.rtype, hread.rclass, hread.rdlength,
    dif_neg hwhole, recordIps_holdsAt hdata]
  rw [← Nat.add_assoc, ← Nat.add_assoc]

theorem ipRecords_holdsAt {rs : List Record} :
    ∀ {pos : ℕ}, HoldsAt packet pos (encodeRecords rs) → ∀ (n : ℕ) (ips : List IpAddr),
      ipRecords packet (rs.length + n) pos ips =
        ipRecords packet n (pos + (encodeRecords rs).length) (ips ++ addresses rs) := by
  induction rs with
  | nil =>
    intro pos _ n ips
    simp [addresses]
  | cons r rs ih =>
    intro pos h n ips
    rw [encodeRecords_cons, holdsAt_append] at h
    rw [List.length_cons, Nat.add_right_comm, ipRecords_holdsAt_record h.1, ih h.2,
      encodeRecords_cons, List.length_append, Nat.add_assoc pos, List.append_assoc]
    congr 2
    cases haddress : r.address <;> simp [addresses, haddress]

theorem parseIpRecords_of_readBy {m : Response} (h : m.ReadBy packet) :
    parseIpRecords packet = if m.answers = [] then none else
      (ipRecords packet m.answers.length m.opening.length []).bind found := by
  have hlen := h.inBounds
  rw [parseIpRecords]
  simp only [dif_neg (Nat.not_lt_of_le hlen), h.ancount, h.qdcount, h.answers,
    List.length_eq_zero_iff]
  by_cases hnone : m.answers = []
  · rw [if_pos hnone, if_pos hnone]
  · rw [if_neg hnone, if_neg hnone]
    cases ipRecords packet m.answers.length m.opening.length [] with
    | none => rfl
    | some ips => simp [found]

end Walk

/-- The addresses of the answers, whatever follows them. -/
theorem parseIpRecords_encode (m : Response) :
    parseIpRecords m.encode = found (addresses m.answers) := by
  have hopening : HoldsAt m.encode 0 m.opening := holdsAt_start _ _
  have hanswers : HoldsAt m.encode m.opening.length (encodeRecords m.answers) :=
    holdsAt_iff.mpr ⟨m.opening, m.rest, by rw [Response.encode, List.append_assoc], rfl⟩
  have hwalk := ipRecords_holdsAt hanswers 0 []
  rw [parseIpRecords_of_readBy (Response.readBy hopening), ← Nat.add_zero m.answers.length, hwalk]
  by_cases hnone : m.answers = []
  · rw [if_pos hnone, hnone]
    rfl
  · rw [if_neg hnone]
    rfl

/-- The records that lie within the first `size` bytes. -/
def wholeRecords : ℕ → List Record → List Record
  | _, [] => []
  | size, r :: rs =>
    if r.encode.length ≤ size then r :: wholeRecords (size - r.encode.length) rs else []

/-- Of the first record that is not whole not even the labels of its name and the byte behind
them are left. -/
def cutInName : ℕ → List Record → Bool
  | _, [] => false
  | size, r :: rs =>
    if r.encode.length ≤ size then cutInName (size - r.encode.length) rs
    else decide (size ≤ (encodeLabels r.name.labels).length)

section Cut
variable {packet : Bytes}

/-- The walk ends at the record that is cut, with nothing when the cut is in its name. -/
theorem ipRecords_of_cut_record {r : Record} {pos size : ℕ} (hpos : pos ≤ packet.length)
    (hsize : size < r.encode.length) (h : packet.drop pos = r.encode.take size) (n : ℕ)
    (ips : List IpAddr) : ipRecords packet (n + 1) pos ips =
      if size ≤ (encodeLabels r.name.labels).length then none else some ips := by
  have hlen : packet.length = pos + size := by
    have hdrop := congrArg List.length h
    rw [List.length_drop, List.length_take_of_le (Nat.le_of_lt hsize)] at hdrop
    omega
  have hheld : HoldsAt packet pos (r.encode.take size) := ⟨hpos, h ▸ List.prefix_refl _⟩
  by_cases hname : size ≤ (encodeLabels r.name.labels).length
  · have hlabels : packet.drop pos <+: encodeLabels r.name.labels := by
      rw [h, Record.encode, Name.encode, List.append_assoc, List.take_append_of_le_length hname]
      exact List.take_prefix _ _
    rw [if_pos hname, ipRecords, skipDnsName_of_cut hlabels]
  · -- the name is skipped, and the first of the later checks that fails keeps what was found
    have hstop : 1 ≤ r.name.stop.encode.length := by
      cases r.name.stop <;> simp [NameEnd.encode]
    have hbegun : HoldsAt packet pos
        (encodeLabels r.name.labels ++ r.name.stop.encode.take 1) := by
      have htake : (encodeLabels r.name.labels).take size = encodeLabels r.name.labels :=
        List.take_of_length_le (by omega)
      have hone : 1 ≤ size - (encodeLabels r.name.labels).length := by omega
      refine ⟨hpos, ?_⟩
      rw [h, Record.encode, Name.encode, List.append_assoc, List.take_append, htake,
        List.prefix_append_right_inj]
      rw [← List.take_append_of_le_length hstop]
      exact List.take_prefix_take_left hone
    obtain ⟨hlabels, hend⟩ := holdsAt_append.mp hbegun
    rw [if_neg hname, ipRecords, skipDnsName_of_begun hlabels hend]
    by_cases hshort : packet.length < pos + r.name.encode.length + 10
    · simp only [dif_pos hshort]
    · have hfields : HoldsAt packet (pos + r.name.encode.length) r.fields := by
        rw [r.length_encode] at hsize
        rw [Record.encode, ← List.append_assoc, List.take_append, List.take_of_length_le
          (by rw [List.length_append, r.length_fields]; omega), List.append_assoc] at hheld
        exact hheld.tail.mono
      have hread := Record.readAt hfields
      rw [r.length_encode] at hsize
      have hcut : packet.length < pos + r.name.encode.length + 10 + r.rdata.length := by omega
      simp only [dif_neg hshort, hread.rdlength, dif_pos hcut]

theorem ipRecords_of_cut {rs : List Record} {rest : Bytes} :
    ∀ {pos size : ℕ}, pos ≤ packet.length →
      packet.drop pos = (encodeRecords rs ++ rest).take size → ∀ ips : List IpAddr,
        ipRecords packet rs.length pos ips =
          if cutInName size rs then none else some (ips ++ addresses (wholeRecords size rs)) := by
  induction rs with
  | nil =>
    intro pos size _ _ ips
    simp [ipRecords, cutInName, wholeRecords, addresses]
  | cons r rs ih =>
    intro pos size hpos h ips
    rw [encodeRecords_cons, List.append_assoc] at h
    by_cases hwhole : r.encode.length ≤ size
    · have hrecord : HoldsAt packet pos r.encode := by
        refine ⟨hpos, ?_⟩
        rw [h, List.take_append, List.take_of_length_le hwhole]
        exact List.prefix_append _ _
      have hrest : packet.drop (pos + r.encode.length) =
          (encodeRecords rs ++ rest).take (size - r.encode.length) := by
        rw [← List.drop_drop, h, List.take_append, List.take_of_length_le hwhole,
          List.drop_left]
      rw [List.length_cons, ipRecords_holdsAt_record hrecord, ih hrecord.length_le hrest, cutInName,
        if_pos hwhole, wholeRecords, if_pos hwhole]
      cases haddress : r.address <;> simp [addresses, haddress]
    · have hsize : size < r.encode.length := Nat.lt_of_not_le hwhole
      rw [List.take_append_of_le_length (Nat.le_of_lt hsize)] at h
      rw [List.length_cons, ipRecords_of_cut_record hpos hsize h, cutInName, if_neg hwhole,
        wholeRecords, if_neg hwhole]
      simp [addresses]

end Cut

def Response.answersBefore (m : Response) (cut : ℕ) : List Record :=
  wholeRecords (cut - m.opening.length) m.answers

/-- The cut is in the owner name of an answer, its beginning included. -/
def Response.CutInName (m : Response) (cut : ℕ) : Prop :=
  cutInName (cut - m.opening.length) m.answers = true

theorem parseIpRecords_take (m : Response) (cut : ℕ) (h : m.opening.length ≤ cut) :
    parseIpRecords (m.encode.take cut) = if cutInName (cut - m.opening.length) m.answers then none
      else found (addresses (m.answersBefore cut)) := by
  have hopening := m.holdsAt_opening h
  have hdrop : (m.encode.take cut).drop m.opening.length =
      (encodeRecords m.answers ++ m.rest).take (cut - m.opening.length) := by
    rw [Response.encode, List.take_append, List.take_of_length_le h, List.drop_left]
  have hwalk := ipRecords_of_cut (by simpa using hopening.length_le) hdrop []
  rw [parseIpRecords_of_readBy (Response.readBy hopening), hwalk]
  by_cases hnone : m.answers = []
  · simp [hnone, cutInName, Response.answersBefore, wholeRecords, addresses, found]
  · rw [if_neg hnone]
    split_ifs <;> rfl

/-- What a cut leaves of the addresses is found exactly when there is nothing to lose or the
cut is not in an owner name. -/
theorem salvages_iff (m : Response) (cut : ℕ) (h : m.opening.length ≤ cut) :
    parseIpRecords (m.encode.take cut) = found (addresses (m.answersBefore cut)) ↔
      addresses (m.answersBefore cut) = [] ∨ ¬ m.CutInName cut := by
  rw [parseIpRecords_take m cut h, Response.CutInName]
  by_cases hcut : cutInName (cut - m.opening.length) m.answers = true
  · rw [if_pos hcut]
    by_cases hempty : addresses (m.answersBefore cut) = []
    · simp [hempty, found]
    · simp [hempty, found, hcut]
  · simp [hcut]

def nameA : Name := ⟨[⟨[97], by decide, by decide⟩], .root⟩

def pointerA : Name := ⟨[], .pointer 0xC0 12 (by decide)⟩

def answerA (host : UInt8) (ttl : UInt32) : Record :=
  ⟨pointerA, dnsTypeA, dnsClassIn, ttl, [192, 0, 2, host], by simp⟩

def questionsA : List Question := [⟨nameA, dnsTypeA, dnsClassIn⟩]

theorem questionsA_lt : questionsA.length < 65536 := by decide

/-- The addresses 192.0.2.1 and 192.0.2.2 of `a`. -/
def twoAnswers : Response :=
  { id := 0x1234, flags := 0x8180, nscount := 0, arcount := 0
    questions := questionsA
    answers := [answerA 1 60, answerA 2 60], rest := []
    questions_lt := questionsA_lt, answers_lt := by decide }

/-- Cut in the fields of the second answer. -/
theorem salvages_iff_sample : twoAnswers.opening.length ≤ 40 ∧
    parseIpRecords (twoAnswers.encode.take 40) = some [.v4 (.new 192 0 2 1)] := by
  have hcut : twoAnswers.opening.length ≤ 40 := by decide
  have hname : ¬ twoAnswers.CutInName 40 := by
    rw [Response.CutInName]
    decide
  exact ⟨hcut, ((salvages_iff twoAnswers 40 hcut).mpr (.inr hname)).trans (by decide)⟩

/-- Cut between the answers, the first one is lost. -/
theorem not_salvages_boundary : twoAnswers.opening.length ≤ 35 ∧
    addresses (twoAnswers.answersBefore 35) = [.v4 (.new 192 0 2 1)] ∧
    parseIpRecords (twoAnswers.encode.take 35) = none ∧
    parseIpRecords (twoAnswers.encode.take 35) ≠
      found (addresses (twoAnswers.answersBefore 35)) := by
  have hnone : parseIpRecords (twoAnswers.encode.take 35) = none := by decide +kernel
  have hfound : addresses (twoAnswers.answersBefore 35) = [.v4 (.new 192 0 2 1)] := by
    decide
  refine ⟨by decide, hfound, hnone, ?_⟩
  rw [hnone, hfound]
  simp [found]

end TransProxy.Dns.Format
