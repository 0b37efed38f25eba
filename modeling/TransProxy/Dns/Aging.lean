import TransProxy.Dns.Rewriting

/-!
# Aged messages

A message with all its sections is what `rewrite_ttls` gets through. It comes out as the same
message whose records are older.
-/
namespace TransProxy.Dns.Format
open Library Net

/-- A message with the sections that its header counts, and whatever stands behind them. -/
structure Message where
  id : UInt16
  flags : UInt16
  questions : List Question
  answers : List Record
  authority : List Record
  additional : List Record
  trailing : Bytes
  questions_lt : questions.length < 65536
  answers_lt : answers.length < 65536
  authority_lt : authority.length < 65536
  additional_lt : additional.length < 65536

def Message.records (m : Message) : List Record := m.answers ++ m.authority ++ m.additional

def Message.response (m : Message) : Response :=
  { id := m.id, flags := m.flags
    nscount := UInt16.ofNat m.authority.length, arcount := UInt16.ofNat m.additional.length
    questions := m.questions, answers := m.answers
    rest := encodeRecords m.authority ++ (encodeRecords m.additional ++ m.trailing)
    questions_lt := m.questions_lt, answers_lt := m.answers_lt }

def Message.encode (m : Message) : Bytes := m.response.encode

theorem Message.encode_eq (m : Message) :
    m.encode = m.response.opening ++ (encodeRecords m.records ++ m.trailing) := by
  simp only [encode, Response.encode, response, records, encodeRecords_append, List.append_assoc]

def Record.aged (secs : UInt32) (r : Record) : Record :=
  if r.rtype = dnsTypeOpt then r
  else { r with ttl := UInt32.ofNat (max 1 (r.ttl.toNat - secs.toNat)) }

def Message.aged (secs : UInt32) (m : Message) : Message :=
  { m with
    answers := m.answers.map (Record.aged secs)
    authority := m.authority.map (Record.aged secs)
    additional := m.additional.map (Record.aged secs)
    answers_lt := by rw [List.length_map]; exact m.answers_lt
    authority_lt := by rw [List.length_map]; exact m.authority_lt
    additional_lt := by rw [List.length_map]; exact m.additional_lt }

theorem agedTtl_eq (ttl secs : UInt32) :
    agedTtl ttl secs = UInt32.ofNat (max 1 (ttl.toNat - secs.toNat)) := by
  have hlt := ttl.toNat_lt
  have hone : (1 : UInt32).toNat = 1 := rfl
  have hzero : (0 : UInt32).toNat = 0 := rfl
  have hsub : (saturatingSub ttl secs).toNat = ttl.toNat - secs.toNat := by
    rw [saturatingSub]
    split_ifs with hle
    · exact UInt32.toNat_sub_of_le ttl secs hle
    · rw [UInt32.le_iff_toNat_le] at hle
      omega
  apply UInt32.toNat.inj
  rw [agedTtl, UInt32.toNat_ofNat', Nat.mod_eq_of_lt (by omega)]
  change (if saturatingSub ttl secs ≤ 1 then (1 : UInt32) else saturatingSub ttl secs).toNat = _
  split_ifs with hle
  · rw [UInt32.le_iff_toNat_le] at hle
    omega
  · rw [UInt32.le_iff_toNat_le] at hle
    omega

/-- Aging changes the four bytes of the TTL. -/
theorem Record.encode_aged (secs : UInt32) (r : Record) : (r.aged secs).encode =
    if r.rtype = dnsTypeOpt then r.encode
    else r.name.encode ++ (u16ToBeBytes r.rtype ++ u16ToBeBytes r.rclass) ++
      (u32ToBeBytes (agedTtl r.ttl secs) ++
        (u16ToBeBytes (UInt16.ofNat r.rdata.length) ++ r.rdata)) := by
  rw [aged]
  split_ifs
  · rfl
  · rw [agedTtl_eq]
    simp only [encode, fields, List.append_assoc]

theorem Record.length_encode_aged (secs : UInt32) (r : Record) :
    (r.aged secs).encode.length = r.encode.length := by
  rw [encode_aged]
  split_ifs
  · rfl
  · rw [length_encode]
    simp only [List.length_append, length_u16ToBeBytes, length_u32ToBeBytes]
    omega

theorem setTtl_append (before after : Bytes) (ttl ttl' : UInt32) :
    setTtl (before ++ (u32ToBeBytes ttl ++ after)) before.length ttl' =
      before ++ (u32ToBeBytes ttl' ++ after) := by
  have hdrop : (before ++ (u32ToBeBytes ttl ++ after)).drop (before.length + 4) = after := by
    rw [← List.drop_drop, List.drop_left]
    rfl
  rw [setTtl, List.take_left, hdrop, List.append_assoc]

theorem ageRecord_encode (secs : UInt32) (r : Record) (before after : Bytes)
    (h : before.length + r.name.encode.length + 10 ≤ (before ++ (r.encode ++ after)).length) :
    ageRecord secs (before ++ (r.encode ++ after)) (before.length + r.name.encode.length) h =
      before ++ ((r.aged secs).encode ++ after) := by
  have hfields : HoldsAt (before ++ (r.encode ++ after)) (before.length + r.name.encode.length)
      r.fields := by
    refine holdsAt_iff.mpr ⟨before ++ r.name.encode, r.rdata ++ after, ?_, by simp⟩
    simp only [Record.encode, List.append_assoc]
  have hread := Record.readAt hfields
  rw [ageRecord, hread.rtype, hread.ttl, r.encode_aged]
  split_ifs with hopt
  · rfl
  · have hsplit : before ++ (r.encode ++ after) =
        (before ++ (r.name.encode ++ (u16ToBeBytes r.rtype ++ u16ToBeBytes r.rclass))) ++
          (u32ToBeBytes r.ttl ++
            (u16ToBeBytes (UInt16.ofNat r.rdata.length) ++ (r.rdata ++ after))) := by
      simp only [Record.encode, Record.fields, List.append_assoc]
    have hpos : before.length + r.name.encode.length + 4 =
        (before ++ (r.name.encode ++ (u16ToBeBytes r.rtype ++ u16ToBeBytes r.rclass))).length := by
      simp only [List.length_append, length_u16ToBeBytes]
      omega
    rw [hsplit, hpos, setTtl_append]
    simp only [List.append_assoc]

theorem rewriteRecords_encode (secs : UInt32) (rs : List Record) (after : Bytes) :
    ∀ before : Bytes, rewriteRecords secs rs.length before.length
      (before ++ (encodeRecords rs ++ after)) =
        (before ++ (encodeRecords (rs.map (Record.aged secs)) ++ after), some ()) := by
  induction rs with
  | nil => exact fun _ => rfl
  | cons r rs ih =>
    intro before
    rw [List.map_cons, encodeRecords_cons, encodeRecords_cons, List.append_assoc,
      List.append_assoc, List.length_cons]
    have hrecord : HoldsAt (before ++ (r.encode ++ (encodeRecords rs ++ after))) before.length
        r.encode := holdsAt_iff.mpr ⟨before, encodeRecords rs ++ after, by simp, rfl⟩
    have hlen := hrecord.length_le
    rw [Record.encode, holdsAt_append, holdsAt_append, ← Record.encode] at hrecord
    obtain ⟨hname, hfields, _⟩ := hrecord
    have hread := Record.readAt hfields
    have hin := hread.inBounds
    have hage := ageRecord_encode secs r before (encodeRecords rs ++ after)
    have hnext := ih (before ++ (r.aged secs).encode)
    rw [List.length_append, r.length_encode_aged, r.length_encode, ← Nat.add_assoc,
      ← Nat.add_assoc, List.append_assoc, List.append_assoc] at hnext
    rw [r.length_encode, ← Nat.add_assoc, ← Nat.add_assoc] at hlen
    rw [rewriteRecords, skipDnsName_holdsAt hname]
    simp only [dif_neg (Nat.not_lt_of_le hin), hread.rdlength, hage]
    have hwhole := hlen
    rw [← length_ageRecord secs hin, hage] at hwhole
    rw [if_neg (Nat.not_lt_of_le hwhole)]
    exact hnext

/-- A message is aged as a whole. -/
theorem rewriteTtls_encode (m : Message) (secs : UInt32) :
    rewriteTtls m.encode secs = ((m.aged secs).encode, some ()) := by
  have hopening : HoldsAt m.encode 0 m.response.opening := holdsAt_start _ _
  have hread := Response.readBy hopening
  have hns : m.response.nscount.toNat = m.authority.length := by
    rw [Message.response, UInt16.toNat_ofNat', Nat.mod_eq_of_lt m.authority_lt]
  have har : m.response.arcount.toNat = m.additional.length := by
    rw [Message.response, UInt16.toNat_ofNat', Nat.mod_eq_of_lt m.additional_lt]
  have hcount : m.response.answers.length + m.authority.length + m.additional.length =
      m.records.length := by
    simp [Message.records, Message.response, Nat.add_assoc]
  have hopening' : (m.aged secs).response.opening = m.response.opening := by
    simp [Message.aged, Message.response, Response.opening, Response.header]
  have hrecords : (m.aged secs).records = m.records.map (Record.aged secs) := by
    simp [Message.aged, Message.records]
  rw [rewriteTtls]
  simp only [dif_neg (Nat.not_lt_of_le hread.inBounds), hread.qdcount, hread.ancount,
    hread.nscount, hread.arcount, hread.answers, hns, har, hcount]
  rw [m.encode_eq, rewriteRecords_encode, (m.aged secs).encode_eq, hopening', hrecords]
  rfl

theorem exists_records_of_rewriteRecords {secs : UInt32} {n : ℕ} : ∀ {pos : ℕ} {packet : Bytes},
    pos ≤ packet.length → (rewriteRecords secs n pos packet).2 = some () →
      ∃ rs : List Record, rs.length = n ∧ HoldsAt packet pos (encodeRecords rs) := by
  induction n with
  | zero => exact fun hpos _ => ⟨[], rfl, hpos, List.nil_prefix⟩
  | succ n ih =>
    intro pos packet hpos hdone
    rcases rewriteRecords_succ secs n pos packet with h | ⟨e, he, hname, h | ⟨hwhole, h⟩⟩
    · rw [h] at hdone
      cases hdone
    · rw [h] at hdone
      cases hdone
    · rw [h] at hdone
      obtain ⟨name, hheld, hlen⟩ := exists_name_of_skipDnsName hname (by omega)
      obtain ⟨r, rfl, hr⟩ := exists_record name he hwhole
      have hsize : r.rdata.length = rdlengthAt packet e he := (Record.readAt hr.mono).rdlength.symm
      have hsame := (sameFrom_ageRecord secs he).mono
        (show e + 8 ≤ e + 10 + rdlengthAt packet e he by omega)
      obtain ⟨rs, hn, hrs⟩ := ih (by rw [length_ageRecord]; exact hwhole) hdone
      refine ⟨r :: rs, by rw [List.length_cons, hn], ?_⟩
      rw [encodeRecords_cons, holdsAt_append, r.length_encode, ← Nat.add_assoc, ← Nat.add_assoc,
        hlen, hsize, Record.encode, holdsAt_append, hlen]
      exact ⟨⟨hheld, hr⟩, hrs.congr (hsame.agreeOn _) hwhole⟩

/-- A header, the questions and the records that it counts make up a message. -/
theorem exists_message {packet : Bytes} (h : ¬ packet.length < 12) {pos : ℕ}
    (hquestions : skipQuestions packet (qdcount packet) 12 = some pos) {rs : List Record}
    (hcount : rs.length = recordCount packet) (hrs : HoldsAt packet pos (encodeRecords rs)) :
    ∃ m : Message, m.encode = packet := by
  have hin := Nat.le_of_not_lt h
  obtain ⟨qs, hqs, hheld, hpos⟩ := exists_questions_of_skipQuestions hin hquestions
  have hqd : qdcount packet = _ := dif_neg h
  have hrecords : recordCount packet = _ := dif_neg h
  obtain ⟨an, han⟩ : ∃ n, u16At packet 6 (by omega) = n := ⟨_, rfl⟩
  obtain ⟨ns, hns⟩ : ∃ n, u16At packet 8 (by omega) = n := ⟨_, rfl⟩
  obtain ⟨ar, har⟩ : ∃ n, u16At packet 10 (by omega) = n := ⟨_, rfl⟩
  rw [han, hns, har] at hrecords
  obtain ⟨answers, later, rfl, hanswers⟩ : ∃ xs ys, rs = xs ++ ys ∧ xs.length = an.toNat :=
    ⟨rs.take an.toNat, rs.drop an.toNat, (List.take_append_drop _ _).symm,
      List.length_take_of_le (by omega)⟩
  rw [List.length_append] at hcount
  obtain ⟨authority, additional, rfl, hauthority⟩ : ∃ xs ys, later = xs ++ ys ∧
      xs.length = ns.toNat :=
    ⟨later.take ns.toNat, later.drop ns.toNat, (List.take_append_drop _ _).symm,
      List.length_take_of_le (by omega)⟩
  rw [List.length_append] at hcount
  have hadditional : additional.length = ar.toNat := by omega
  have hqd' : qs.length = (u16At packet 4 (by omega)).toNat := hqs.trans hqd
  obtain ⟨m, hm, htrailing, hquestions', hopening⟩ : ∃ m : Message,
      m.records = answers ++ (authority ++ additional) ∧
        m.trailing = packet.drop (pos + (encodeRecords m.records).length) ∧
          m.response.questions = qs ∧ HoldsAt packet 0 m.response.opening := by
    refine ⟨⟨u16At packet 0 (by omega), u16At packet 2 (by omega), qs, answers, authority,
      additional, packet.drop (pos + (encodeRecords (answers ++ authority ++ additional)).length),
      hqd' ▸ UInt16.toNat_lt _, hanswers ▸ an.toNat_lt, hauthority ▸ ns.toNat_lt,
      hadditional ▸ ar.toNat_lt⟩, List.append_assoc _ _ _, rfl, rfl, ?_⟩
    simp only [Response.opening, Message.response, Response.header, holdsAt_append,
      List.length_append, length_u16ToBeBytes, Nat.zero_add, Nat.reduceAdd, hqd', hanswers,
      hauthority, hadditional, UInt16.ofNat_toNat]
    exact ⟨⟨holdsAt_u16At _, holdsAt_u16At _, holdsAt_u16At _, han ▸ holdsAt_u16At _,
      hns ▸ holdsAt_u16At _, har ▸ holdsAt_u16At _⟩, hheld⟩
  have hpos' : m.response.opening.length = pos := by
    rw [Response.length_opening, hquestions', hpos]
  have hend : HoldsAt packet 0 (m.response.opening ++ encodeRecords m.records) := by
    rw [holdsAt_append, hpos', Nat.zero_add, hm]
    exact ⟨hopening, hrs⟩
  refine ⟨m, ?_⟩
  have hsplit := List.prefix_iff_eq_append.mp hend.2
  rwa [List.drop_zero, List.length_append, hpos', ← htrailing, List.append_assoc,
    ← m.encode_eq] at hsplit

theorem exists_message_of_rewriteTtls {packet : Bytes} {secs : UInt32}
    (h : (rewriteTtls packet secs).2 = some ()) : ∃ m : Message, m.encode = packet := by
  rcases rewriteTtls_cases packet secs with hnone | ⟨hlen, pos, hquestions, hwalk⟩
  · rw [hnone] at h
    cases h
  · have hpos := (skipQuestions_bounds hquestions).2 (Nat.le_of_not_lt hlen)
    rw [hwalk] at h
    obtain ⟨rs, hcount, hrs⟩ := exists_records_of_rewriteRecords hpos h
    exact exists_message hlen hquestions hcount hrs

/-- For every byte string: the length stays, bytes change in TTLs of records other than OPT
only, what is parsed is the same, and a walk that comes to its end has aged a message. -/
theorem rewriteTtls_ages (packet : Bytes) (secs : UInt32) :
    (rewriteTtls packet secs).1.length = packet.length ∧
    (∀ i, (rewriteTtls packet secs).1[i]? ≠ packet[i]? →
      ∃ pos ∈ recordHeaders packet, ¬ HoldsAt packet pos (u16ToBeBytes dnsTypeOpt) ∧
        pos + 4 ≤ i ∧ i < pos + 8) ∧
    parseIpRecords (rewriteTtls packet secs).1 = parseIpRecords packet ∧
    parseQueryName (rewriteTtls packet secs).1 = parseQueryName packet ∧
    parseQueryType (rewriteTtls packet secs).1 = parseQueryType packet ∧
    ((rewriteTtls packet secs).2 = some () →
      ∃ m : Message, m.encode = packet ∧ (m.aged secs).encode = (rewriteTtls packet secs).1) := by
  refine ⟨length_rewriteTtls packet secs, fun i => changed_of_rewriteTtls,
    parseIpRecords_rewriteTtls packet secs, parseQueryName_rewriteTtls packet secs,
    parseQueryType_rewriteTtls packet secs, ?_⟩
  intro hdone
  obtain ⟨m, rfl⟩ := exists_message_of_rewriteTtls hdone
  exact ⟨m, rfl, by rw [rewriteTtls_encode]⟩

end TransProxy.Dns.Format
