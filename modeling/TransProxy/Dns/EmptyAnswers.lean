import TransProxy.Dns.Format

/-!
# Answers without records

`build_empty_response` answers every query whose questions are all there, with their bytes behind
a header of its own. The reply is read like the query and answered by itself.
-/
namespace TransProxy.Dns.Format
open Library Net

def qr (packet : Bytes) : Bool := packet.getD 2 0 &&& 0x80 == 0x80

def opcode (packet : Bytes) : UInt8 := (packet.getD 2 0 &&& 0x78) >>> 3

def aa (packet : Bytes) : Bool := packet.getD 2 0 &&& 0x04 == 0x04

def tc (packet : Bytes) : Bool := packet.getD 2 0 &&& 0x02 == 0x02

def rd (packet : Bytes) : Bool := packet.getD 2 0 &&& 0x01 == 0x01

def ra (packet : Bytes) : Bool := packet.getD 3 0 &&& 0x80 == 0x80

def responseCode (packet : Bytes) : UInt8 := packet.getD 3 0 &&& 0x0F

/-- The header is there, and these are the questions that it counts. -/
structure HoldsQuestions (query : Bytes) (qs : List Question) : Prop where
  header : 12 ≤ query.length
  count : qs.length = qdcount query
  questions : HoldsAt query 12 (encodeQuestions qs)

theorem exists_questions_iff {query : Bytes} : (∃ qs, HoldsQuestions query qs) ↔
    12 ≤ query.length ∧ ∃ e, skipQuestions query (qdcount query) 12 = some e := by
  constructor
  · rintro ⟨qs, h⟩
    refine ⟨h.header, 12 + (encodeQuestions qs).length, ?_⟩
    rw [← h.count]
    exact skipQuestions_holdsAt h.questions
  · rintro ⟨h, e, he⟩
    obtain ⟨qs, hcount, hqs, _⟩ := exists_questions_of_skipQuestions h he
    exact ⟨qs, h, hcount, hqs⟩

def emptyHeader (query : Bytes) (rcode : UInt8) : Bytes :=
  query.take 2 ++ [0x80 ||| (query.getD 2 0 &&& 0x79), 0x80 ||| (rcode &&& 0x0F)] ++
    (query.drop 4).take 2 ++ List.replicate 6 0

theorem buildEmptyResponse_of_holdsQuestions {query : Bytes} {qs : List Question}
    (h : HoldsQuestions query qs) (rcode : UInt8) :
    buildEmptyResponse query rcode = some (emptyHeader query rcode ++ encodeQuestions qs) := by
  have hlen := h.header
  have hqd : qdcount query = (u16At query 4 (by omega)).toNat := dif_neg (Nat.not_lt_of_le hlen)
  have hwalk := skipQuestions_holdsAt h.questions
  have hslice : slice query 12 (12 + (encodeQuestions qs).length) = encodeQuestions qs := by
    rw [slice, Nat.add_sub_cancel_left, h.questions.take_drop]
  rw [h.count, hqd] at hwalk
  rw [buildEmptyResponse, dif_neg (Nat.not_lt_of_le hlen), hwalk]
  simp only [hslice]
  match query, hlen with
  | _ :: _ :: _ :: _ :: _ :: _ :: _ :: _ :: _ :: _ :: _ :: _ :: _, _ => rfl

theorem holdsQuestions_of_isSome {query : Bytes} {rcode : UInt8}
    (h : (buildEmptyResponse query rcode).isSome) : ∃ qs, HoldsQuestions query qs := by
  rw [exists_questions_iff]
  rw [buildEmptyResponse] at h
  by_cases hlen : query.length < 12
  · simp [hlen] at h
  · have hqd : qdcount query = (u16At query 4 (qdcount_inBounds hlen)).toNat := dif_neg hlen
    refine ⟨Nat.le_of_not_lt hlen, ?_⟩
    rw [hqd]
    cases hwalk : skipQuestions query (u16At query 4 (qdcount_inBounds hlen)).toNat 12 with
    | none => simp [hlen, hwalk] at h
    | some e => exact ⟨e, rfl⟩

/-- What the first byte of flags keeps of those of the query. -/
theorem replyFlags (b : UInt8) : (0x80 ||| (b &&& 0x79)) &&& 0x80 = 0x80 ∧
    (0x80 ||| (b &&& 0x79)) &&& 0x78 = b &&& 0x78 ∧ (0x80 ||| (b &&& 0x79)) &&& 0x04 = 0 ∧
      (0x80 ||| (b &&& 0x79)) &&& 0x02 = 0 ∧ (0x80 ||| (b &&& 0x79)) &&& 0x01 = b &&& 0x01 ∧
        0x80 ||| ((0x80 ||| (b &&& 0x79)) &&& 0x79) = 0x80 ||| (b &&& 0x79) := by
  revert b
  exact forall_byte (by decide +kernel)

/-- What the second byte of flags says. -/
theorem replyCode (rcode : UInt8) : (0x80 ||| (rcode &&& 0x0F)) &&& 0x80 = 0x80 ∧
    (0x80 ||| (rcode &&& 0x0F)) &&& 0x0F = rcode &&& 0x0F := by
  revert rcode
  exact forall_byte (by decide +kernel)

section Reply
variable {query : Bytes} (hlen : 12 ≤ query.length) (rcode : UInt8) (body : Bytes)
include hlen

theorem length_emptyHeader : (emptyHeader query rcode).length = 12 := by
  simp only [emptyHeader, List.length_append, List.length_take, List.length_drop, List.length_cons,
    List.length_nil, List.length_replicate]
  omega

theorem take_emptyHeader : (emptyHeader query rcode ++ body).take 2 = query.take 2 := by
  match query, hlen with
  | _ :: _ :: _, _ => rfl

theorem getD_two_emptyHeader : (emptyHeader query rcode ++ body).getD 2 0 =
    0x80 ||| (query.getD 2 0 &&& 0x79) := by
  match query, hlen with
  | _ :: _ :: _ :: _, _ => rfl

theorem getD_three_emptyHeader :
    (emptyHeader query rcode ++ body).getD 3 0 = 0x80 ||| (rcode &&& 0x0F) := by
  match query, hlen with
  | _ :: _ :: _ :: _ :: _, _ => rfl

theorem qdcount_emptyHeader : qdcount (emptyHeader query rcode ++ body) = qdcount query := by
  have hreply : ¬ (emptyHeader query rcode ++ body).length < 12 := by
    rw [List.length_append, length_emptyHeader hlen]
    omega
  rw [qdcount, qdcount, dif_neg hreply, dif_neg (Nat.not_lt_of_le hlen)]
  match query, hlen with
  | _ :: _ :: _ :: _ :: _ :: _ :: _, _ => rfl

theorem holdsAt_counts_emptyHeader :
    HoldsAt (emptyHeader query rcode ++ body) 6 (List.replicate 6 0) := by
  match query, hlen with
  | _ :: _ :: _ :: _ :: _ :: _ :: _ :: _, _ =>
    exact holdsAt_iff.mpr ⟨_ :: _ :: _ :: _ :: _ :: _ :: [], body, rfl, rfl⟩

/-- The header of the reply to the reply. -/
theorem emptyHeader_emptyHeader :
    emptyHeader (emptyHeader query rcode ++ body) rcode = emptyHeader query rcode := by
  have hflags := (replyFlags (query.getD 2 0)).2.2.2.2.2
  rw [emptyHeader, getD_two_emptyHeader hlen, hflags, take_emptyHeader hlen]
  match query, hlen with
  | _ :: _ :: _ :: _ :: _ :: _ :: _, _ => rfl

end Reply

/-- The reply is an answer to the query that holds its questions and no records. -/
structure AnswersEmpty (query : Bytes) (rcode : UInt8) (qs : List Question) (reply : Bytes) :
    Prop where
  id : reply.take 2 = query.take 2
  isResponse : qr reply = true
  sameOpcode : opcode reply = opcode query
  notAuthoritative : aa reply = false
  notTruncated : tc reply = false
  sameRd : rd reply = rd query
  recursion : ra reply = true
  code : responseCode reply = rcode &&& 0x0F
  count : qdcount reply = qdcount query
  noRecords : HoldsAt reply 6 (List.replicate 6 0)
  body : reply.drop 12 = encodeQuestions qs
  length_le : reply.length ≤ query.length
  readAlike : 1 ≤ qdcount query →
    parseQueryName reply = parseQueryName query ∧ parseQueryType reply = parseQueryType query
  noAddresses : parseIpRecords reply = none
  again : buildEmptyResponse reply rcode = some reply

/-- Packets with the same questions are read alike. -/
theorem parse_eq_of_holdsQuestions {p q : Bytes} {qs : List Question} (hp : HoldsQuestions p qs)
    (hq : HoldsQuestions q qs) (hone : 1 ≤ qdcount p) :
    parseQueryName q = parseQueryName p ∧ parseQueryType q = parseQueryType p := by
  have hag := hp.questions.agreeOn hq.questions
  obtain ⟨x, xs, rfl⟩ : ∃ x xs, qs = x :: xs := by
    apply List.exists_cons_of_length_pos
    rw [hp.count]
    exact hone
  have hheld := hp.questions
  rw [encodeQuestions_cons, holdsAt_append] at hheld
  have hname := skipDnsName_holdsAt hheld.1.mono
  have hlen : 12 + x.name.encode.length + 4 ≤ 12 + (encodeQuestions (x :: xs)).length := by
    rw [encodeQuestions_cons, List.length_append, x.length_encode]
    omega
  exact ⟨parseQueryName_congr hag (by omega) hname,
    parseQueryType_congr hag (by omega) hp.questions.length_le hq.questions.length_le hname⟩

theorem parseIpRecords_of_noRecords {packet : Bytes} (h : HoldsAt packet 6 (List.replicate 6 0)) :
    parseIpRecords packet = none := by
  have hlen := h.length_le
  rw [List.length_replicate] at hlen
  have hancount : HoldsAt packet 6 (u16ToBeBytes 0) :=
    HoldsAt.mono (b := List.replicate 4 0) h
  rw [parseIpRecords, dif_neg (Nat.not_lt_of_le hlen)]
  simp only [u16At_holdsAt hancount]
  rfl

theorem answersEmpty_of_holdsQuestions {query : Bytes} {qs : List Question}
    (h : HoldsQuestions query qs) (rcode : UInt8) :
    AnswersEmpty query rcode qs (emptyHeader query rcode ++ encodeQuestions qs) := by
  have hlen := h.header
  have hheader := length_emptyHeader hlen rcode
  have htwo := getD_two_emptyHeader hlen rcode (encodeQuestions qs)
  have hthree := getD_three_emptyHeader hlen rcode (encodeQuestions qs)
  have hcount := qdcount_emptyHeader hlen rcode (encodeQuestions qs)
  have hreply : HoldsQuestions (emptyHeader query rcode ++ encodeQuestions qs) qs :=
    { header := by
        rw [List.length_append, hheader]
        omega
      count := h.count.trans hcount.symm
      questions := holdsAt_iff.mpr ⟨emptyHeader query rcode, [], by simp, hheader⟩ }
  have hcounts := holdsAt_counts_emptyHeader hlen rcode (encodeQuestions qs)
  have hquestions := h.questions.length_le
  obtain ⟨hqr, hopcode, haa, htc, hrd, _⟩ := replyFlags (query.getD 2 0)
  obtain ⟨hra, hcode⟩ := replyCode rcode
  exact
    { id := take_emptyHeader hlen rcode _
      isResponse := by
        rw [qr, htwo, hqr]
        rfl
      sameOpcode := by rw [opcode, opcode, htwo, hopcode]
      notAuthoritative := by
        rw [aa, htwo, haa]
        rfl
      notTruncated := by
        rw [tc, htwo, htc]
        rfl
      sameRd := by rw [rd, rd, htwo, hrd]
      recursion := by
        rw [ra, hthree, hra]
        rfl
      code := by rw [responseCode, hthree, hcode]
      count := hcount
      noRecords := hcounts
      body := List.drop_left' hheader
      length_le := by
        rw [List.length_append, hheader]
        exact hquestions
      readAlike := parse_eq_of_holdsQuestions h hreply
      noAddresses := parseIpRecords_of_noRecords hcounts
      again := by
        rw [buildEmptyResponse_of_holdsQuestions hreply, emptyHeader_emptyHeader hlen] }

/-- A query is answered exactly when it holds the questions that it counts, and the answer has
nothing else. -/
theorem buildEmptyResponse_answers (query : Bytes) (rcode : UInt8) :
    ((buildEmptyResponse query rcode).isSome ↔ ∃ qs, HoldsQuestions query qs) ∧
      ∀ reply, buildEmptyResponse query rcode = some reply →
        ∃ qs, HoldsQuestions query qs ∧ AnswersEmpty query rcode qs reply := by
  refine ⟨⟨holdsQuestions_of_isSome, ?_⟩, ?_⟩
  · rintro ⟨qs, hqs⟩
    rw [buildEmptyResponse_of_holdsQuestions hqs]
    rfl
  · intro reply hreply
    obtain ⟨qs, hqs⟩ := holdsQuestions_of_isSome (Option.isSome_iff_exists.mpr ⟨reply, hreply⟩)
    rw [buildEmptyResponse_of_holdsQuestions hqs] at hreply
    obtain rfl := Option.some.inj hreply
    exact ⟨qs, hqs, answersEmpty_of_holdsQuestions hqs rcode⟩

end TransProxy.Dns.Format
