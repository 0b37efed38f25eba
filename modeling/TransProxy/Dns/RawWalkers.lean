import TransProxy.Dns.Rewriting
import TransProxy.Library.Checked

/-!
# The walkers with the accesses as they are written

In `dns.rs` an index has no proof that it is in bounds, and a loop none that it ends. Here the
walkers are written down with such accesses, and each of them is shown to end without a fault, in
what the walker over proven accesses gives.
-/
namespace TransProxy.Dns.Raw
open Library Net Checked

def u16At (packet : Bytes) (pos : ℕ) : Checked UInt16 := do
  return u16FromBeBytes (← index packet pos) (← index packet (pos + 1))

def u32At (packet : Bytes) (pos : ℕ) : Checked UInt32 := do
  return u32FromBeBytes (← index packet pos) (← index packet (pos + 1)) (← index packet (pos + 2))
    (← index packet (pos + 3))

def skipDnsName (packet : Bytes) (pos : ℕ) : Checked (Option ℕ) :=
  loop (fun pos => do
    if packet.length ≤ pos then return .done none
    let b ← index packet pos
    if b = 0 then return .done (some (pos + 1))
    if b &&& 0xC0 = 0xC0 then return .done (some (pos + 2))
    return .next (pos + 1 + b.toNat)) pos

/-- The question loop that every message walker starts with. -/
def skipQuestions (packet : Bytes) (qdcount pos : ℕ) : Checked (Option ℕ) :=
  forRange (fun pos => do
    match ← skipDnsName packet pos with
    | none => return .done none
    | some pos =>
      if packet.length < pos + 4 then return .done none
      return .next (pos + 4)) some qdcount pos

def parseQueryType (packet : Bytes) : Checked (Option UInt16) := do
  if packet.length ≤ 12 then return none
  let found ← loop (fun pos => do
    if packet.length ≤ pos then return .done none
    let len ← index packet pos
    if len = 0 then return .done (some (pos + 1))
    if len &&& 0xC0 = 0xC0 then return .done (some (pos + 2))
    return .next (pos + 1 + len.toNat)) 12
  match found with
  | none => return none
  | some pos =>
    if packet.length < pos + 2 then return none
    return some (← u16At packet pos)

def parseQueryName (packet : Bytes) : Checked (Option String) := do
  let found ← loop (fun (pos, parts) => do
    if packet.length ≤ pos then return .done none
    let len ← index packet pos
    if len = 0 then return .done (some parts)
    if len &&& 0xC0 = 0xC0 then return .done none
    if packet.length < pos + 1 + len.toNat then return .done none
    match fromUtf8 (← range packet (pos + 1) (pos + 1 + len.toNat)) with
    | none => return .done none
    | some label => return .next (pos + 1 + len.toNat, parts ++ [label])) (12, [])
  match found with
  | none => return none
  | some parts => if parts.isEmpty then return none else return some (".".intercalate parts)

/-- The address that a record of the class and the length gives. -/
def recordIps (packet : Bytes) (pos : ℕ) (rtype rclass : UInt16) (rdlength : ℕ) :
    Checked (List IpAddr) := do
  if rclass = dnsClassIn then
    if rtype = dnsTypeA ∧ rdlength = 4 then
      return [.v4 (.new (← index packet pos) (← index packet (pos + 1)) (← index packet (pos + 2))
        (← index packet (pos + 3)))]
    else if rtype = dnsTypeAaaa ∧ rdlength = 16 then
      let octets ← setRange (List.replicate 16 0) 0 16 (← range packet pos (pos + 16))
      return [.v6 ⟨Vector.ofFn fun i : Fin 16 => octets.getD i.val 0⟩]
    else return []
  else return []

def parseIpRecords (packet : Bytes) : Checked (Option (List IpAddr)) := do
  if packet.length < 12 then return none
  let ancount ← u16At packet 6
  if ancount.toNat = 0 then return none
  let qdcount ← u16At packet 4
  match ← skipQuestions packet qdcount.toNat 12 with
  | none => return none
  | some pos =>
    let found ← forRange (fun (pos, ips) => do
      match ← skipDnsName packet pos with
      | none => return .done none
      | some pos =>
        if packet.length < pos + 10 then return .done (some ips)
        let rtype ← u16At packet pos
        let rclass ← u16At packet (pos + 2)
        let rdlength ← u16At packet (pos + 8)
        if packet.length < pos + 10 + rdlength.toNat then return .done (some ips)
        let more ← recordIps packet (pos + 10) rtype rclass rdlength.toNat
        return .next (pos + 10 + rdlength.toNat, ips ++ more)) (fun (_, ips) => some ips)
      ancount.toNat (pos, [])
    match found with
    | none => return none
    | some ips => if ips.isEmpty then return none else return some ips

def extractMinTtl (packet : Bytes) : Checked (Option UInt32) := do
  if packet.length < 12 then return none
  let ancount ← u16At packet 6
  if ancount.toNat = 0 then return none
  let qdcount ← u16At packet 4
  match ← skipQuestions packet qdcount.toNat 12 with
  | none => return none
  | some pos =>
    let found ← forRange (fun (pos, least) => do
      match ← skipDnsName packet pos with
      | none => return .done none
      | some pos =>
        if packet.length < pos + 10 then return .done (some least)
        let ttl ← u32At packet (pos + 4)
        let rdlength ← u16At packet (pos + 8)
        return .next (pos + 10 + rdlength.toNat, if ttl < least then ttl else least))
      (fun (_, least) => some least) ancount.toNat (pos, u32Max)
    match found with
    | none => return none
    | some least => if least = u32Max then return none else return some least

/-- The record whose type is at `pos`, with its age. -/
def ageRecord (elapsedSecs : UInt32) (packet : Bytes) (pos : ℕ) : Checked Bytes := do
  let rtype ← u16At packet pos
  if rtype = dnsTypeOpt then return packet
  let ttl ← u32At packet (pos + 4)
  setRange packet (pos + 4) (pos + 8) (u32ToBeBytes (agedTtl ttl elapsedSecs))

def rewriteTtls (packet : Bytes) (elapsedSecs : UInt32) : Checked (Bytes × Option Unit) := do
  if packet.length < 12 then return (packet, none)
  let qdcount ← u16At packet 4
  let ancount ← u16At packet 6
  let nscount ← u16At packet 8
  let arcount ← u16At packet 10
  match ← skipQuestions packet qdcount.toNat 12 with
  | none => return (packet, none)
  | some pos =>
    forRange (fun (pos, packet) => do
      match ← skipDnsName packet pos with
      | none => return .done (packet, none)
      | some pos =>
        if packet.length < pos + 10 then return .done (packet, none)
        let packet ← ageRecord elapsedSecs packet pos
        let rdlength ← u16At packet (pos + 8)
        if packet.length < pos + 10 + rdlength.toNat then return .done (packet, none)
        return .next (pos + 10 + rdlength.toNat, packet)) (fun (_, packet) => (packet, some ()))
      (ancount.toNat + nscount.toNat + arcount.toNat) (pos, packet)

def buildEmptyResponse (query : Bytes) (rcode : UInt8) : Checked (Option Bytes) := do
  if query.length < 12 then return none
  let qdcount ← u16At query 4
  match ← skipQuestions query qdcount.toNat 12 with
  | none => return none
  | some pos =>
    let resp ← range query 0 12
    let resp ← setIndex resp 2 ((0x80 : UInt8) ||| ((← index query 2) &&& 0x79))
    let resp ← setIndex resp 3 ((0x80 : UInt8) ||| (rcode &&& 0x0F))
    let resp ← setRange resp 6 12 (List.replicate 6 0)
    return some (resp ++ (← range query 12 pos))

section Complete
variable {packet : Bytes} {pos : ℕ}

theorem completes_u16At (h : pos + 2 ≤ packet.length) {P : UInt16 → Prop}
    (hP : P (Dns.u16At packet pos h)) : Completes (u16At packet pos) P := by
  refine .bind (.index (by omega) ?_)
  refine .bind (.index (by omega) ?_)
  exact .pure hP

theorem completes_u32At (h : pos + 4 ≤ packet.length) {P : UInt32 → Prop}
    (hP : P (Dns.u32At packet pos h)) : Completes (u32At packet pos) P := by
  refine .bind (.index (by omega) ?_)
  refine .bind (.index (by omega) ?_)
  refine .bind (.index (by omega) ?_)
  refine .bind (.index (by omega) ?_)
  exact .pure hP

theorem completes_skipDnsName (packet : Bytes) (pos : ℕ) :
    Completes (skipDnsName packet pos) (· = Dns.skipDnsName packet pos) := by
  refine .loop (fun p => packet.length - p)
    (fun p => Dns.skipDnsName packet p = Dns.skipDnsName packet pos) ?_ rfl
  intro p hp
  rw [← hp]
  by_cases hend : packet.length ≤ p
  · simp only [hend, if_true]
    exact .pure (skipDnsName_end hend).symm
  simp only [hend, if_false]
  refine .bind (.index (by omega) ?_)
  split_ifs with hzero hptr
  · exact .pure (skipDnsName_zero _ hzero).symm
  · exact .pure (skipDnsName_pointer _ hzero hptr).symm
  · exact .pure ⟨(skipDnsName_label _ hzero hptr).symm, by omega⟩

theorem completes_skipQuestions (packet : Bytes) (n pos : ℕ) :
    Completes (skipQuestions packet n pos) (· = Dns.skipQuestions packet n pos) := by
  refine .forRange
    (fun left p => Dns.skipQuestions packet left p = Dns.skipQuestions packet n pos) ?_ ?_ rfl
  · intro left p hp
    rw [← hp]
    refine .bind_eq (completes_skipDnsName packet p) ?_
    cases hname : Dns.skipDnsName packet p with
    | none => exact .pure (by simp [Step.Meets, Dns.skipQuestions, hname])
    | some next =>
      by_cases hshort : packet.length < next + 4
      · simp only [hshort, if_true]
        exact .pure (by simp [Step.Meets, Dns.skipQuestions, hname, hshort])
      · simp only [hshort, if_false]
        exact .pure (by simp [Step.Meets, Dns.skipQuestions, hname, hshort])
  · intro p hp
    exact hp

theorem completes_parseQueryType (packet : Bytes) :
    Completes (parseQueryType packet) (· = Dns.parseQueryType packet) := by
  rw [parseQueryType, Dns.parseQueryType]
  by_cases hempty : packet.length ≤ 12
  · simp only [hempty, if_true]
    exact .pure rfl
  simp only [hempty, if_false]
  refine .bind_eq (a := queryTypePos packet 12) ?_ ?_
  · rw [queryTypePos_eq_skipDnsName]
    exact completes_skipDnsName packet 12
  cases queryTypePos packet 12 with
  | none => exact .pure rfl
  | some q =>
    by_cases hshort : packet.length < q + 2
    · simp only [hshort, if_true, dif_pos]
      exact .pure rfl
    · simp only [hshort, if_false, dif_neg, not_false_eq_true]
      exact .bind (completes_u16At (by omega) (.pure rfl))

theorem completes_parseQueryName (packet : Bytes) :
    Completes (parseQueryName packet) (· = Dns.parseQueryName packet) := by
  rw [parseQueryName, Dns.parseQueryName]
  refine .bind_eq (a := queryNameParts packet 12 []) ?_ ?_
  · refine .loop (fun s => packet.length - s.1)
      (fun s => queryNameParts packet s.1 s.2 = queryNameParts packet 12 []) ?_ rfl
    rintro ⟨p, parts⟩ hp
    rw [← hp]
    by_cases hend : packet.length ≤ p
    · simp only [hend, if_true]
      exact .pure (queryNameParts_end hend).symm
    simp only [hend, if_false]
    refine .bind (.index (by omega) ?_)
    split_ifs with hzero hptr hshort
    · exact .pure (queryNameParts_zero _ hzero).symm
    · exact .pure (queryNameParts_pointer _ hzero hptr).symm
    · exact .pure (queryNameParts_short _ hzero hshort).symm
    · refine .bind (.range (by omega) (by omega) ?_)
      have hlabel : queryNameParts packet p parts = _ :=
        queryNameParts_label _ hzero hptr (Nat.le_of_not_lt hshort)
      rw [slice] at hlabel
      rw [hlabel]
      cases fromUtf8 ((packet.drop (p + 1)).take (p + 1 + packet[p].toNat - (p + 1))) with
      | none => exact .pure rfl
      | some label => exact .pure ⟨rfl, by simp only; omega⟩
  cases queryNameParts packet 12 [] with
  | none => exact .pure rfl
  | some parts =>
    dsimp only
    split_ifs
    · exact .pure rfl
    · exact .pure rfl

theorem getD_octets (h : pos + 16 ≤ packet.length) (i : Fin 16) :
    ((List.replicate 16 0).take 0 ++ (packet.drop pos).take (pos + 16 - pos) ++
      (List.replicate 16 0).drop 16).getD i.val 0 = packet[pos + i.val] := by
  have hi := i.isLt
  have hbyte : ((packet.drop pos).take 16)[i.val]? = some packet[pos + i.val] := by
    rw [List.getElem?_take_of_lt hi, List.getElem?_drop, List.getElem?_eq_getElem]
  simp [List.getD_eq_getElem?_getD, hbyte]

theorem completes_recordIps {rtype rclass : UInt16} {rdlength : ℕ}
    (h : pos + rdlength ≤ packet.length) :
    Completes (recordIps packet pos rtype rclass rdlength)
      (· = Dns.recordIps packet pos rtype rclass rdlength h) := by
  rw [recordIps, Dns.recordIps]
  split_ifs with hclass h4 h16
  · refine .bind (.index (by omega) ?_)
    refine .bind (.index (by omega) ?_)
    refine .bind (.index (by omega) ?_)
    exact .bind (.index (by omega) (.pure rfl))
  · refine .bind (.range (by omega) (by omega) ?_)
    refine .bind (.setRange (by omega) (by simp) (by simp; omega) ?_)
    refine .pure ?_
    simp only [getD_octets (show pos + 16 ≤ packet.length by omega)]
  · exact .pure rfl
  · exact .pure rfl

/-- What is in front of the loop over the answers. -/
theorem completes_answers {α : Type} {rest : UInt16 → ℕ → Checked (Option α)}
    (answers : ℕ → ℕ → Option α)
    (hrest : ∀ n start, Completes (rest n start) (· = answers n.toNat start)) :
    Completes (do
      if packet.length < 12 then return none
      let ancount ← u16At packet 6
      if ancount.toNat = 0 then return none
      let qdcount ← u16At packet 4
      match ← skipQuestions packet qdcount.toNat 12 with
      | none => return none
      | some start => rest ancount start)
      (· = if h : packet.length < 12 then none
        else if (Dns.u16At packet 6 (ancount_inBounds h)).toNat = 0 then none
        else
          match Dns.skipQuestions packet (Dns.u16At packet 4 (qdcount_inBounds h)).toNat 12 with
          | none => none
          | some start => answers (Dns.u16At packet 6 (ancount_inBounds h)).toNat start) := by
  refine .guard fun hlen => ?_
  refine .bind (completes_u16At (by omega) ?_)
  split_ifs with hnone
  · exact .pure rfl
  refine .bind (completes_u16At (by omega) ?_)
  refine .bind_eq (completes_skipQuestions packet _ 12) ?_
  cases Dns.skipQuestions packet (Dns.u16At packet 4 (qdcount_inBounds hlen)).toNat 12 with
  | none => exact .pure rfl
  | some start => exact hrest _ start

theorem completes_parseIpRecords (packet : Bytes) :
    Completes (parseIpRecords packet) (· = Dns.parseIpRecords packet) := by
  rw [parseIpRecords, Dns.parseIpRecords]
  refine completes_answers (fun n start => match ipRecords packet n start [] with
    | none => none
    | some ips => if ips.isEmpty then none else some ips) fun n start => ?_
  refine .bind_eq (a := ipRecords packet n.toNat start []) ?_ ?_
  · refine .forRange
      (fun left s => ipRecords packet left s.1 s.2 = ipRecords packet n.toNat start []) ?_ ?_ rfl
    · rintro left ⟨p, ips⟩ hp
      rw [← hp, ipRecords]
      refine .bind_eq (completes_skipDnsName packet p) ?_
      cases Dns.skipDnsName packet p with
      | none => exact .pure rfl
      | some next =>
        by_cases hhead : packet.length < next + 10
        · simp only [hhead, if_true, dif_pos]
          exact .pure rfl
        simp only [hhead, if_false, dif_neg, not_false_eq_true]
        refine .bind (completes_u16At (by omega) ?_)
        refine .bind (completes_u16At (by omega) ?_)
        refine .bind (completes_u16At (by omega) ?_)
        split_ifs with hdata
        · exact .pure rfl
        · exact .bind_eq (completes_recordIps (by omega)) (.pure rfl)
    · rintro ⟨p, ips⟩ hp
      exact hp
  · cases ipRecords packet n.toNat start [] with
    | none => exact .pure rfl
    | some ips =>
      dsimp only
      split_ifs
      · exact .pure rfl
      · exact .pure rfl

theorem completes_extractMinTtl (packet : Bytes) :
    Completes (extractMinTtl packet) (· = Dns.extractMinTtl packet) := by
  rw [extractMinTtl, Dns.extractMinTtl]
  refine completes_answers (fun n start => match minTtl packet n start u32Max with
    | none => none
    | some least => if least = u32Max then none else some least) fun n start => ?_
  refine .bind_eq (a := minTtl packet n.toNat start u32Max) ?_ ?_
  · refine .forRange
      (fun left s => minTtl packet left s.1 s.2 = minTtl packet n.toNat start u32Max) ?_ ?_ rfl
    · rintro left ⟨p, least⟩ hp
      rw [← hp, minTtl]
      refine .bind_eq (completes_skipDnsName packet p) ?_
      cases Dns.skipDnsName packet p with
      | none => exact .pure rfl
      | some next =>
        by_cases hhead : packet.length < next + 10
        · simp only [hhead, if_true, dif_pos]
          exact .pure rfl
        simp only [hhead, if_false, dif_neg, not_false_eq_true]
        refine .bind (completes_u32At (by omega) ?_)
        refine .bind (completes_u16At (by omega) ?_)
        exact .pure rfl
    · rintro ⟨p, least⟩ hp
      exact hp
  · cases minTtl packet n.toNat start u32Max with
    | none => exact .pure rfl
    | some least =>
      dsimp only
      split_ifs
      · exact .pure rfl
      · exact .pure rfl

theorem completes_ageRecord (elapsedSecs : UInt32) (h : pos + 10 ≤ packet.length) :
    Completes (ageRecord elapsedSecs packet pos) (· = Dns.ageRecord elapsedSecs packet pos h) := by
  rw [ageRecord, Dns.ageRecord]
  refine .bind (completes_u16At (by omega) ?_)
  split_ifs with hopt
  · exact .pure rfl
  · refine .bind (completes_u32At (by omega) ?_)
    exact .setRange (by omega) (by omega) (by simp [u32ToBeBytes]) rfl

theorem completes_rewriteTtls (packet : Bytes) (elapsedSecs : UInt32) :
    Completes (rewriteTtls packet elapsedSecs) (· = Dns.rewriteTtls packet elapsedSecs) := by
  rw [rewriteTtls, Dns.rewriteTtls]
  refine .guard fun hlen => ?_
  refine .bind (completes_u16At (by omega) ?_)
  refine .bind (completes_u16At (by omega) ?_)
  refine .bind (completes_u16At (by omega) ?_)
  refine .bind (completes_u16At (by omega) ?_)
  refine .bind_eq (completes_skipQuestions packet _ 12) ?_
  cases Dns.skipQuestions packet (Dns.u16At packet 4 (qdcount_inBounds hlen)).toNat 12 with
  | none => exact .pure rfl
  | some start =>
    dsimp only
    refine .forRange (fun left s => rewriteRecords elapsedSecs left s.1 s.2 =
      rewriteRecords elapsedSecs _ start packet) ?_ ?_ rfl
    · rintro left ⟨p, bytes⟩ hp
      rw [← hp, rewriteRecords]
      refine .bind_eq (completes_skipDnsName bytes p) ?_
      cases Dns.skipDnsName bytes p with
      | none => exact .pure rfl
      | some next =>
        by_cases hhead : bytes.length < next + 10
        · simp only [hhead, if_true, dif_pos]
          exact .pure rfl
        simp only [hhead, if_false, dif_neg, not_false_eq_true]
        refine .bind_eq (completes_ageRecord elapsedSecs (by omega)) ?_
        have hsame := Format.sameFrom_ageRecord elapsedSecs (show next + 10 ≤ bytes.length by omega)
        have haged := Format.length_ageRecord elapsedSecs (show next + 10 ≤ bytes.length by omega)
        refine .bind (completes_u16At (by omega) ?_)
        rw [hsame.u16At_eq (Nat.le_refl _) _ (by omega)]
        split_ifs with hdata
        · exact .pure rfl
        · exact .pure rfl
    · rintro ⟨p, bytes⟩ hp
      exact hp

theorem completes_buildEmptyResponse (query : Bytes) (rcode : UInt8) :
    Completes (buildEmptyResponse query rcode) (· = Dns.buildEmptyResponse query rcode) := by
  rw [buildEmptyResponse, Dns.buildEmptyResponse]
  refine .guard fun hlen => ?_
  refine .bind (completes_u16At (by omega) ?_)
  refine .bind_eq (completes_skipQuestions query _ 12) ?_
  cases hquestions : Dns.skipQuestions query
    (Dns.u16At query 4 (qdcount_inBounds hlen)).toNat 12 with
  | none => exact .pure rfl
  | some stop =>
    have hbounds := skipQuestions_bounds hquestions
    refine .bind (.range (by omega) (by omega) ?_)
    refine .bind (.index (by omega) ?_)
    refine .bind (.setIndex (by simp; omega) ?_)
    refine .bind (.setIndex (by simp; omega) ?_)
    refine .bind (.setRange (by omega) (by simp; omega) (by simp) ?_)
    refine .bind (.range (by omega) (by omega) ?_)
    exact .pure (by simp [slice])

end Complete
end TransProxy.Dns.Raw
