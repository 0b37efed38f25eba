import TransProxy.Net.Addr

/-!
# Reading DNS messages

The walkers of `dns.rs` over an untrusted packet. Every index carries the proof
that it is in bounds, taken from the length check in front of it.
-/
namespace TransProxy.Dns
open Library Net

def dnsTypeA : UInt16 := 1
def dnsTypeAaaa : UInt16 := 28
def dnsTypeOpt : UInt16 := 41
def dnsClassIn : UInt16 := 1

/-- `u16::from_be_bytes` of the two bytes at `pos`. -/
def u16At (packet : Bytes) (pos : ℕ) (h : pos + 2 ≤ packet.length) : UInt16 :=
  u16FromBeBytes packet[pos] packet[pos + 1]

theorem u16ToBeBytes_u16At_zero {packet : Bytes} (h : 0 + 2 ≤ packet.length) :
    u16ToBeBytes (u16At packet 0 h) = packet.take 2 := by
  rw [u16At, u16ToBeBytes_u16FromBeBytes]
  match packet, h with
  | _ :: _ :: _, _ => rfl

/-- `u32::from_be_bytes` of the four bytes at `pos`. -/
def u32At (packet : Bytes) (pos : ℕ) (h : pos + 4 ≤ packet.length) : UInt32 :=
  u32FromBeBytes packet[pos] packet[pos + 1] packet[pos + 2] packet[pos + 3]

/-! What a passed length check says about the bytes behind it. -/

section InBounds
variable {packet : Bytes} {pos : ℕ}

theorem byte_inBounds (h : ¬packet.length ≤ pos) : pos < packet.length := Nat.lt_of_not_le h

theorem u16_inBounds (h : ¬packet.length < pos + 2) : pos + 2 ≤ packet.length :=
  Nat.le_of_not_lt h

theorem rdlength_inBounds (h : ¬packet.length < pos + 10) : pos + 8 + 2 ≤ packet.length := by
  omega

theorem id_inBounds (h : ¬packet.length < 12) : 0 + 2 ≤ packet.length := by omega

theorem flags_inBounds (h : ¬packet.length < 12) : 2 < packet.length := by omega

theorem qdcount_inBounds (h : ¬packet.length < 12) : 4 + 2 ≤ packet.length := by omega

theorem ancount_inBounds (h : ¬packet.length < 12) : 6 + 2 ≤ packet.length := by omega

end InBounds

def slice (packet : Bytes) (lo hi : ℕ) : Bytes := (packet.drop lo).take (hi - lo)

def skipDnsName (packet : Bytes) (pos : ℕ) : Option ℕ :=
  if h : packet.length ≤ pos then none
  else
    let b := packet[pos]
    if b = 0 then some (pos + 1)
    else if b &&& 0xC0 = 0xC0 then some (pos + 2)
    else skipDnsName packet (pos + 1 + b.toNat)
termination_by packet.length - pos

section SkipDnsName
variable {packet : Bytes} {pos : ℕ}

theorem skipDnsName_end (h : packet.length ≤ pos) : skipDnsName packet pos = none := by
  rw [skipDnsName, dif_pos h]

theorem skipDnsName_zero (h : pos < packet.length) (hb : packet[pos] = 0) :
    skipDnsName packet pos = some (pos + 1) := by
  rw [skipDnsName, dif_neg (by omega)]
  simp [hb]

theorem skipDnsName_pointer (h : pos < packet.length) (hb : packet[pos] ≠ 0)
    (hptr : packet[pos] &&& 0xC0 = 0xC0) : skipDnsName packet pos = some (pos + 2) := by
  rw [skipDnsName, dif_neg (by omega)]
  simp [hb, hptr]

theorem skipDnsName_label (h : pos < packet.length) (hb : packet[pos] ≠ 0)
    (hptr : packet[pos] &&& 0xC0 ≠ 0xC0) :
    skipDnsName packet pos = skipDnsName packet (pos + 1 + packet[pos].toNat) := by
  rw [skipDnsName, dif_neg (by omega)]
  simp [hb, hptr]

end SkipDnsName

/-- The question loop that every message walker starts with. -/
def skipQuestions (packet : Bytes) : ℕ → ℕ → Option ℕ
  | 0, pos => some pos
  | n + 1, pos =>
    match skipDnsName packet pos with
    | none => none
    | some pos =>
      if packet.length < pos + 4 then none else skipQuestions packet n (pos + 4)

/-- The loop of `parse_query_type`, up to the position of the type. -/
def queryTypePos (packet : Bytes) (pos : ℕ) : Option ℕ :=
  if h : packet.length ≤ pos then none
  else
    let len := packet[pos]
    if len = 0 then some (pos + 1)
    else if len &&& 0xC0 = 0xC0 then some (pos + 2)
    else queryTypePos packet (pos + 1 + len.toNat)
termination_by packet.length - pos

def parseQueryType (packet : Bytes) : Option UInt16 :=
  if packet.length ≤ 12 then none
  else
    match queryTypePos packet 12 with
    | none => none
    | some pos => if h : packet.length < pos + 2 then none else some (u16At packet pos (by omega))

/-- The loop of `parse_query_name`; it gives up on a compression pointer and on a
label that is not UTF-8. -/
def queryNameParts (packet : Bytes) (pos : ℕ) (parts : List String) : Option (List String) :=
  if h : packet.length ≤ pos then none
  else
    let len := packet[pos]
    if len = 0 then some parts
    else if len &&& 0xC0 = 0xC0 then none
    else if packet.length < pos + 1 + len.toNat then none
    else
      match fromUtf8 (slice packet (pos + 1) (pos + 1 + len.toNat)) with
      | none => none
      | some label => queryNameParts packet (pos + 1 + len.toNat) (parts ++ [label])
termination_by packet.length - pos

section QueryNameParts
variable {packet : Bytes} {pos : ℕ} {parts : List String}

theorem queryNameParts_end (h : packet.length ≤ pos) : queryNameParts packet pos parts = none := by
  rw [queryNameParts, dif_pos h]

theorem queryNameParts_zero (h : pos < packet.length) (hb : packet[pos] = 0) :
    queryNameParts packet pos parts = some parts := by
  rw [queryNameParts, dif_neg (by omega)]
  simp [hb]

theorem queryNameParts_pointer (h : pos < packet.length) (hb : packet[pos] ≠ 0)
    (hptr : packet[pos] &&& 0xC0 = 0xC0) : queryNameParts packet pos parts = none := by
  rw [queryNameParts, dif_neg (by omega)]
  simp [hb, hptr]

theorem queryNameParts_short (h : pos < packet.length) (hb : packet[pos] ≠ 0)
    (hshort : packet.length < pos + 1 + packet[pos].toNat) :
    queryNameParts packet pos parts = none := by
  rw [queryNameParts, dif_neg (by omega)]
  simp [hb, hshort]

theorem queryNameParts_label (h : pos < packet.length) (hb : packet[pos] ≠ 0)
    (hptr : packet[pos] &&& 0xC0 ≠ 0xC0)
    (hin : pos + 1 + packet[pos].toNat ≤ packet.length) :
    queryNameParts packet pos parts =
      match fromUtf8 (slice packet (pos + 1) (pos + 1 + packet[pos].toNat)) with
      | none => none
      | some label => queryNameParts packet (pos + 1 + packet[pos].toNat) (parts ++ [label]) := by
  rw [queryNameParts, dif_neg (by omega)]
  simp [hb, hptr, Nat.not_lt.mpr hin]

end QueryNameParts

def parseQueryName (packet : Bytes) : Option String :=
  match queryNameParts packet 12 [] with
  | none => none
  | some parts => if parts.isEmpty then none else some (".".intercalate parts)

/-- The address held by the record data at `pos`, if any. -/
def recordIps (packet : Bytes) (pos : ℕ) (rtype rclass : UInt16) (rdlength : ℕ)
    (h : pos + rdlength ≤ packet.length) : List IpAddr :=
  if rclass = dnsClassIn then
    if h4 : rtype = dnsTypeA ∧ rdlength = 4 then
      [.v4 (.new packet[pos] packet[pos + 1] packet[pos + 2] packet[pos + 3])]
    else if h16 : rtype = dnsTypeAaaa ∧ rdlength = 16 then
      [.v6 ⟨Vector.ofFn fun i : Fin 16 => packet[pos + i.val]⟩]
    else []
  else []

/-- The answer loop of `parse_ip_records`. A record cut short ends the loop with
what was found so far, a name cut short fails the whole parse. -/
def ipRecords (packet : Bytes) : ℕ → ℕ → List IpAddr → Option (List IpAddr)
  | 0, _, ips => some ips
  | n + 1, pos, ips =>
    match skipDnsName packet pos with
    | none => none
    | some pos =>
      if h : packet.length < pos + 10 then some ips
      else
        let rtype := u16At packet pos (by omega)
        let rclass := u16At packet (pos + 2) (by omega)
        let rdlength := (u16At packet (pos + 8) (by omega)).toNat
        if h' : packet.length < pos + 10 + rdlength then some ips
        else
          ipRecords packet n (pos + 10 + rdlength)
            (ips ++ recordIps packet (pos + 10) rtype rclass rdlength (by omega))

def parseIpRecords (packet : Bytes) : Option (List IpAddr) :=
  if h : packet.length < 12 then none
  else
    let ancount := (u16At packet 6 (by omega)).toNat
    if ancount = 0 then none
    else
      match skipQuestions packet (u16At packet 4 (by omega)).toNat 12 with
      | none => none
      | some pos =>
        match ipRecords packet ancount pos [] with
        | none => none
        | some ips => if ips.isEmpty then none else some ips

/-- The answer loop of `extract_min_ttl`, starting from the sentinel. -/
def minTtl (packet : Bytes) : ℕ → ℕ → UInt32 → Option UInt32
  | 0, _, least => some least
  | n + 1, pos, least =>
    match skipDnsName packet pos with
    | none => none
    | some pos =>
      if h : packet.length < pos + 10 then some least
      else
        let ttl := u32At packet (pos + 4) (by omega)
        let rdlength := (u16At packet (pos + 8) (by omega)).toNat
        minTtl packet n (pos + 10 + rdlength) (if ttl < least then ttl else least)

/-- `u32::MAX`. -/
def u32Max : UInt32 := 0xFFFFFFFF

def extractMinTtl (packet : Bytes) : Option UInt32 :=
  if h : packet.length < 12 then none
  else
    let ancount := (u16At packet 6 (by omega)).toNat
    if ancount = 0 then none
    else
      match skipQuestions packet (u16At packet 4 (by omega)).toNat 12 with
      | none => none
      | some pos =>
        match minTtl packet ancount pos u32Max with
        | none => none
        | some least => if least = u32Max then none else some least

/-- A minimal answerless response: header bits set, question section echoed. -/
def buildEmptyResponse (query : Bytes) (rcode : UInt8) : Option Bytes :=
  if h : query.length < 12 then none
  else
    match skipQuestions query (u16At query 4 (by omega)).toNat 12 with
    | none => none
    | some pos =>
      let resp := query.take 12
      let resp := resp.set 2 ((0x80 : UInt8) ||| (query[2] &&& 0x79))
      let resp := resp.set 3 ((0x80 : UInt8) ||| (rcode &&& 0x0F))
      let resp := resp.take 6 ++ List.replicate 6 0
      some (resp ++ slice query 12 pos)

def buildServfail (query : Bytes) : Option Bytes := buildEmptyResponse query 2

def buildNodata (query : Bytes) : Option Bytes := buildEmptyResponse query 0

/-- The transaction ID is taken over from the query. -/
theorem take_of_buildEmptyResponse {query resp : Bytes} {rcode : UInt8}
    (h : buildEmptyResponse query rcode = some resp) :
    2 ≤ resp.length ∧ resp.take 2 = query.take 2 := by
  unfold buildEmptyResponse at h
  by_cases hlen : query.length < 12
  · simp [hlen] at h
  simp only [hlen, dif_neg, not_false_eq_true] at h
  cases hquestions : skipQuestions query (u16At query 4 (by omega)).toNat 12 with
  | none => simp [hquestions] at h
  | some pos =>
    simp only [hquestions, Option.some.injEq] at h
    subst h
    match query, hlen with
    | [], hlen => simp at hlen
    | [_], hlen => simp at hlen
    | _ :: _ :: _, _ => simp

theorem length_of_parseIpRecords {packet : Bytes} {ips : List IpAddr}
    (h : parseIpRecords packet = some ips) : 12 ≤ packet.length := by
  unfold parseIpRecords at h
  by_cases hlen : packet.length < 12
  · simp [hlen] at h
  · omega

end TransProxy.Dns
