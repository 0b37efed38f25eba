import TransProxy.Dns.Aging
import TransProxy.Dns.LeastTtl

/-!
# Replies from the cache and the age of their records

A reply from the cache is the stored message, aged. The time it may be served for comes from the
answers alone, so a record of another section with a lesser TTL is replayed after it expired.
-/
namespace TransProxy.Dns
open Library Net

namespace DnsCache

/-- A call of `put`, with its clock readings and the order its eviction goes by. -/
structure PutCall where
  key : Bytes
  response : Bytes
  now : Instant
  clock : Bytes → Instant
  order : CacheOrder

def PutCall.run (cache : DnsCache) (c : PutCall) : DnsCache :=
  cache.put c.order c.key c.response c.now c.clock

def after (calls : List PutCall) : DnsCache := calls.foldl PutCall.run ∅

theorem after_snoc (calls : List PutCall) (c : PutCall) :
    after (calls ++ [c]) = c.run (after calls) := by
  simp [after]

theorem lookup_after_singleton (c : PutCall) : AList.lookup c.key (after [c]) =
    some ⟨c.response, c.now, c.now + fromSecs (cacheTtl c.response).toNat⟩ := by
  rw [show after [c] = c.run ∅ from rfl, PutCall.run, put, HashMap.lookup_insert_eq, if_pos rfl]

/-- What is in the cache was put there, to be kept as long as its response says. -/
theorem expires_of_lookup (calls : List PutCall) {key : Bytes} {entry : DnsCacheEntry}
    (h : AList.lookup key (after calls) = some entry) :
    entry.expires = entry.inserted + fromSecs (cacheTtl entry.response).toNat := by
  induction calls using List.reverseRecOn with
  | nil => cases h
  | append_singleton calls c ih =>
    rw [after_snoc] at h
    rcases lookup_put c.order _ c.key c.response c.now c.clock h with ⟨_, rfl⟩ | hold
    · rfl
    · exact ih hold

end DnsCache

namespace Format

def Message.withId (m : Message) (txId : UInt16) : Message := { m with id := txId }

def Message.replayed (m : Message) (txId : UInt16) (secs : UInt32) : Message :=
  if 0 < secs then (m.withId txId).aged secs else m.withId txId

theorem restoreTxId_encode (m : Message) (txId : UInt16) :
    restoreTxId m.encode txId = (m.withId txId).encode := by
  have hlen : 2 ≤ m.encode.length := by
    have hin := (Response.readBy (holdsAt_start m.response.opening
      (encodeRecords m.response.answers ++ m.response.rest))).inBounds
    have hencode : m.encode = m.response.opening ++
        (encodeRecords m.response.answers ++ m.response.rest) := rfl
    rw [hencode]
    omega
  rw [restoreTxId, if_pos hlen]
  rfl

/-- A reply from the cache is the message that was stored, with the ID of the query and its
records aged. -/
theorem served_encode {m : Message} {entry : DnsCacheEntry} (h : entry.response = m.encode)
    (txId : UInt16) (now : Instant) : entry.served txId now =
      (m.replayed txId (elapsedSecs entry.inserted now)).encode := by
  dsimp only [DnsCacheEntry.served]
  rw [h, restoreTxId_encode, Message.replayed]
  split_ifs
  · rw [rewriteTtls_encode]
  · rfl

/-- Whatever calls filled the cache, a reply that it serves from the message at some time holds
no record that had expired by then, unless the message was stored less than 30 seconds ago. -/
def Message.ServedFresh (m : Message) : Prop :=
  ∀ (calls : List DnsCache.PutCall) (key : Bytes) (entry : DnsCacheEntry) (txId : UInt16)
    (now agedNow : Instant) (reply : Bytes),
    AList.lookup key (DnsCache.after calls) = some entry → entry.response = m.encode →
      (DnsCache.after calls).get key txId now agedNow = some reply →
        reply = (m.replayed txId (elapsedSecs entry.inserted agedNow)).encode ∧
          ∀ r ∈ m.records, r.rtype ≠ dnsTypeOpt →
            now - entry.inserted ≤ fromSecs r.ttl.toNat ∨ now - entry.inserted < fromSecs 30

/-- The record outlives the answers, as far as they decide how long the message is kept. -/
def Message.Outlives (m : Message) (r : Record) : Prop :=
  3600 ≤ r.ttl.toNat ∨ (∃ a ∈ m.answers, a.ttl.toNat ≤ max 30 r.ttl.toNat) ∨
    ∀ a ∈ m.answers, a.ttl = u32Max

def putAtZero (m : Message) : DnsCache.PutCall := ⟨[], m.encode, 0, fun _ => 0, .stored⟩

theorem fromSecs_le {a b : ℕ} (h : a ≤ b) : fromSecs a ≤ fromSecs b := Nat.mul_le_mul_right _ h

/-- The age of what is not expired. -/
theorem age_lt {now inserted lifetime : ℕ} (h : now < inserted + lifetime)
    (hpos : 0 < lifetime) : now - inserted < lifetime := by
  omega

theorem fromSecs_succ_lt {a b : ℕ} (h : a < b) : fromSecs a + 1 < fromSecs b := by
  rw [fromSecs, fromSecs]
  omega

/-- The least TTL of the answers, where there is one to be found. -/
theorem extractMinTtl_cases (m : Response) :
    (extractMinTtl m.encode = none ∧ ∀ a ∈ m.answers, a.ttl = u32Max) ∨
      ∃ least, extractMinTtl m.encode = some least ∧ IsLeast m.Ttls least ∧ least ≠ u32Max := by
  by_cases h : ∃ r ∈ m.answers, r.ttl ≠ u32Max
  · obtain ⟨r, hr, hne⟩ := h
    have hanswers : m.answers ≠ [] := List.ne_nil_of_mem hr
    obtain ⟨least, hleast, hkept⟩ := (keptFor_iff m hanswers).mpr ⟨r, hr, hne⟩
    refine .inr ⟨least, hkept.extracted, hleast, ?_⟩
    rintro rfl
    have hextract := hkept.extracted
    rw [extractMinTtl_encode, eq_of_isLeast (isLeast_foldl m hanswers) hleast, if_pos rfl]
      at hextract
    cases hextract
  · have hall : ∀ a ∈ m.answers, a.ttl = u32Max := by simpa using h
    refine .inl ⟨?_, hall⟩
    rw [extractMinTtl_encode, if_pos]
    by_cases hanswers : m.answers = []
    · rw [hanswers]
      rfl
    · obtain ⟨⟨r, hr, httl⟩, _⟩ := isLeast_foldl m hanswers
      rw [← httl, hall r hr]

/-- How long the message is kept. -/
theorem toNat_cacheTtl_le {m : Message} {r : Record} (hr : r ∈ m.answers ∨ m.Outlives r) :
    (cacheTtl m.encode).toNat ≤ max 30 r.ttl.toNat := by
  rw [toNat_cacheTtl]
  rcases extractMinTtl_cases m.response with ⟨hnone, hall⟩ | ⟨least, hsome, hleast, hne⟩
  · rw [Message.encode, hnone]
    simp
  · rw [Message.encode, hsome, Option.getD_some]
    have hlower : ∀ a ∈ m.answers, least.toNat ≤ a.ttl.toNat :=
      fun a ha => UInt32.le_iff_toNat_le.mp (hleast.2 ⟨a, ha, rfl⟩)
    rcases hr with hanswer | hlong | ⟨a, ha, hless⟩ | hmax
    · have hle := hlower r hanswer
      omega
    · omega
    · have hle := hlower a ha
      omega
    · obtain ⟨⟨a, ha, httl⟩, _⟩ := hleast
      exact absurd (httl.symm.trans (hmax a ha)) hne

theorem lt_cacheTtl {m : Message} {r : Record} (hr : ¬ m.Outlives r) :
    max 30 r.ttl.toNat < (cacheTtl m.encode).toNat := by
  simp only [Message.Outlives, not_or, not_exists, not_and, Nat.not_le] at hr
  obtain ⟨hshort, hless, hmax⟩ := hr
  rw [toNat_cacheTtl]
  rcases extractMinTtl_cases m.response with ⟨_, hall⟩ | ⟨least, hsome, ⟨⟨a, ha, rfl⟩, _⟩, _⟩
  · exact absurd hall hmax
  · rw [Message.encode, hsome, Option.getD_some]
    have hlt := hless a ha
    omega

/-- Everything that is served is fresh exactly when the records of the other sections outlive the
answers. -/
theorem servedFresh_iff (m : Message) :
    m.ServedFresh ↔ ∀ r ∈ m.authority ++ m.additional, r.rtype ≠ dnsTypeOpt → m.Outlives r := by
  constructor
  · intro h r hr hopt
    by_contra hout
    have hlt := lt_cacheTtl hout
    have hentry := DnsCache.lookup_after_singleton (putAtZero m)
    -- one nanosecond after both the record and the grace of 30 seconds have run out
    have hlate := fromSecs_succ_lt hlt
    have hget : (DnsCache.after [putAtZero m]).get [] 0 (fromSecs (max 30 r.ttl.toNat) + 1) 0 =
        some _ :=
      DnsCache.get_eq_some_iff.mpr ⟨_, hentry, by exact (Nat.zero_add _).symm ▸ hlate, rfl⟩
    have hfresh := (h [putAtZero m] [] _ 0 _ 0 _ hentry rfl hget).2 r (by
      rw [Message.records, List.append_assoc]
      exact List.mem_append_right _ hr) hopt
    have hgrace := fromSecs_le (Nat.le_max_left 30 r.ttl.toNat)
    have httl := fromSecs_le (Nat.le_max_right 30 r.ttl.toNat)
    rcases hfresh with hexpired | hearly
    · exact Nat.not_le_of_lt (Nat.lt_succ_of_le httl) hexpired
    · exact Nat.not_lt_of_le (Nat.le_succ_of_le hgrace) hearly
  · intro h calls key entry txId now agedNow reply hlookup hresponse hget
    obtain ⟨entry', hentry', hexpires, hreply⟩ := DnsCache.get_eq_some_iff.mp hget
    obtain rfl := Option.some.inj (hlookup.symm.trans hentry')
    refine ⟨hreply ▸ served_encode hresponse txId agedNow, ?_⟩
    intro r hr hopt
    have hkept : r ∈ m.answers ∨ m.Outlives r := by
      rw [Message.records, List.append_assoc, List.mem_append] at hr
      exact hr.imp_right fun hother => h r hother hopt
    have hle := fromSecs_le (toNat_cacheTtl_le hkept)
    have hlife := DnsCache.expires_of_lookup calls hlookup
    rw [hlife, hresponse] at hexpires
    have hpos : 0 < fromSecs (cacheTtl m.encode).toNat := by
      rw [toNat_cacheTtl, fromSecs]
      omega
    have hage := age_lt hexpires hpos
    rcases Nat.le_total 30 r.ttl.toNat with hlong | hshort
    · rw [Nat.max_eq_right hlong] at hle
      exact .inl (Nat.le_of_lt (Nat.lt_of_lt_of_le hage hle))
    · rw [Nat.max_eq_left hshort] at hle
      exact .inr (Nat.lt_of_lt_of_le hage hle)

/-- An answer for an hour, with an additional record for a minute. -/
def glued : Message :=
  { id := 0x1234, flags := 0x8180, questions := questionsA
    answers := [answerA 1 3600], authority := [], additional := [answerA 2 60], trailing := []
    questions_lt := questionsA_lt, answers_lt := by decide, authority_lt := by decide
    additional_lt := by decide }

/-- After 100 seconds the additional record is still replayed, with a TTL of one second. -/
theorem not_servedFresh_glued :
    (DnsCache.after [putAtZero glued]).get [] 0x1234 (fromSecs 100) (fromSecs 100) =
      some (glued.replayed 0x1234 100).encode ∧
    (glued.replayed 0x1234 100).additional = [answerA 2 1] ∧ ¬ glued.ServedFresh := by
  have hentry := DnsCache.lookup_after_singleton (putAtZero glued)
  have hlife : (cacheTtl (putAtZero glued).response).toNat = 3600 := by decide +kernel
  rw [hlife] at hentry
  have hget : (DnsCache.after [putAtZero glued]).get [] 0x1234 (fromSecs 100) (fromSecs 100) =
      some (glued.replayed 0x1234 100).encode :=
    DnsCache.get_eq_some_iff.mpr ⟨_, hentry, by decide, served_encode rfl _ _⟩
  refine ⟨hget, by decide, ?_⟩
  intro h
  have hfresh := (h _ [] _ 0x1234 _ _ _ hentry rfl hget).2 (answerA 2 60) (by decide) (by decide)
  revert hfresh
  decide

end Format
end TransProxy.Dns
