import TransProxy.Dns.Question
import TransProxy.Dns.TableRefinement

/-!
# The cache of DoH responses

A response is kept under its query without the transaction ID, and served with the
time it spent in the cache taken off its TTLs. Clock readings and the order in
which the map is visited are arguments, as for the table.
-/
namespace TransProxy.Dns
open Library Net

def minTtlSecs : UInt32 := 30
def maxTtlSecs : UInt32 := 3600

/-- The query with its transaction ID zeroed. -/
def cacheKey (packet : Bytes) : Bytes :=
  if 2 ≤ packet.length then 0 :: 0 :: packet.drop 2 else packet

/-- `buf[..2].copy_from_slice(&id.to_be_bytes())` of a buffer that has two bytes. -/
def restoreTxId (packet : Bytes) (id : UInt16) : Bytes :=
  if 2 ≤ packet.length then u16ToBeBytes id ++ packet.drop 2 else packet

/-- `packet[pos..pos + 4].copy_from_slice(&ttl.to_be_bytes())`. -/
def setTtl (packet : Bytes) (pos : ℕ) (ttl : UInt32) : Bytes :=
  packet.take pos ++ u32ToBeBytes ttl ++ packet.drop (pos + 4)

@[simp] theorem length_setTtl {packet : Bytes} {pos : ℕ} {ttl : UInt32}
    (h : pos + 4 ≤ packet.length) : (setTtl packet pos ttl).length = packet.length := by
  simp only [setTtl, u32ToBeBytes, List.length_append, List.length_take, List.length_cons,
    List.length_nil, List.length_drop]
  omega

def saturatingSub (a b : UInt32) : UInt32 := if b ≤ a then a - b else 0

/-- `ttl.saturating_sub(elapsed_secs).max(1)`. -/
def agedTtl (ttl elapsedSecs : UInt32) : UInt32 := max (saturatingSub ttl elapsedSecs) 1

/-- Age the record whose type is at `pos`; the TTL field of an OPT record carries flags. -/
def ageRecord (elapsedSecs : UInt32) (packet : Bytes) (pos : ℕ) (h : pos + 10 ≤ packet.length) :
    Bytes :=
  if u16At packet pos (by omega) = dnsTypeOpt then packet
  else setTtl packet (pos + 4) (agedTtl (u32At packet (pos + 4) (by omega)) elapsedSecs)

/-- The record loop of `rewrite_ttls`. What it wrote stays when it gives up. -/
def rewriteRecords (elapsedSecs : UInt32) : ℕ → ℕ → Bytes → Bytes × Option Unit
  | 0, _, packet => (packet, some ())
  | n + 1, pos, packet =>
    match skipDnsName packet pos with
    | none => (packet, none)
    | some pos =>
      if h : packet.length < pos + 10 then (packet, none)
      else
        let rdlength := (u16At packet (pos + 8) (rdlength_inBounds h)).toNat
        let packet := ageRecord elapsedSecs packet pos (by omega)
        if packet.length < pos + 10 + rdlength then (packet, none)
        else rewriteRecords elapsedSecs n (pos + 10 + rdlength) packet

def rewriteTtls (packet : Bytes) (elapsedSecs : UInt32) : Bytes × Option Unit :=
  if h : packet.length < 12 then (packet, none)
  else
    let ancount := (u16At packet 6 (ancount_inBounds h)).toNat
    let nscount := (u16At packet 8 (by omega)).toNat
    let arcount := (u16At packet 10 (by omega)).toNat
    match skipQuestions packet (u16At packet 4 (qdcount_inBounds h)).toNat 12 with
    | none => (packet, none)
    | some pos => rewriteRecords elapsedSecs (ancount + nscount + arcount) pos packet

theorem take_setTtl {packet : Bytes} {pos k : ℕ} {ttl : UInt32} (hk : k ≤ pos)
    (hpos : pos ≤ packet.length) : (setTtl packet pos ttl).take k = packet.take k := by
  rw [setTtl, List.append_assoc, List.take_append_of_le_length, List.take_take,
    Nat.min_eq_left hk]
  rw [List.length_take]
  omega

theorem take_ageRecord {elapsedSecs : UInt32} {packet : Bytes} {pos k : ℕ}
    (h : pos + 10 ≤ packet.length) (hk : k ≤ pos) :
    (ageRecord elapsedSecs packet pos h).take k = packet.take k := by
  unfold ageRecord
  split_ifs
  · rfl
  · exact take_setTtl (by omega) (by omega)

/-- The record loop writes behind the position it starts from. -/
theorem take_rewriteRecords (elapsedSecs : UInt32) (n pos : ℕ) (packet : Bytes) {k : ℕ}
    (hk : k ≤ pos) : (rewriteRecords elapsedSecs n pos packet).1.take k = packet.take k := by
  induction n generalizing pos packet with
  | zero => rfl
  | succ n ih =>
    unfold rewriteRecords
    cases hname : skipDnsName packet pos with
    | none => rfl
    | some next =>
      have hnext := (lt_of_skipDnsName hname).1
      by_cases hcut : packet.length < next + 10
      · simp [hcut]
      · simp only [hcut, dif_neg, not_false_eq_true]
        split_ifs
        · exact take_ageRecord (by omega) (by omega)
        · rw [ih _ _ (by omega), take_ageRecord (by omega) (by omega)]

theorem take_rewriteTtls (packet : Bytes) (elapsedSecs : UInt32) :
    (rewriteTtls packet elapsedSecs).1.take 12 = packet.take 12 := by
  unfold rewriteTtls
  by_cases hlen : packet.length < 12
  · simp [hlen]
  · simp only [hlen, dif_neg, not_false_eq_true]
    cases hquestions : skipQuestions packet (u16At packet 4 (by omega)).toNat 12 with
    | none => rfl
    | some pos => exact take_rewriteRecords _ _ _ _ (skipQuestions_bounds hquestions).1

theorem take_restoreTxId {packet : Bytes} (id : UInt16) (h : 2 ≤ packet.length) :
    (restoreTxId packet id).take 2 = u16ToBeBytes id := by
  rw [restoreTxId, if_pos h]
  rfl

/-- Two queries with one key differ in their first two bytes only. -/
theorem drop_eq_of_cacheKey_eq {p q : Bytes} (hp : 2 ≤ p.length) (hq : 2 ≤ q.length)
    (h : cacheKey p = cacheKey q) : p.drop 2 = q.drop 2 := by
  simpa [cacheKey, hp, hq] using h

structure DnsCacheEntry where
  response : Bytes
  inserted : Instant
  expires : Instant

abbrev DnsCache := HashMap Bytes DnsCacheEntry

abbrev CacheOrder := HashMap.IterOrder Bytes DnsCacheEntry

def elapsedSecs (inserted now : Instant) : UInt32 :=
  UInt32.ofNat (min ((now - inserted) / fromSecs 1) u32Max.toNat)

/-- The minimum answer TTL, clamped; the least lifetime when there is none. -/
def cacheTtl (response : Bytes) : UInt32 :=
  let ttl := (extractMinTtl response).getD minTtlSecs
  if ttl < minTtlSecs then minTtlSecs
  else if maxTtlSecs < ttl then maxTtlSecs
  else ttl

theorem toNat_cacheTtl (response : Bytes) : (cacheTtl response).toNat =
    max 30 (min 3600 ((extractMinTtl response).getD 30).toNat) :=
  toNat_clamp minTtlSecs maxTtlSecs _ (by decide)

/-- What a hit makes of the entry: `now` is the reading for its age. -/
def DnsCacheEntry.served (entry : DnsCacheEntry) (txId : UInt16) (now : Instant) : Bytes :=
  let resp := restoreTxId entry.response txId
  let elapsed := elapsedSecs entry.inserted now
  if 0 < elapsed then (rewriteTtls resp elapsed).1 else resp

namespace DnsCache

/-- `now` is the reading for the expiry, `agedNow` the one for the age. -/
def get (cache : DnsCache) (key : Bytes) (txId : UInt16) (now agedNow : Instant) : Option Bytes :=
  match AList.lookup key cache with
  | none => none
  | some entry =>
    if entry.expires ≤ now then none else some (entry.served txId agedNow)

/-- The keys of the entries that are found expired, each by a reading of its own. -/
def staleKeys (order : CacheOrder) (cache : DnsCache) (clock : Bytes → Instant) : List Bytes :=
  ((order.visit cache).filter (fun e => decide (e.2.expires ≤ clock e.1))).map Prod.fst

/-- What a `put` leaves of the earlier entries. -/
def evict (order : CacheOrder) (cache : DnsCache) (clock : Bytes → Instant) : DnsCache :=
  if maxCacheEntries ≤ HashMap.len cache then
    let map := cache.eraseAll (staleKeys order cache clock)
    if maxCacheEntries ≤ HashMap.len map then dropVisited order (maxCacheEntries / 2) map else map
  else cache

def put (order : CacheOrder) (cache : DnsCache) (key response : Bytes) (now : Instant)
    (clock : Bytes → Instant) : DnsCache :=
  let ttl := cacheTtl response
  let entry : DnsCacheEntry :=
    { response, inserted := now, expires := now + fromSecs ttl.toNat }
  AList.insert key entry (evict order cache clock)

theorem get_eq_some_iff {cache : DnsCache} {key : Bytes} {txId : UInt16} {now agedNow : Instant}
    {resp : Bytes} : get cache key txId now agedNow = some resp ↔
      ∃ entry, AList.lookup key cache = some entry ∧ now < entry.expires ∧
        entry.served txId agedNow = resp := by
  unfold get
  cases h : AList.lookup key cache with
  | none => simp
  | some entry =>
    by_cases hexp : entry.expires ≤ now
    · simp [hexp]
    · simp [hexp, Nat.lt_of_not_le hexp]

variable (order : CacheOrder) (cache : DnsCache) (key response : Bytes) (now : Instant)
  (clock : Bytes → Instant)

theorem sub_evict : HashMap.Sub (evict order cache clock) cache := by
  dsimp only [evict]
  split_ifs
  · exact (sub_dropVisited order _ _).trans (HashMap.sub_eraseAll cache _)
  · exact HashMap.sub_eraseAll cache _
  · rfl

theorem len_put (h : HashMap.len cache ≤ maxCacheEntries) :
    HashMap.len (put order cache key response now clock) ≤ maxCacheEntries := by
  have herase := HashMap.len_eraseAll_le cache (staleKeys order cache clock)
  have hevict : HashMap.len (evict order cache clock) < maxCacheEntries := by
    dsimp only [evict]
    split_ifs
    · rw [len_dropVisited]
      have hcap : maxCacheEntries = 10000 := rfl
      omega
    · omega
    · omega
  exact Nat.le_trans (HashMap.len_insert_le _ key _) hevict

/-- What is found after a `put`: the new entry or an old one. -/
theorem lookup_put {k : Bytes} {entry : DnsCacheEntry}
    (h : AList.lookup k (put order cache key response now clock) = some entry) :
    k = key ∧ entry = ⟨response, now, now + fromSecs (cacheTtl response).toNat⟩ ∨
      AList.lookup k cache = some entry := by
  rw [put, HashMap.lookup_insert_eq] at h
  by_cases hk : k = key
  · rw [if_pos hk] at h
    exact .inl ⟨hk, (Option.some.inj h).symm⟩
  · rw [if_neg hk] at h
    exact .inr (sub_evict order cache clock k entry h)

end DnsCache
end TransProxy.Dns
