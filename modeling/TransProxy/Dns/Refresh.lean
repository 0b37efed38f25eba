import TransProxy.Dns.Freshness

/-!
# What an insert does to the other entries

The table and the cache make room whenever they are full, and do not look whether the key is
there already. So an insert under a key that is present costs half of a full map as well.
-/
namespace TransProxy.Dns
open Library Net

section Eviction
variable {κ ν : Type*} [DecidableEq κ] (expires : ν → Instant) (clock : κ → Instant)

/-- Every other entry that is not expired stays. -/
def KeepsOthers (key : κ) (map map' : HashMap κ ν) : Prop :=
  ∀ k ≠ key, ∀ v, map.lookup k = some v → clock k < expires v → map'.lookup k = some v

def SomeExpired (map : HashMap κ ν) : Prop := ∃ k v, map.lookup k = some v ∧ expires v ≤ clock k

def Sweeps (map swept : HashMap κ ν) : Prop :=
  ∀ k v, swept.lookup k = some v ↔ map.lookup k = some v ∧ clock k < expires v

/-- What both evictions do: sweep a full map, and halve it if that did not help. -/
def makeRoom (order : HashMap.IterOrder κ ν) (map swept : HashMap κ ν) : HashMap κ ν :=
  if maxCacheEntries ≤ HashMap.len map then
    if maxCacheEntries ≤ HashMap.len swept then dropVisited order (maxCacheEntries / 2) swept
    else swept
  else map

variable {expires clock} {map swept : HashMap κ ν}

theorem lt_of_not_someExpired (h : ¬ SomeExpired expires clock map) {k : κ} {v : ν}
    (hv : map.lookup k = some v) : clock k < expires v := by
  by_contra hexpired
  exact h ⟨k, v, hv, Nat.not_lt.mp hexpired⟩

theorem Sweeps.mem_of_mem (hswept : Sweeps expires clock map swept) : ∀ k ∈ swept, k ∈ map := by
  intro k hk
  obtain ⟨v, hv⟩ := HashMap.exists_lookup_of_mem hk
  exact HashMap.mem_of_lookup ((hswept k v).mp hv).1

theorem Sweeps.len_lt (hswept : Sweeps expires clock map swept)
    (hexpired : SomeExpired expires clock map) : HashMap.len swept < HashMap.len map := by
  obtain ⟨k, v, hk, hv⟩ := hexpired
  refine HashMap.len_lt_of_notMem hswept.mem_of_mem hk ?_
  intro hmem
  obtain ⟨w, hw⟩ := HashMap.exists_lookup_of_mem hmem
  obtain ⟨hw, hlive⟩ := (hswept k w).mp hw
  obtain rfl := Option.some.inj (hk.symm.trans hw)
  exact Nat.not_lt.mpr hv hlive

theorem Sweeps.len_le (hswept : Sweeps expires clock map swept)
    (hlive : ¬ SomeExpired expires clock map) : HashMap.len map ≤ HashMap.len swept := by
  refine HashMap.len_le_of_forall_mem ?_
  intro k hk
  obtain ⟨v, hv⟩ := HashMap.exists_lookup_of_mem hk
  exact HashMap.mem_of_lookup ((hswept k v).mpr ⟨hv, lt_of_not_someExpired hlive hv⟩)

/-- Who keeps the other entries of a map has at least as many. -/
theorem KeepsOthers.len_le {key : κ} {map' : HashMap κ ν} {v : ν}
    (hkeeps : KeepsOthers expires clock key map (map'.insert key v))
    (hlive : ¬ SomeExpired expires clock map) : HashMap.len map ≤ HashMap.len map' + 1 := by
  refine Nat.le_trans (HashMap.len_le_of_forall_mem ?_) (HashMap.len_insert_le map' key v)
  intro k hk
  by_cases hkey : k = key
  · exact (AList.mem_insert _).mpr (.inl hkey)
  · obtain ⟨w, hw⟩ := HashMap.exists_lookup_of_mem hk
    exact HashMap.mem_of_lookup (hkeeps k hkey w hw (lt_of_not_someExpired hlive hw))

/-- The other entries stay exactly when there is room or something to sweep. -/
theorem keepsOthers_makeRoom_iff (order : HashMap.IterOrder κ ν) (key : κ) (v : ν)
    (hswept : Sweeps expires clock map swept) (hlen : HashMap.len map ≤ maxCacheEntries) :
    KeepsOthers expires clock key map ((makeRoom order map swept).insert key v) ↔
      HashMap.len map < maxCacheEntries ∨ SomeExpired expires clock map := by
  constructor
  · intro hkeeps
    by_contra hno
    obtain ⟨hfull, hlive⟩ := not_or.mp hno
    have hfull : maxCacheEntries ≤ HashMap.len map := Nat.not_lt.mp hfull
    have hstill : maxCacheEntries ≤ HashMap.len swept :=
      Nat.le_trans hfull (hswept.len_le hlive)
    rw [makeRoom, if_pos hfull, if_pos hstill] at hkeeps
    have hle := hkeeps.len_le hlive
    have hswept := HashMap.len_le_of_forall_mem hswept.mem_of_mem
    rw [len_dropVisited] at hle
    have hcap : maxCacheEntries = 10000 := rfl
    omega
  · intro hroom k hkey w hw hclock
    rw [HashMap.lookup_insert_eq, if_neg hkey, makeRoom]
    by_cases hfull : maxCacheEntries ≤ HashMap.len map
    · have hexpired := hroom.resolve_left (Nat.not_lt.mpr hfull)
      have hfew := Nat.lt_of_lt_of_le (hswept.len_lt hexpired) hlen
      rw [if_pos hfull, if_neg (Nat.not_le.mpr hfew)]
      exact (hswept k w).mpr ⟨hw, hclock⟩
    · rwa [if_neg hfull]

/-- An entry that is seen after the insert was there before, and one that is not seen any more
was expired. -/
theorem KeepsOthers.lookup_cases {key : κ} {map' : HashMap κ ν}
    (hkeeps : KeepsOthers expires clock key map map')
    (hsub : ∀ k ≠ key, ∀ v, map'.lookup k = some v → map.lookup k = some v) {k : κ}
    (hk : k ≠ key) : map'.lookup k = map.lookup k ∨
      map'.lookup k = none ∧ ∃ v, map.lookup k = some v ∧ expires v ≤ clock k := by
  cases hnew : map'.lookup k with
  | some v => exact .inl (hsub k hk v hnew).symm
  | none =>
    cases hold : map.lookup k with
    | none => exact .inl rfl
    | some v =>
      refine .inr ⟨rfl, v, rfl, ?_⟩
      by_contra hlive
      have hkept := hkeeps k hk v hold (Nat.not_le.mp hlive)
      rw [hnew] at hkept
      cases hkept

end Eviction

namespace DnsTable

/-- The call changes nothing for the other addresses, from the time of its eviction on. -/
structure Undisturbed (table table' : DnsTable) (ip : IpAddr) (evictNow : Instant) : Prop where
  entries : KeepsOthers Prod.snd (fun _ => evictNow) ip table table'
  lookups : ∀ k ≠ ip, ∀ now, evictNow ≤ now → table'.lookup k now = table.lookup k now

theorem sweeps_retain (table : DnsTable) (evictNow : Instant) :
    Sweeps Prod.snd (fun _ => evictNow) table
      (HashMap.retain (fun _ e => decide (evictNow < e.2)) table) := by
  intro k v
  rw [HashMap.lookup_retain, Option.filter_eq_some_iff, decide_eq_true_eq]

section Insert
variable (order : HashMap.IterOrder IpAddr (String × Instant)) (table : DnsTable) (ip : IpAddr)
  (domain : String) (ttlSecs : UInt32) (now evictNow : Instant)

theorem sub_insert : ∀ k ≠ ip, ∀ e,
    AList.lookup k (table.insert order ip domain ttlSecs now evictNow) = some e →
      AList.lookup k table = some e := by
  intro k hk e h
  rw [insert_eq, HashMap.lookup_insert_eq, if_neg hk] at h
  exact sub_evict order table evictNow k e h

theorem lookup_insert_of_keeps
    (hkeeps : KeepsOthers Prod.snd (fun _ => evictNow) ip table
      (table.insert order ip domain ttlSecs now evictNow)) {k : IpAddr} (hk : k ≠ ip)
    {t : Instant} (ht : evictNow ≤ t) :
    (table.insert order ip domain ttlSecs now evictNow).lookup k t = table.lookup k t := by
  have hsub := sub_insert order table ip domain ttlSecs now evictNow
  rw [lookup, lookup]
  obtain hsame | ⟨hgone, e, he, hexpired⟩ := hkeeps.lookup_cases hsub hk
  · rw [hsame]
  · obtain ⟨name, expires⟩ := e
    rw [hgone, he]
    dsimp only
    rw [if_pos (Nat.le_trans hexpired ht)]

/-- An insert leaves the others alone exactly when the table has room or something to sweep. -/
theorem undisturbed_iff (hlen : HashMap.len table ≤ maxCacheEntries) :
    Undisturbed table (table.insert order ip domain ttlSecs now evictNow) ip evictNow ↔
      HashMap.len table < maxCacheEntries ∨ SomeExpired Prod.snd (fun _ => evictNow) table := by
  have hiff := keepsOthers_makeRoom_iff order ip
    (domain, now + fromSecs ttlSecs.toNat) (sweeps_retain table evictNow) hlen
  rw [← hiff]
  constructor
  · exact fun h => h.entries
  · exact fun h => ⟨h, fun k hk t =>
      lookup_insert_of_keeps order table ip domain ttlSecs now evictNow h hk⟩

end Insert
end DnsTable

namespace DnsCache

/-- The call changes nothing for the other keys, from the time on at which the eviction looked
at them. -/
structure Undisturbed (cache cache' : DnsCache) (key : Bytes) (clock : Bytes → Instant) :
    Prop where
  entries : KeepsOthers DnsCacheEntry.expires clock key cache cache'
  gets : ∀ k ≠ key, ∀ txId now agedNow, clock k ≤ now →
    cache'.get k txId now agedNow = cache.get k txId now agedNow

theorem mem_staleKeys {order : CacheOrder} {cache : DnsCache} {clock : Bytes → Instant}
    {k : Bytes} : k ∈ staleKeys order cache clock ↔
      ∃ entry, AList.lookup k cache = some entry ∧ entry.expires ≤ clock k := by
  simp only [staleKeys, List.mem_map, List.mem_filter, decide_eq_true_eq]
  constructor
  · rintro ⟨⟨k, entry⟩, ⟨hmem, hexpired⟩, rfl⟩
    exact ⟨entry, order.mem_visit_iff.mp hmem, hexpired⟩
  · rintro ⟨entry, hlookup, hexpired⟩
    exact ⟨(k, entry), ⟨order.mem_visit_iff.mpr hlookup, hexpired⟩, rfl⟩

theorem sweeps_staleKeys (order : CacheOrder) (cache : DnsCache) (clock : Bytes → Instant) :
    Sweeps DnsCacheEntry.expires clock cache (cache.eraseAll (staleKeys order cache clock)) := by
  intro k entry
  rw [HashMap.lookup_eraseAll]
  by_cases hstale : k ∈ staleKeys order cache clock
  · obtain ⟨found, hfound, hexpired⟩ := mem_staleKeys.mp hstale
    rw [if_pos hstale, hfound]
    constructor
    · intro h
      cases h
    · rintro ⟨h, hlive⟩
      obtain rfl := Option.some.inj h
      exact absurd hlive (Nat.not_lt.mpr hexpired)
  · rw [if_neg hstale, iff_self_and]
    intro h
    by_contra hexpired
    exact hstale (mem_staleKeys.mpr ⟨entry, h, Nat.not_lt.mp hexpired⟩)

section Put
variable (order : CacheOrder) (cache : DnsCache) (key response : Bytes) (now : Instant)
  (clock : Bytes → Instant)

theorem sub_put : ∀ k ≠ key, ∀ entry,
    AList.lookup k (cache.put order key response now clock) = some entry →
      AList.lookup k cache = some entry := by
  intro k hk entry h
  obtain ⟨hkey, _⟩ | hold := lookup_put order cache key response now clock h
  · exact absurd hkey hk
  · exact hold

theorem get_put_of_keeps
    (hkeeps : KeepsOthers DnsCacheEntry.expires clock key cache
      (cache.put order key response now clock)) {k : Bytes} (hk : k ≠ key) (txId : UInt16)
    {t : Instant} (agedNow : Instant) (ht : clock k ≤ t) :
    (cache.put order key response now clock).get k txId t agedNow =
      cache.get k txId t agedNow := by
  have hsub := sub_put order cache key response now clock
  rw [get, get]
  obtain hsame | ⟨hgone, entry, hentry, hexpired⟩ := hkeeps.lookup_cases hsub hk
  · rw [hsame]
  · rw [hgone, hentry]
    dsimp only
    rw [if_pos (Nat.le_trans hexpired ht)]

/-- A `put` leaves the others alone exactly when the cache has room or something to sweep. -/
theorem undisturbed_iff (hlen : HashMap.len cache ≤ maxCacheEntries) :
    Undisturbed cache (cache.put order key response now clock) key clock ↔
      HashMap.len cache < maxCacheEntries ∨ SomeExpired DnsCacheEntry.expires clock cache := by
  have hiff := keepsOthers_makeRoom_iff order key
    ⟨response, now, now + fromSecs (cacheTtl response).toNat⟩ (sweeps_staleKeys order cache clock)
    hlen
  rw [← hiff]
  constructor
  · exact fun h => h.entries
  · exact fun h => ⟨h, fun k hk txId t agedNow =>
      get_put_of_keeps order cache key response now clock h hk txId agedNow⟩

end Put

theorem len_after (calls : List PutCall) : HashMap.len (after calls) ≤ maxCacheEntries := by
  induction calls using List.reverseRecOn with
  | nil => exact Nat.zero_le _
  | append_singleton calls c ih =>
    rw [after_snoc]
    exact len_put c.order _ c.key c.response c.now c.clock ih

end DnsCache

/-- Whatever calls led to the table or the cache, and whatever the eviction chooses: an insert,
of a key that is present too, leaves all others as they are exactly when there are less than
10,000 entries or one of them is expired. -/
theorem refresh_undisturbed_iff :
    (∀ (calls : List DnsTable.Call) (ip : IpAddr) (domain : String) (ttlSecs : UInt32)
      (now evictNow : Instant) (order : HashMap.IterOrder IpAddr (String × Instant)),
      DnsTable.Undisturbed (DnsTable.after calls)
          ((DnsTable.after calls).insert order ip domain ttlSecs now evictNow) ip evictNow ↔
        HashMap.len (DnsTable.after calls) < maxCacheEntries ∨
          SomeExpired Prod.snd (fun _ => evictNow) (DnsTable.after calls)) ∧
    ∀ (calls : List DnsCache.PutCall) (key response : Bytes) (now : Instant)
      (clock : Bytes → Instant) (order : CacheOrder),
      DnsCache.Undisturbed (DnsCache.after calls)
          ((DnsCache.after calls).put order key response now clock) key clock ↔
        HashMap.len (DnsCache.after calls) < maxCacheEntries ∨
          SomeExpired DnsCacheEntry.expires clock (DnsCache.after calls) := by
  constructor
  · intro calls ip domain ttlSecs now evictNow order
    exact DnsTable.undisturbed_iff order _ ip domain ttlSecs now evictNow
      (DnsTable.len_after calls)
  · intro calls key response now clock order
    exact DnsCache.undisturbed_iff order _ key response now clock (DnsCache.len_after calls)

/-- The `i`-th of the addresses from 10.0.0.0 on. -/
def sampleAddr (i : ℕ) : IpAddr := .v4 (.new 10 0 (UInt8.ofNat (i / 256)) (UInt8.ofNat i))

/-- `n` addresses that enter the table when the clock starts. -/
def tableCalls (n : ℕ) : List DnsTable.Call :=
  (List.range n).map (fun i => .insert (sampleAddr i) "a" 300 0 0 .stored)

/-- `n` queries whose answers enter the cache when the clock starts. -/
def cacheCalls (n : ℕ) : List DnsCache.PutCall :=
  (List.range n).map (fun i => ⟨u16ToBeBytes (UInt16.ofNat i), [], 0, fun _ => 0, .stored⟩)

theorem sampleAddr_injective {i j : ℕ} (hi : i < 10000) (hj : j < 10000)
    (h : sampleAddr i = sampleAddr j) : i = j := by
  have hoctets := Ipv4Addr.mk.inj (IpAddr.v4.inj h)
  have hlist := congrArg Vector.toList hoctets
  simp only [Vector.toList_mk, List.cons.injEq, and_true, true_and] at hlist
  have hhi := congrArg UInt8.toNat hlist.1
  have hlo := congrArg UInt8.toNat hlist.2
  rw [UInt8.toNat_ofNat', UInt8.toNat_ofNat'] at hhi hlo
  omega

theorem sampleKey_injective {i j : ℕ} (hi : i < 10000) (hj : j < 10000)
    (h : u16ToBeBytes (UInt16.ofNat i) = u16ToBeBytes (UInt16.ofNat j)) : i = j := by
  have hread : UInt16.ofNat i = UInt16.ofNat j := by
    rw [← u16FromBeBytes_u16ToBeBytes (UInt16.ofNat i),
      ← u16FromBeBytes_u16ToBeBytes (UInt16.ofNat j)]
    obtain ⟨hhi, hlo⟩ := List.cons.inj h
    rw [hhi, (List.cons.inj hlo).1]
  have hnat := congrArg UInt16.toNat hread
  simp only [UInt16.toNat_ofNat'] at hnat
  omega

theorem after_tableCalls {n : ℕ} (hn : n ≤ 10000) :
    DnsTable.after (tableCalls n) = HashMap.filled sampleAddr ("a", fromSecs 300) n := by
  induction n with
  | zero => rfl
  | succ n ih =>
    have hlen : HashMap.len (HashMap.filled sampleAddr ("a", fromSecs 300) n) = n :=
      HashMap.len_filled fun i hi j hj => sampleAddr_injective (by omega) (by omega)
    have hroom : HashMap.len (DnsTable.after (tableCalls n)) < maxCacheEntries := by
      rw [ih (by omega), hlen]
      exact hn
    rw [tableCalls, List.range_succ, List.map_append, List.map_singleton, DnsTable.after_snoc,
      DnsTable.Call.run, DnsTable.insert_eq]
    change AList.insert _ _ (DnsTable.evict .stored (DnsTable.after (tableCalls n)) 0) = _
    rw [DnsTable.evict_of_room _ _ _ hroom, ih (by omega)]
    rfl

theorem after_cacheCalls {n : ℕ} (hn : n ≤ 10000) :
    DnsCache.after (cacheCalls n) =
      HashMap.filled (fun i => u16ToBeBytes (UInt16.ofNat i)) ⟨[], 0, fromSecs 30⟩ n := by
  induction n with
  | zero => rfl
  | succ n ih =>
    have hlen : HashMap.len (HashMap.filled (fun i => u16ToBeBytes (UInt16.ofNat i))
        (⟨[], 0, fromSecs 30⟩ : DnsCacheEntry) n) = n :=
      HashMap.len_filled fun i hi j hj => sampleKey_injective (by omega) (by omega)
    have hroom : HashMap.len (DnsCache.after (cacheCalls n)) < maxCacheEntries := by
      rw [ih (by omega), hlen]
      exact hn
    have hevict : DnsCache.evict .stored (DnsCache.after (cacheCalls n)) (fun _ => 0) =
        DnsCache.after (cacheCalls n) := if_neg (Nat.not_le.mpr hroom)
    rw [cacheCalls, List.range_succ, List.map_append, List.map_singleton, DnsCache.after_snoc,
      DnsCache.PutCall.run, DnsCache.put]
    change AList.insert _ _ (DnsCache.evict .stored (DnsCache.after (cacheCalls n)) _) = _
    rw [hevict, ih (by omega), show (cacheTtl []).toNat = 30 from by decide, Nat.zero_add,
      HashMap.filled]

/-- With 10,000 live entries, an insert of one that is present drops others. -/
theorem not_undisturbed_full :
    sampleAddr 0 ∈ DnsTable.after (tableCalls 10000) ∧
    ¬ DnsTable.Undisturbed (DnsTable.after (tableCalls 10000))
      ((DnsTable.after (tableCalls 10000)).insert .stored (sampleAddr 0) "a" 300 0 0)
        (sampleAddr 0) 0 ∧
    [0, 0] ∈ DnsCache.after (cacheCalls 10000) ∧
    ¬ DnsCache.Undisturbed (DnsCache.after (cacheCalls 10000))
      ((DnsCache.after (cacheCalls 10000)).put .stored [0, 0] [] 0 fun _ => 0) [0, 0]
        fun _ => 0 := by
  have htable := after_tableCalls (Nat.le_refl 10000)
  have hcache := after_cacheCalls (Nat.le_refl 10000)
  refine ⟨?_, ?_, ?_, ?_⟩
  · rw [htable]
    exact HashMap.mem_filled.mpr ⟨0, by decide, rfl⟩
  · rw [DnsTable.undisturbed_iff _ _ _ _ _ _ _ (DnsTable.len_after _), htable,
      HashMap.len_filled fun i hi j hj => sampleAddr_injective hi hj]
    rintro (hroom | ⟨k, e, he, hexpired⟩)
    · exact absurd hroom (by decide)
    · rw [HashMap.eq_of_lookup_filled he] at hexpired
      have hlive : ¬ fromSecs 300 ≤ 0 := by decide
      exact hlive hexpired
  · rw [hcache]
    exact HashMap.mem_filled.mpr ⟨0, by decide, rfl⟩
  · rw [DnsCache.undisturbed_iff _ _ _ _ _ _ (DnsCache.len_after _), hcache,
      HashMap.len_filled fun i hi j hj => sampleKey_injective hi hj]
    rintro (hroom | ⟨k, e, he, hexpired⟩)
    · exact absurd hroom (by decide)
    · rw [HashMap.eq_of_lookup_filled he] at hexpired
      have hlive : ¬ fromSecs 30 ≤ 0 := by decide
      exact hlive hexpired

end TransProxy.Dns
