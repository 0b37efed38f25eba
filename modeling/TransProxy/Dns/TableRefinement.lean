import TransProxy.Library.LastWrite
import TransProxy.Dns.Table

/-!
# The table refines the map of all inserts

Whatever eviction drops, the table answers with the last insert for an address or
not at all, and it always has room.
-/
namespace TransProxy.Dns
open Library Net

section Eviction
variable {κ ν : Type*} [DecidableEq κ] (order : HashMap.IterOrder κ ν) (n : ℕ) (map : HashMap κ ν)

theorem dropVisited_eq :
    dropVisited order n map = map.eraseAll (((order.visit map).take n).map Prod.fst) := by
  rw [dropVisited, HashMap.eraseAll, List.foldl_map]

theorem sub_dropVisited : HashMap.Sub (dropVisited order n map) map := by
  rw [dropVisited_eq]
  exact HashMap.sub_eraseAll map _

theorem len_dropVisited : HashMap.len (dropVisited order n map) = map.len - n := by
  rw [dropVisited_eq]
  exact order.len_eraseAll_take map n

end Eviction

namespace DnsTable

/-- What an insert leaves of the earlier entries. -/
def evict (order : HashMap.IterOrder IpAddr (String × Instant)) (table : DnsTable)
    (evictNow : Instant) : DnsTable :=
  if maxCacheEntries ≤ HashMap.len table then
    let map := HashMap.retain (fun _ e => decide (evictNow < e.2)) table
    if maxCacheEntries ≤ HashMap.len map then dropVisited order (maxCacheEntries / 2) map else map
  else table

section Insert
variable (order : HashMap.IterOrder IpAddr (String × Instant)) (table : DnsTable) (ip : IpAddr)
  (domain : String) (ttlSecs : UInt32) (now evictNow : Instant)

theorem insert_eq : table.insert order ip domain ttlSecs now evictNow =
    AList.insert ip (domain, now + fromSecs ttlSecs.toNat) (table.evict order evictNow) := rfl

theorem sub_evict : HashMap.Sub (table.evict order evictNow) table := by
  dsimp only [evict]
  split_ifs
  · exact (sub_dropVisited order _ _).trans (HashMap.sub_retain _ table)
  · exact HashMap.sub_retain _ table
  · rfl

theorem evict_of_room (h : HashMap.len table < maxCacheEntries) :
    table.evict order evictNow = table := by
  rw [evict, if_neg (by omega)]

/-- There is room for one more entry after an eviction. -/
theorem len_evict (h : HashMap.len table ≤ maxCacheEntries) :
    HashMap.len (table.evict order evictNow) < maxCacheEntries := by
  have hretain := HashMap.len_retain_le (fun _ (e : String × Instant) => decide (evictNow < e.2)) table
  dsimp only [evict]
  split_ifs with hfull hstill
  · rw [len_dropVisited]
    have hcap : maxCacheEntries = 10000 := rfl
    omega
  · omega
  · omega

theorem len_insert (h : HashMap.len table ≤ maxCacheEntries) :
    HashMap.len (table.insert order ip domain ttlSecs now evictNow) ≤ maxCacheEntries := by
  rw [insert_eq]
  exact Nat.le_trans (HashMap.len_insert_le _ ip _) (len_evict order table evictNow h)

end Insert

/-- A call on the table, with its clock readings and the order eviction goes by. -/
inductive Call where
  | insert (ip : IpAddr) (domain : String) (ttlSecs : UInt32) (now evictNow : Instant)
      (order : HashMap.IterOrder IpAddr (String × Instant))
  | lookup (ip : IpAddr) (now : Instant)

def Call.run (table : DnsTable) : Call → DnsTable
  | .insert ip domain ttlSecs now evictNow order =>
    table.insert order ip domain ttlSecs now evictNow
  | .lookup _ _ => table

def after (calls : List Call) : DnsTable := calls.foldl Call.run ∅

def Call.write : Call → Option (Write IpAddr String)
  | .insert ip domain ttlSecs now _ _ => some ⟨ip, domain, now, fromSecs ttlSecs.toNat⟩
  | .lookup _ _ => none

def inserts (calls : List Call) : List (Write IpAddr String) := calls.filterMap Call.write

theorem after_snoc (calls : List Call) (call : Call) :
    after (calls ++ [call]) = call.run (after calls) := by
  simp [after]

theorem inserts_snoc_insert (calls : List Call) (ip : IpAddr) (domain : String) (ttlSecs : UInt32)
    (now evictNow : Instant) (order : HashMap.IterOrder IpAddr (String × Instant)) :
    inserts (calls ++ [.insert ip domain ttlSecs now evictNow order]) =
      inserts calls ++ [⟨ip, domain, now, fromSecs ttlSecs.toNat⟩] := by
  simp [inserts, Call.write]

theorem inserts_snoc_lookup (calls : List Call) (ip : IpAddr) (now : Instant) :
    inserts (calls ++ [.lookup ip now]) = inserts calls := by
  simp [inserts, Call.write]

theorem len_after (calls : List Call) : HashMap.len (after calls) ≤ maxCacheEntries := by
  induction calls using List.reverseRecOn with
  | nil => exact Nat.zero_le _
  | append_singleton calls call ih =>
    rw [after_snoc]
    cases call with
    | insert ip domain ttlSecs now evictNow order => exact len_insert order _ ip domain _ now _ ih
    | lookup ip now => exact ih

theorem refines_after (calls : List Call) : Write.Refines (inserts calls) (after calls) := by
  induction calls using List.reverseRecOn with
  | nil => exact Write.refines_empty
  | append_singleton calls call ih =>
    rw [after_snoc]
    cases call with
    | insert ip domain ttlSecs now evictNow order =>
      rw [inserts_snoc_insert]
      exact ih.insert (sub_evict order _ evictNow) ⟨ip, domain, now, fromSecs ttlSecs.toNat⟩
    | lookup ip now =>
      rw [inserts_snoc_lookup]
      exact ih

/-- Nothing is forgotten as long as there are fewer addresses than the table holds. -/
theorem complete_after {calls : List Call}
    (hfew : (Write.keys (inserts calls)).card < maxCacheEntries) :
    Write.Complete (inserts calls) (after calls) := by
  induction calls using List.reverseRecOn with
  | nil => exact Write.complete_empty
  | append_singleton calls call ih =>
    rw [after_snoc]
    cases call with
    | insert ip domain ttlSecs now evictNow order =>
      rw [inserts_snoc_insert] at hfew ⊢
      have hbefore : (Write.keys (inserts calls)).card < maxCacheEntries :=
        Nat.lt_of_le_of_lt (Finset.card_le_card (Write.keys_subset_snoc _ _)) hfew
      have hroom := Nat.lt_of_le_of_lt (refines_after calls).len_le hbefore
      rw [Call.run, insert_eq, evict_of_room order _ evictNow hroom]
      exact (ih hbefore).insert ⟨ip, domain, now, fromSecs ttlSecs.toNat⟩
    | lookup ip now =>
      rw [inserts_snoc_lookup] at hfew ⊢
      exact ih hfew

theorem lookup_eq (table : DnsTable) (ip : IpAddr) (now : Instant) :
    table.lookup ip now =
      ((AList.lookup ip table).filter (fun e => decide (now < e.2))).map Prod.fst := by
  unfold lookup
  cases h : AList.lookup ip table with
  | none => rfl
  | some e =>
    obtain ⟨domain, expires⟩ := e
    by_cases hexp : expires ≤ now
    · simp [Option.filter, hexp, Nat.not_lt.mpr hexp]
    · simp [Option.filter, hexp, Nat.lt_of_not_le hexp]

/-- For all calls, clock readings and choices of the eviction: the table is bounded, it
answers with the last insert for the address while that has not expired, or with
nothing, and never with nothing when fewer addresses were inserted than it holds. -/
theorem after_refines (calls : List Call) :
    HashMap.len (after calls) ≤ maxCacheEntries ∧
    (∀ ip t domain, (after calls).lookup ip t = some domain →
      ∃ w, Write.last (inserts calls) ip = some w ∧ w.value = domain ∧ t < w.time + w.lifetime) ∧
    ((Write.keys (inserts calls)).card < maxCacheEntries →
      ∀ ip t, (after calls).lookup ip t = Write.read (inserts calls) ip t) := by
  refine ⟨len_after calls, ?_, ?_⟩
  · intro ip t domain h
    rw [lookup_eq, Option.map_eq_some_iff] at h
    obtain ⟨e, he, rfl⟩ := h
    rw [Option.filter_eq_some_iff, decide_eq_true_eq] at he
    obtain ⟨w, hw, rfl⟩ := refines_after calls ip e he.1
    exact ⟨w, hw, rfl, he.2⟩
  · intro hfew ip t
    rw [lookup_eq, Write.Complete.read_eq (refines_after calls) (complete_after hfew)]

end DnsTable
end TransProxy.Dns
