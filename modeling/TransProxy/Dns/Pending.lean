import Mathlib.Data.List.MinMax
import TransProxy.Library.HashMap
import TransProxy.Dns.Wire

/-!
# The map of pending upstream queries

`pending_insert` sweeps what expired, evicts the oldest entries until there is
room, and draws identifiers until one is free. The draws and the order in which
the map is visited are arguments.
-/
namespace TransProxy.Dns
open Library Net

def pendingQueryTtl : ℕ := fromSecs 5
def maxPendingQueries : ℕ := 4096

structure PendingQuery where
  clientAddr : SocketAddr
  clientTxId : UInt16
  name : String
  qtype : UInt16
  created : Instant
deriving DecidableEq

/-- Pending queries by the transaction ID drawn for the upstream query. -/
abbrev PendingMap := HashMap UInt16 PendingQuery

abbrev PendingOrder := HashMap.IterOrder UInt16 PendingQuery

/-- Drop the entries whose answer never came. -/
def sweepExpired (map : PendingMap) (now : Instant) : PendingMap :=
  HashMap.retain (fun _ p => decide (now - p.created < pendingQueryTtl)) map

/-- Evict the oldest entries until the map is below its cap. The flag is false when
the search for the oldest entry comes back empty, which ends `pending_insert`. -/
def evictOldest (order : PendingOrder) (map : PendingMap) : PendingMap × Bool :=
  if maxPendingQueries ≤ HashMap.len map then
    match _hmin : (order.visit map).argmin (fun e => e.2.created) with
    | none => (map, false)
    | some oldest => evictOldest order (map.erase oldest.1)
  else (map, true)
termination_by HashMap.len map
decreasing_by
  have hmem : oldest ∈ order.visit map := List.argmin_mem _hmin
  have hkey : oldest.1 ∈ map := by
    rw [← AList.lookup_isSome, order.mem_visit_iff.mp hmem]
    rfl
  have hlen := HashMap.len_erase_of_mem hkey
  omega

/-- The map that the new entry is inserted into. -/
def pendingSurvivors (order : PendingOrder) (map : PendingMap) (now : Instant) : PendingMap :=
  (evictOldest order (sweepExpired map now)).1

/-- The first of the 64 draws that is not in use. -/
def freeId (map : PendingMap) (draws : ℕ → UInt16) : Option UInt16 :=
  ((List.range 64).map draws).find? (fun id => decide (id ∉ map))

def pendingInsert (map : PendingMap) (entry : PendingQuery) (now : Instant) (order : PendingOrder)
    (draws : ℕ → UInt16) : Option UInt16 × PendingMap :=
  match evictOldest order (sweepExpired map now) with
  | (map, false) => (none, map)
  | (map, true) =>
    match freeId map draws with
    | none => (none, map)
    | some id => (some id, map.insert id entry)

/-- The entry for the response and the map without it; no result leaves the map as it is. -/
def pendingTakeMatch (map : PendingMap) (txId : UInt16) (respName : String) (respQtype : UInt16) :
    Option (PendingQuery × PendingMap) :=
  match map.lookup txId with
  | none => none
  | some entry =>
    if !eqIgnoreAsciiCase (strBytes entry.name) (strBytes respName) ∨ entry.qtype ≠ respQtype then
      none
    else some (entry, map.erase txId)

/-- Eviction removes entries and touches no other. -/
theorem evictOldest_lookup (order : PendingOrder) (map : PendingMap) (id : UInt16)
    (p : PendingQuery) (h : (evictOldest order map).1.lookup id = some p) :
    map.lookup id = some p := by
  fun_induction evictOldest order map with
  | case1 map hfull hnone => exact h
  | case2 map hfull oldest holdest ih =>
    have herase := ih h
    rw [HashMap.lookup_erase_eq] at herase
    split_ifs at herase
    exact herase
  | case3 map hroom => exact h

theorem pendingSurvivors_lookup {order : PendingOrder} {map : PendingMap} {now : Instant}
    {id : UInt16} {p : PendingQuery} (h : (pendingSurvivors order map now).lookup id = some p) :
    map.lookup id = some p := by
  have hswept := evictOldest_lookup order _ id p h
  rw [sweepExpired, HashMap.lookup_retain, Option.filter_eq_some_iff] at hswept
  exact hswept.1

theorem pendingInsert_none {map : PendingMap} {entry : PendingQuery} {now : Instant}
    {order : PendingOrder} {draws : ℕ → UInt16} {map' : PendingMap}
    (h : pendingInsert map entry now order draws = (none, map')) :
    map' = pendingSurvivors order map now := by
  unfold pendingInsert at h
  unfold pendingSurvivors
  cases hevict : evictOldest order (sweepExpired map now) with
  | mk left done =>
    cases done with
    | false => simp_all
    | true =>
      cases hfree : freeId left draws <;> simp_all

/-- A query is inserted among the survivors under an identifier none of them uses. -/
theorem pendingInsert_some {map : PendingMap} {entry : PendingQuery} {now : Instant}
    {order : PendingOrder} {draws : ℕ → UInt16} {map' : PendingMap} {id : UInt16}
    (h : pendingInsert map entry now order draws = (some id, map')) :
    id ∉ pendingSurvivors order map now ∧
      map' = (pendingSurvivors order map now).insert id entry := by
  unfold pendingInsert at h
  unfold pendingSurvivors
  cases hevict : evictOldest order (sweepExpired map now) with
  | mk left done =>
    cases done with
    | false => simp_all
    | true =>
      cases hfree : freeId left draws with
      | none => simp_all
      | some free =>
        simp only [hevict, hfree, Prod.mk.injEq, Option.some.injEq] at h
        obtain ⟨rfl, rfl⟩ := h
        have hvacant := List.find?_some hfree
        exact ⟨by simpa using hvacant, rfl⟩

/-- An entry is taken only under its own identifier, for its own name and type. -/
theorem pendingTakeMatch_eq_some_iff {map : PendingMap} {txId : UInt16} {respName : String}
    {respQtype : UInt16} {entry : PendingQuery} {map' : PendingMap} :
    pendingTakeMatch map txId respName respQtype = some (entry, map') ↔
      map.lookup txId = some entry ∧ map' = map.erase txId ∧
        eqIgnoreAsciiCase (strBytes entry.name) (strBytes respName) = true ∧
        entry.qtype = respQtype := by
  unfold pendingTakeMatch
  cases hlookup : map.lookup txId with
  | none => simp
  | some found =>
    by_cases hname : eqIgnoreAsciiCase (strBytes found.name) (strBytes respName) = true <;>
      by_cases htype : found.qtype = respQtype <;>
        simp [hname, htype] <;> grind

end TransProxy.Dns
