import TransProxy.Dns.Pending

/-!
# Which pending queries an insert keeps

The queries that are not expired stay, up to one less than the cap, and it is the oldest that
go. The new query takes an identifier that none of them has, so the cap holds for ever.
-/
namespace TransProxy.Dns
open Library Net

section Evict
variable (order : PendingOrder)

theorem exists_oldest {map : PendingMap} (h : maxPendingQueries ≤ HashMap.len map) :
    ∃ oldest, (order.visit map).argmin (fun e => e.2.created) = some oldest := by
  rw [← Option.isSome_iff_exists, Option.isSome_iff_ne_none, ne_eq, List.argmin_eq_none]
  intro hnil
  have hlen := order.length_visit map
  have hcap : maxPendingQueries = 4096 := rfl
  rw [hnil, List.length_nil] at hlen
  omega

/-- Eviction leaves one less than the cap, or all. -/
theorem len_evictOldest (map : PendingMap) :
    HashMap.len (evictOldest order map).1 = min (HashMap.len map) 4095 := by
  have hcap : maxPendingQueries = 4096 := rfl
  fun_induction evictOldest order map with
  | case1 map hfull hnone =>
    obtain ⟨oldest, holdest⟩ := exists_oldest order hfull
    rw [hnone] at holdest
    cases holdest
  | case2 map hfull oldest holdest ih =>
    have hmem := order.mem_of_mem_visit (List.argmin_mem holdest)
    have hlen := HashMap.len_erase_of_mem hmem
    rw [ih]
    omega
  | case3 map hroom =>
    rw [min_eq_left]
    omega

/-- What is evicted is no younger than what stays. -/
theorem evictOldest_oldest (map : PendingMap) {id : UInt16} {p : PendingQuery}
    (hp : map.lookup id = some p) (hgone : (evictOldest order map).1.lookup id = none)
    {id' : UInt16} {p' : PendingQuery}
    (hstays : (evictOldest order map).1.lookup id' = some p') : p.created ≤ p'.created := by
  fun_induction evictOldest order map with
  | case1 map hfull hnone =>
    rw [hp] at hgone
    cases hgone
  | case2 map hfull oldest holdest ih =>
    by_cases hid : id = oldest.1
    · -- the entry is the oldest of the map that the other one is in
      subst hid
      have hsame : p = oldest.2 :=
        Option.some.inj (hp.symm.trans (order.mem_visit_iff.mp (List.argmin_mem holdest)))
      have hkept := evictOldest_lookup order _ id' p' hstays
      have hmem := HashMap.sub_erase map oldest.1 id' p' hkept
      rw [hsame]
      exact List.le_of_mem_argmin (f := fun e : UInt16 × PendingQuery => e.2.created)
        (order.mem_visit_iff.mpr hmem) holdest
    · refine ih ?_ hgone hstays
      rw [HashMap.lookup_erase_eq, if_neg hid]
      exact hp
  | case3 map hroom =>
    rw [hp] at hgone
    cases hgone

end Evict

def PendingQuery.Live (p : PendingQuery) (now : Instant) : Prop :=
  now - p.created < pendingQueryTtl

theorem lookup_sweepExpired {map : PendingMap} {now : Instant} {id : UInt16} {p : PendingQuery} :
    (sweepExpired map now).lookup id = some p ↔ map.lookup id = some p ∧ p.Live now := by
  rw [sweepExpired, HashMap.lookup_retain, Option.filter_eq_some_iff, decide_eq_true_eq]
  rfl

/-- The survivors of an insert: live queries, all of them if there is room, and else the newest
of them, one less than the cap. -/
structure Newest (map : PendingMap) (now : Instant) (survivors : PendingMap) : Prop where
  live : ∀ id p, survivors.lookup id = some p → map.lookup id = some p ∧ p.Live now
  len : HashMap.len survivors = min (HashMap.len (sweepExpired map now)) 4095
  oldest : ∀ id p, map.lookup id = some p → p.Live now → survivors.lookup id = none →
    ∀ id' p', survivors.lookup id' = some p' → p.created ≤ p'.created

theorem newest_pendingSurvivors (order : PendingOrder) (map : PendingMap) (now : Instant) :
    Newest map now (pendingSurvivors order map now) where
  live id p h := lookup_sweepExpired.mp (evictOldest_lookup order _ id p h)
  len := len_evictOldest order _
  oldest _ _ hp hlive hgone _ _ hstays :=
    evictOldest_oldest order _ (lookup_sweepExpired.mpr ⟨hp, hlive⟩) hgone hstays

inductive PendingCall where
  | insert (entry : PendingQuery) (now : Instant) (order : PendingOrder) (draws : ℕ → UInt16)
  | takeMatch (txId : UInt16) (respName : String) (respQtype : UInt16)

def PendingCall.run (map : PendingMap) : PendingCall → PendingMap
  | .insert entry now order draws => (pendingInsert map entry now order draws).2
  | .takeMatch txId respName respQtype =>
    match pendingTakeMatch map txId respName respQtype with
    | none => map
    | some (_, map) => map

theorem len_pendingInsert_le (map : PendingMap) (entry : PendingQuery) (now : Instant)
    (order : PendingOrder) (draws : ℕ → UInt16) :
    HashMap.len (pendingInsert map entry now order draws).2 ≤ 4096 := by
  have hlen := (newest_pendingSurvivors order map now).len
  cases hinsert : pendingInsert map entry now order draws with
  | mk drawn map' =>
    cases drawn with
    | none =>
      rw [pendingInsert_none hinsert]
      dsimp only
      omega
    | some id =>
      obtain ⟨_, rfl⟩ := pendingInsert_some hinsert
      have hle := HashMap.len_insert_le (pendingSurvivors order map now) id entry
      dsimp only
      omega

theorem PendingCall.len_run_le (call : PendingCall) {map : PendingMap}
    (h : HashMap.len map ≤ 4096) : HashMap.len (call.run map) ≤ 4096 := by
  cases call with
  | insert entry now order draws => exact len_pendingInsert_le map entry now order draws
  | takeMatch txId respName respQtype =>
    rw [PendingCall.run]
    cases htake : pendingTakeMatch map txId respName respQtype with
    | none => exact h
    | some taken =>
      obtain ⟨entry, map'⟩ := taken
      obtain ⟨_, rfl, _⟩ := pendingTakeMatch_eq_some_iff.mp htake
      have hle := HashMap.len_eraseAll_le map [txId]
      exact Nat.le_trans hle h

/-- For every map and every draw an insert leaves the newest live queries, and those with the
new one under an unused identifier if it found one; no run of calls exceeds the cap. -/
theorem pendingInsert_keeps_newest :
    (∀ (map : PendingMap) (entry : PendingQuery) (now : Instant) (order : PendingOrder)
      (draws : ℕ → UInt16), ∃ survivors, Newest map now survivors ∧
        (∀ id map', pendingInsert map entry now order draws = (some id, map') →
          id ∉ survivors ∧ map' = survivors.insert id entry) ∧
        ∀ map', pendingInsert map entry now order draws = (none, map') → map' = survivors) ∧
    ∀ calls : List PendingCall, HashMap.len (calls.foldl PendingCall.run ∅) ≤ 4096 := by
  refine ⟨?_, ?_⟩
  · intro map entry now order draws
    exact ⟨_, newest_pendingSurvivors order map now, fun _ _ => pendingInsert_some,
      fun _ => pendingInsert_none⟩
  · intro calls
    have hrun : ∀ map : PendingMap, HashMap.len map ≤ 4096 →
        HashMap.len (calls.foldl PendingCall.run map) ≤ 4096 := by
      induction calls with
      | nil => exact fun _ h => h
      | cons call calls ih => exact fun map h => ih _ (call.len_run_le h)
    exact hrun ∅ (Nat.zero_le _)

end TransProxy.Dns
