import TransProxy.Library.HashMap
import TransProxy.Dns.Wire

/-!
# The IP-to-domain table

Each clock reading of the source is an argument of its own, and so is the order
in which the table visits its keys when it drops half of them.
-/
namespace TransProxy.Dns
open Library Net

def maxCacheEntries : ℕ := 10000

def tableTtlFloor : UInt32 := 300
def tableTtlCeil : UInt32 := 86400

/-- Domain and expiry of each address. -/
abbrev DnsTable := HashMap IpAddr (String × Instant)

/-- Remove the first `n` keys that the iteration visits. -/
def dropVisited {κ ν : Type*} [DecidableEq κ] (order : HashMap.IterOrder κ ν) (n : ℕ)
    (map : HashMap κ ν) : HashMap κ ν :=
  ((order.visit map).take n).foldl (fun map e => map.erase e.1) map

namespace DnsTable

def lookup (table : DnsTable) (ip : IpAddr) (now : Instant) : Option String :=
  match AList.lookup ip table with
  | none => none
  | some (domain, expires) => if expires ≤ now then none else some domain

/-- `insert` reads the clock once for the expiry and once more for the eviction. -/
def insert (order : HashMap.IterOrder IpAddr (String × Instant)) (table : DnsTable) (ip : IpAddr)
    (domain : String) (ttlSecs : UInt32) (now evictNow : Instant) : DnsTable :=
  let expires := now + fromSecs ttlSecs.toNat
  let map :=
    if maxCacheEntries ≤ HashMap.len table then
      let map := HashMap.retain (fun _ e => decide (evictNow < e.2)) table
      if maxCacheEntries ≤ HashMap.len map then dropVisited order (maxCacheEntries / 2) map else map
    else table
  AList.insert ip (domain, expires) map

end DnsTable

/-- `clamp` of a 32-bit integer. -/
theorem toNat_clamp (lo hi ttl : UInt32) (h : lo.toNat ≤ hi.toNat) :
    (if ttl < lo then lo else if hi < ttl then hi else ttl).toNat =
      max lo.toNat (min hi.toNat ttl.toNat) := by
  simp only [UInt32.lt_iff_toNat_lt]
  split_ifs <;> omega

/-- The minimum answer TTL, clamped; the floor when there is none. -/
def tableTtl (response : Bytes) : UInt32 :=
  let ttl := (extractMinTtl response).getD tableTtlFloor
  if ttl < tableTtlFloor then tableTtlFloor
  else if tableTtlCeil < ttl then tableTtlCeil
  else ttl

theorem toNat_tableTtl (response : Bytes) : (tableTtl response).toNat =
    max 300 (min 86400 ((extractMinTtl response).getD 300).toNat) :=
  toNat_clamp tableTtlFloor tableTtlCeil _ (by decide)

end TransProxy.Dns
