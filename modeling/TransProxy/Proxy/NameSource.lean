import TransProxy.Dns.Resolutions
import TransProxy.Proxy.Hostname

/-!
# Where the name in a request comes from

A connection meets the table that the forwarder has at that moment. The name that the upstream
proxy is asked for was in the ClientHello, or the DNS upstream gave the address of the
destination for it.
-/
namespace TransProxy.Proxy
open Library Net Tunnel Dns Dns.Forwarder

/-- The row was heard under the name, which has not expired. -/
def NamedBy (heard : List Exchange) (rows : List Resolution) (ip : IpAddr) (now : Instant)
    (name : String) : Prop :=
  ∃ r, lastRow rows ip = some r ∧ r.name = name ∧
    now < r.now + fromSecs (tableTtl r.response).toNat ∧
      ∃ x ∈ heard, parseQueryName x.question = some name ∧ ip ∈ (parseIpRecords x.answer).getD []

theorem ne_empty_of_isSafeProxyHostname {h : String} (hsafe : isSafeProxyHostname h = true) :
    h ≠ "" := by
  rintro rfl
  exact absurd hsafe (by decide)

theorem parseQueryName_of_name {r : Resolution} {name : String} (hname : r.name = name)
    (hne : name ≠ "") : parseQueryName r.packet = some name := by
  rw [Resolution.name] at hname
  cases hparse : parseQueryName r.packet with
  | none =>
    rw [hparse, Option.getD_none] at hname
    exact absurd hname.symm hne
  | some found => rw [← hname, hparse, Option.getD_some]

section Run
variable {upstream : DnsUpstream} {stripAaaa : Bool} {acts : List Forwarder.Action}
  {s : Forwarder.State}

/-- A usable name of the table is one that the DNS upstream gave the address for. -/
theorem namedBy_of_lookup (hrun : (Forwarder.system upstream stripAaaa).run acts = some s)
    {ip : IpAddr} {now : Instant} {name : String} (hlookup : s.table.lookup ip now = some name)
    (hsafe : isSafeProxyHostname name = true) :
    NamedBy (exchanges upstream stripAaaa acts) (resolutions upstream stripAaaa acts) ip now
      name := by
  obtain ⟨r, hlast, rfl, hname, hfresh, x, hx, hquestion, hip, _⟩ :=
    (lookup_of_run hrun).1 ip now name hlookup
  have hparse := parseQueryName_of_name hname (ne_empty_of_isSafeProxyHostname hsafe)
  exact ⟨r, hlast, hname, hfresh, x, hx, hquestion.trans hparse, hip⟩

/-- In every run of the forwarder and for every connection: the request has the address of the
destination, or the hostname of the ClientHello, or without one the last name that the DNS
upstream gave this address for, while that lasts; and it has that name if the table never had to
forget any. -/
theorem request_of_run (hrun : (Forwarder.system upstream stripAaaa).run acts = some s)
    {config : Config} {kernel : Kernel} {localAddr dest : SocketAddr} {proxy : UpstreamProxy}
    (hdest : getOriginalDest kernel localAddr config.listenAddr = .ok dest)
    (hproxy : config.upstreamProxy = some proxy) (sni : SniOutcome) (now : Instant) :
    ∃ call, handleConnection config kernel localAddr sni s.table now = .ok call ∧
      (∀ request, call.Sends request →
        request = RequestHost.address.request dest proxy.protocol ∨
        ∃ name, isSafeProxyHostname name = true ∧
          request = (RequestHost.name name).request dest proxy.protocol ∧
            (sniHostname config dest sni = some name ∨ sniHostname config dest sni = none ∧
              NamedBy (exchanges upstream stripAaaa acts) (resolutions upstream stripAaaa acts)
                dest.ip now name)) ∧
      (((resolutions upstream stripAaaa acts).map Resolution.ip).toFinset.card < maxCacheEntries →
        sniHostname config dest sni = none → ∀ name, isSafeProxyHostname name = true →
          NamedBy (exchanges upstream stripAaaa acts) (resolutions upstream stripAaaa acts)
            dest.ip now name →
          ∀ request, call.Sends request →
            request = (RequestHost.name name).request dest proxy.protocol) := by
  refine ⟨⟨proxy, dest, hostnameFor config dest sni s.table now⟩, ?_, ?_, ?_⟩
  · simp only [handleConnection, hdest, hproxy]
    rfl
  · intro request hsends
    rw [TunnelCall.sends_iff, TunnelCall.request_eq] at hsends
    subst hsends
    dsimp only [namedHost]
    cases husable : (hostnameFor config dest sni s.table now).filter isSafeProxyHostname with
    | none => exact .inl rfl
    | some name =>
      obtain ⟨hname, hsafe⟩ := Option.filter_eq_some_iff.mp husable
      refine .inr ⟨name, hsafe, rfl, ?_⟩
      unfold hostnameFor at hname
      cases hsni : sniHostname config dest sni with
      | some h => exact .inl (by simpa only [hsni] using hname)
      | none =>
        simp only [hsni] at hname
        exact .inr ⟨rfl, namedBy_of_lookup hrun hname hsafe⟩
  · rintro hfew hsni name hsafe ⟨r, hlast, rfl, hfresh, _⟩ request hsends
    have hlookup : s.table.lookup dest.ip now = some r.name := by
      rw [(lookup_of_run hrun).2 hfew, hlast, Option.filter_some, if_pos (decide_eq_true hfresh),
        Option.map_some]
    rw [TunnelCall.sends_iff, TunnelCall.request_eq] at hsends
    rw [hsends]
    simp only [hostnameFor, hsni, hlookup, namedHost, Option.filter_some, if_pos hsafe]

end Run

/-- A connection to an address that was resolved before. -/
theorem request_of_run_sample : ∃ s, (Forwarder.system .https false).run resolveNamed = some s ∧
    ∃ call, handleConnection (sampleConfig (.v4 .unspecified 8443) sampleProxy)
        (sampleKernel (.new 192 0 2 1) 80) (.v4 (.new 127 0 0 1) 8443) .absent s.table 1 =
          .ok call ∧
      ∀ request, call.Sends request →
        request = (RequestHost.name "a").request (.v4 (.new 192 0 2 1) 80) .httpConnect := by
  have hisSome : ((Forwarder.system .https false).run resolveNamed).isSome = true := by
    decide +kernel
  obtain ⟨s, hs⟩ := Option.isSome_iff_exists.mp hisSome
  obtain ⟨call, hcall, _, hnamed⟩ := request_of_run hs
    (show getOriginalDest (sampleKernel (.new 192 0 2 1) 80) (.v4 (.new 127 0 0 1) 8443)
      (sampleConfig (.v4 .unspecified 8443) sampleProxy).listenAddr =
        .ok (.v4 (.new 192 0 2 1) 80) from rfl)
    (show _ = some sampleProxy from rfl) .absent 1
  refine ⟨s, hs, call, hcall, hnamed ?_ rfl "a" (by decide) ?_⟩
  · have hlen : (resolutions .https false resolveNamed).length = 1 := by decide +kernel
    refine Nat.lt_of_le_of_lt (List.toFinset_card_le _) ?_
    rw [List.length_map, hlen]
    decide
  · have hrow : (lastRow (resolutions .https false resolveNamed) (.v4 (.new 192 0 2 1))).map
        (fun r => (r.name, decide (1 < r.now + fromSecs (tableTtl r.response).toNat))) =
          some ("a", true) := by decide +kernel
    have hheard : (exchanges .https false resolveNamed).map
        (fun x => (parseQueryName x.question, (parseIpRecords x.answer).getD [])) =
          [(some "a", [.v4 (.new 192 0 2 1)])] := by decide +kernel
    obtain ⟨r, hr, hname⟩ := Option.map_eq_some_iff.mp hrow
    obtain ⟨hname, hfresh⟩ := Prod.mk.inj hname
    obtain ⟨x, hx, heq⟩ := List.mem_map.mp (hheard ▸ List.mem_singleton_self _)
    obtain ⟨hquestion, hips⟩ := Prod.mk.inj heq
    refine ⟨r, hr, hname, of_decide_eq_true hfresh, x, hx, hquestion, ?_⟩
    rw [hips]
    exact List.mem_singleton_self _

end TransProxy.Proxy
