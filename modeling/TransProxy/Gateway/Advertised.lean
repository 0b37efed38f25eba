import TransProxy.Gateway.Advertiser

/-!
# What the advertiser does to its network

It takes the traffic for the gateway from every host that talks to the gateway, and leaves
everything else a host knows as it would be without the advertiser.
-/
namespace TransProxy.Gateway
open Library Net

/-! ## Preparation -/

/-- The advertisement for the last addresses of the two kinds. -/
def advertisementFor (mac : Mac) (addrs : List Ipv6Addr) : Option (Ipv6Addr × Bytes) := do
  let linkLocal ← (addrs.filter isLinkLocal).getLast?
  let global ← (addrs.filter isGlobal).getLast?
  return (linkLocal, buildRouterAdvertisement mac global)

theorem linkLocal_ne_unspecified {addrs : List Ipv6Addr} {ip : Ipv6Addr}
    (h : (addrs.filter isLinkLocal).getLast? = some ip) : ip ≠ .unspecified := by
  rintro rfl
  have hmem := List.mem_of_getLast? h
  rw [List.mem_filter, unspecified_not_isLinkLocal] at hmem
  exact absurd hmem.2 (by decide)

def sampleRoute (iface : List Char) (hne : iface ≠ [])
    (hblank : ∀ c ∈ iface, isWhiteSpace c = false) (destination gateway : Ipv4Addr) :
    RouteEntry where
  iface := iface
  destination := destination
  gateway := gateway
  -- flags, counters, metric, mask, MTU and window
  rest := "0003\t0\t0\t100\t00000000\t0\t0\t0".toList
  iface_ne := hne
  iface_blank := hblank
  rest_line := by decide

/-- The network of the interface, the default route of another one and its own. -/
def sampleRoutes : List RouteEntry :=
  [sampleRoute ['e', '0'] (by decide) (by simp [isWhiteSpace]) (.new 192 168 1 0) .unspecified,
    sampleRoute ['w', '0'] (by decide) (by simp [isWhiteSpace]) .unspecified (.new 10 0 0 1),
    sampleRoute ['e', '0'] (by decide) (by simp [isWhiteSpace]) .unspecified (.new 192 168 1 1)]

def sampleLinkLocal : Ipv6Addr := .ofSegments [0xfe80, 0, 0, 0, 0, 0, 0, 1]

def sampleGlobal : Ipv6Addr := .ofSegments [0x2001, 0, 0, 1, 0, 0, 0, 1]

structure Prepared (plan : Plan) : Prop where
  arpPkt : plan.arpPkt = buildGratuitousArp plan.mac plan.gatewayIp
  ra : ∀ src packet, plan.ra = some (src, packet) → isLinkLocal src = true ∧
    ∃ ip, isGlobal ip = true ∧ packet = buildRouterAdvertisement plan.mac ip

theorem kinds_of_getInterfaceIpv6 {iface : String}
    {ifaddrs : Option (List (Bytes × Option IpAddr))} {ll ip : Ipv6Addr}
    (h : getInterfaceIpv6 iface ifaddrs = .ok (ll, ip)) :
    isLinkLocal ll = true ∧ isGlobal ip = true := by
  unfold getInterfaceIpv6 at h
  split_ifs at h with hnul
  cases ifaddrs with
  | none => cases h
  | some entries =>
    simp only [scanIpv6_eq] at h
    cases hlocal : ((ipv6Of (strBytes iface) entries).filter isLinkLocal).getLast? with
    | none => simp [hlocal, selectRouterAdvertisementAddrs] at h
    | some ll' =>
      cases hglobal : ((ipv6Of (strBytes iface) entries).filter isGlobal).getLast? with
      | none => simp [hlocal, hglobal, selectRouterAdvertisementAddrs] at h
      | some ip' =>
        simp only [hlocal, hglobal, selectRouterAdvertisementAddrs, Except.ok.injEq,
          Prod.mk.injEq] at h
        obtain ⟨rfl, rfl⟩ := h
        exact ⟨(List.mem_filter.mp (List.mem_of_getLast? hlocal)).2,
          (List.mem_filter.mp (List.mem_of_getLast? hglobal)).2⟩

theorem prepared_of_prepare {iface : String} {answers : Answers} {plan : Plan}
    (h : prepare iface answers = .ok plan) : Prepared plan := by
  simp only [prepare, bind, Except.bind] at h
  split at h
  · cases h
  · split at h
    · cases h
    · split at h
      · cases h
      · split at h
        · cases h
        · simp only [pure, Except.pure, Except.ok.injEq] at h
          subst h
          refine ⟨rfl, ?_⟩
          intro src packet hra
          cases hipv6 : getInterfaceIpv6 iface answers.ifaddrs with
          | error e => simp [hipv6] at hra
          | ok addrs =>
            obtain ⟨ll, ip⟩ := addrs
            obtain ⟨hlocal, hglobal⟩ := kinds_of_getInterfaceIpv6 hipv6
            simp only [hipv6] at hra
            split_ifs at hra
            simp only [Option.some.injEq, Prod.mk.injEq] at hra
            obtain ⟨rfl, rfl⟩ := hra
            exact ⟨hlocal, ip, hglobal, rfl⟩

/-! ## What it leaves as it is -/

/-- The router that the plan advertises, and the networks with it. -/
def Plan.Advertises (plan : Plan) (src : Ipv6Addr) : Prop := ∃ packet, plan.ra = some (src, packet)

def Plan.AdvertisesNetwork (plan : Plan) (network : Network) : Prop :=
  ∃ src packet ra p, plan.ra = some (src, packet) ∧ readRouterAdvertisement packet = some ra ∧
    p ∈ ra.prefixes ∧ p.network = network

/-- The host knows the same, except for what the plan speaks of. -/
structure SameBut (plan : Plan) (host host' : Host) : Prop where
  mac : host.mac = host'.mac
  ip : host.ip = host'.ip
  arp : ∀ ip ≠ plan.gatewayIp, host.arp ip = host'.arp ip
  gateway : (host.arp plan.gatewayIp).isSome = (host'.arp plan.gatewayIp).isSome
  routers : ∀ src, ¬ plan.Advertises src → host.routers src = host'.routers src
  onLink : ∀ network, ¬ plan.AdvertisesNetwork network → host.onLink network = host'.onLink network

section Hosts
variable {plan : Plan} {host host' : Host}

theorem SameBut.arp_isSome (h : SameBut plan host host') (ip : Ipv4Addr) :
    (host.arp ip).isSome = (host'.arp ip).isSome := by
  by_cases hip : ip = plan.gatewayIp
  · rw [hip, h.gateway]
  · rw [h.arp ip hip]

theorem SameBut.receiveArp (h : SameBut plan host host') (frame : Bytes) :
    SameBut plan (host.receiveArp frame) (host'.receiveArp frame) := by
  rw [Host.receiveArp, Host.receiveArp]
  cases readArp frame with
  | none => exact h
  | some p =>
    dsimp only
    rw [h.mac, h.ip, h.arp_isSome]
    split_ifs
    · refine ⟨rfl, rfl, ?_, ?_, h.routers, h.onLink⟩
      · intro ip hip
        simp only [h.arp ip hip]
      · dsimp only
        split_ifs
        · rfl
        · exact h.gateway
    · exact h

theorem receivePrefix_onLink (host : Host) (p : PrefixInformation) {network : Network}
    (h : p.network ≠ network) : (host.receivePrefix p).onLink network = host.onLink network := by
  by_cases hcond : (p.onLink && !isLinkLocal p.network.addr) = true
  · rw [Host.receivePrefix, if_pos hcond]
    exact if_neg h.symm
  · rw [Host.receivePrefix, if_neg hcond]

theorem SameBut.receivePrefix (h : SameBut plan host host') (p : PrefixInformation) :
    SameBut plan (host.receivePrefix p) (host'.receivePrefix p) := by
  by_cases hcond : (p.onLink && !isLinkLocal p.network.addr) = true
  · rw [Host.receivePrefix, Host.receivePrefix, if_pos hcond, if_pos hcond]
    refine ⟨h.mac, h.ip, h.arp, h.gateway, h.routers, ?_⟩
    intro network hnetwork
    simp only [h.onLink network hnetwork]
  · rw [Host.receivePrefix, Host.receivePrefix, if_neg hcond, if_neg hcond]
    exact h

theorem SameBut.receivePrefixes (prefixes : List PrefixInformation) (h : SameBut plan host host') :
    SameBut plan (prefixes.foldl Host.receivePrefix host)
      (prefixes.foldl Host.receivePrefix host') := by
  induction prefixes generalizing host host' with
  | nil => exact h
  | cons p prefixes ih => exact ih (h.receivePrefix p)

theorem SameBut.receiveAdvertisement (h : SameBut plan host host') (src : Ipv6Addr)
    (packet : Bytes) : SameBut plan (host.receiveAdvertisement src packet)
      (host'.receiveAdvertisement src packet) := by
  rw [Host.receiveAdvertisement, Host.receiveAdvertisement]
  cases readRouterAdvertisement packet with
  | none => exact h
  | some ra =>
    dsimp only
    split_ifs
    · apply SameBut.receivePrefixes
      refine ⟨h.mac, h.ip, h.arp, h.gateway, ?_, h.onLink⟩
      intro ip hip
      simp only [Host.receiveRouter, h.routers ip hip]
    · exact h

theorem SameBut.pass (h : SameBut plan host host') (seconds : ℕ) :
    SameBut plan (host.pass seconds) (host'.pass seconds) := by
  refine ⟨h.mac, h.ip, h.arp, h.gateway, ?_, ?_⟩
  · intro src hsrc
    simp only [Host.pass, h.routers src hsrc]
  · intro network hnetwork
    simp only [Host.pass, h.onLink network hnetwork]

/-- The entry of the gateway is changed when there is one. -/
theorem receiveArp_plan (hplan : Prepared plan) (hip : host.ip ≠ plan.gatewayIp) :
    host.receiveArp plan.arpPkt =
      { host with arp := fun ip =>
          if ip = plan.gatewayIp then (host.arp ip).map (fun _ => plan.mac) else host.arp ip } := by
  rw [Host.receiveArp, hplan.arpPkt, readArp_build]
  simp only [true_or, true_and, hip.symm, or_false]
  cases hgateway : host.arp plan.gatewayIp with
  | none =>
    simp only [Option.isSome_none, Bool.false_eq_true, if_false]
    have hsame : (fun ip => if ip = plan.gatewayIp then (host.arp ip).map (fun _ => plan.mac)
        else host.arp ip) = host.arp := by
      funext ip
      split_ifs with h
      · rw [h, hgateway, Option.map_none]
      · rfl
    rw [hsame]
  | some mac =>
    simp only [Option.isSome_some, if_true]
    congr 1
    funext ip
    split_ifs with h
    · rw [h, hgateway, Option.map_some]
    · rfl

theorem SameBut.receiveArp_plan (hplan : Prepared plan) (hip : host.ip ≠ plan.gatewayIp)
    (h : SameBut plan host host') : SameBut plan (host.receiveArp plan.arpPkt) host' := by
  rw [Gateway.receiveArp_plan hplan hip]
  refine ⟨h.mac, h.ip, ?_, ?_, h.routers, h.onLink⟩
  · intro ip hne
    dsimp only
    rw [if_neg hne, h.arp ip hne]
  · dsimp only
    rw [if_pos rfl, Option.isSome_map, h.gateway]

theorem SameBut.receivePrefixes_plan {prefixes : List PrefixInformation}
    (hprefixes : ∀ p ∈ prefixes, plan.AdvertisesNetwork p.network) (h : SameBut plan host host') :
    SameBut plan (prefixes.foldl Host.receivePrefix host) host' := by
  induction prefixes generalizing host with
  | nil => exact h
  | cons p prefixes ih =>
    obtain ⟨hp, hrest⟩ := List.forall_mem_cons.mp hprefixes
    apply ih hrest
    have hsame : ∀ network, ¬ plan.AdvertisesNetwork network →
        (host.receivePrefix p).onLink network = host'.onLink network := by
      intro network hnetwork
      have hne : p.network ≠ network := by
        rintro rfl
        exact hnetwork hp
      rw [receivePrefix_onLink host p hne, h.onLink network hnetwork]
    by_cases hcond : (p.onLink && !isLinkLocal p.network.addr) = true
    · rw [Host.receivePrefix, if_pos hcond] at hsame ⊢
      exact ⟨h.mac, h.ip, h.arp, h.gateway, h.routers, hsame⟩
    · rw [Host.receivePrefix, if_neg hcond]
      exact h

theorem SameBut.receiveAdvertisement_plan {src : Ipv6Addr} {packet : Bytes}
    (hra : plan.ra = some (src, packet)) (h : SameBut plan host host') :
    SameBut plan (host.receiveAdvertisement src packet) host' := by
  rw [Host.receiveAdvertisement]
  cases hread : readRouterAdvertisement packet with
  | none => exact h
  | some ra =>
    dsimp only
    split_ifs
    · apply SameBut.receivePrefixes_plan
      · exact fun p hp => ⟨src, packet, ra, p, hra, hread, hp, rfl⟩
      · refine ⟨h.mac, h.ip, h.arp, h.gateway, ?_, h.onLink⟩
        intro ip hip
        have hne : ip ≠ src := fun he => hip ⟨packet, he ▸ hra⟩
        simp only [Host.receiveRouter, if_neg hne, h.routers ip hip]
    · exact h

end Hosts

theorem dueAdvertisement_ra {plan : Plan} {n : UInt64} {p : Ipv6Addr × Bytes}
    (h : dueAdvertisement plan n = some p) : plan.ra = some p := by
  rw [dueAdvertisement] at h
  split_ifs at h
  exact h

/-! ### The address of the host -/

theorem Host.receiveArp_ip (host : Host) (frame : Bytes) :
    (host.receiveArp frame).ip = host.ip := by
  rw [Host.receiveArp]
  cases readArp frame with
  | none => rfl
  | some p =>
    dsimp only
    split_ifs <;> rfl

theorem Host.receivePrefixes_ip (prefixes : List PrefixInformation) (host : Host) :
    (prefixes.foldl Host.receivePrefix host).ip = host.ip := by
  induction prefixes generalizing host with
  | nil => rfl
  | cons p prefixes ih =>
    rw [List.foldl_cons, ih, Host.receivePrefix]
    cases p.onLink && !isLinkLocal p.network.addr <;> rfl

theorem Host.receiveAdvertisement_ip (host : Host) (src : Ipv6Addr) (packet : Bytes) :
    (host.receiveAdvertisement src packet).ip = host.ip := by
  rw [Host.receiveAdvertisement]
  cases readRouterAdvertisement packet with
  | none => rfl
  | some ra =>
    dsimp only
    split_ifs
    · exact Host.receivePrefixes_ip _ _
    · rfl

/-- The iteration of the loop, packet by packet. -/
theorem Lan.tick_host (plan : Plan) (lan : Lan) (arp ra : Bool) :
    ∃ host, host = (if arp then lan.host.receiveArp plan.arpPkt else lan.host) ∧
      ((lan.step plan (.tick arp ra)).host = host ∨
        ∃ src packet, dueAdvertisement plan (lan.tickCount + 1) = some (src, packet) ∧ ra = true ∧
          (lan.step plan (.tick arp ra)).host = host.receiveAdvertisement src packet) := by
  refine ⟨_, rfl, ?_⟩
  rw [Lan.step]
  dsimp only
  cases dueAdvertisement plan (lan.tickCount + 1) with
  | none => exact .inl rfl
  | some p =>
    cases ra with
    | false => exact .inl rfl
    | true => exact .inr ⟨p.1, p.2, rfl, rfl, rfl⟩

theorem Lan.step_ip (plan : Plan) (lan : Lan) (e : Event) :
    (lan.step plan e).host.ip = lan.host.ip := by
  cases e with
  | tick arp ra =>
    obtain ⟨host, rfl, hstep⟩ := lan.tick_host plan arp ra
    have hhost : (if arp then lan.host.receiveArp plan.arpPkt else lan.host).ip = lan.host.ip := by
      split_ifs
      · exact Host.receiveArp_ip _ _
      · rfl
    rcases hstep with hstep | ⟨src, packet, _, _, hstep⟩
    · rw [hstep, hhost]
    · rw [hstep, Host.receiveAdvertisement_ip, hhost]
  | station frame => exact Host.receiveArp_ip _ _
  | router src packet => exact Host.receiveAdvertisement_ip _ _ _
  | pass seconds => rfl

/-- A host hears of the advertiser only what the plan speaks of. -/
theorem SameBut.run {plan : Plan} (hplan : Prepared plan) (events : List Event) {lan lan' : Lan}
    (hip : lan.host.ip ≠ plan.gatewayIp) (h : SameBut plan lan.host lan'.host) :
    SameBut plan (lan.run plan events).host (lan'.run plan (others events)).host := by
  induction events generalizing lan lan' with
  | nil => exact h
  | cons e events ih =>
    have hne : (lan.step plan e).host.ip ≠ plan.gatewayIp := by
      rw [Lan.step_ip]
      exact hip
    cases e with
    | tick arp ra =>
      have hother : others (.tick arp ra :: events) = others events := rfl
      rw [hother]
      apply ih hne
      obtain ⟨host, hhost, hstep⟩ := lan.tick_host plan arp ra
      have hsame : SameBut plan host lan'.host := by
        subst hhost
        split_ifs
        · exact h.receiveArp_plan hplan hip
        · exact h
      rcases hstep with hstep | ⟨src, packet, hdue, _, hstep⟩
      · rw [hstep]
        exact hsame
      · rw [hstep]
        exact hsame.receiveAdvertisement_plan (dueAdvertisement_ra hdue)
    | station frame => exact @ih _ (lan'.step plan (.station frame)) hne (h.receiveArp frame)
    | router src packet =>
      exact @ih _ (lan'.step plan (.router src packet)) hne (h.receiveAdvertisement src packet)
    | pass seconds => exact @ih _ (lan'.step plan (.pass seconds)) hne (h.pass seconds)

/-! ## The hardware address of the gateway -/

def SpeaksFor (ip : Ipv4Addr) (frame : Bytes) : Prop :=
  ∃ p, readArp frame = some p ∧ p.senderIp = ip

/-- Once told, the hosts keep to the advertiser until someone else speaks for the gateway. -/
def Taken (plan : Plan) (host : Host) : Prop :=
  ∀ mac, host.arp plan.gatewayIp = some mac → mac = plan.mac

theorem taken_receiveArp_plan {plan : Plan} (hplan : Prepared plan) {host : Host}
    (hip : host.ip ≠ plan.gatewayIp) : Taken plan (host.receiveArp plan.arpPkt) := by
  intro mac hmac
  rw [receiveArp_plan hplan hip] at hmac
  dsimp only at hmac
  rw [if_pos rfl] at hmac
  obtain ⟨_, _, rfl⟩ := Option.map_eq_some_iff.mp hmac
  rfl

theorem receivePrefixes_arp (prefixes : List PrefixInformation) (host : Host) :
    (prefixes.foldl Host.receivePrefix host).arp = host.arp := by
  induction prefixes generalizing host with
  | nil => rfl
  | cons p prefixes ih =>
    rw [List.foldl_cons, ih, Host.receivePrefix]
    cases p.onLink && !isLinkLocal p.network.addr <;> rfl

theorem receiveAdvertisement_arp (host : Host) (src : Ipv6Addr) (packet : Bytes) :
    (host.receiveAdvertisement src packet).arp = host.arp := by
  rw [Host.receiveAdvertisement]
  cases readRouterAdvertisement packet with
  | none => rfl
  | some ra =>
    dsimp only
    split_ifs
    · exact receivePrefixes_arp _ _
    · rfl

theorem receiveArp_arp_of_not_speaksFor {host : Host} {frame : Bytes} {ip : Ipv4Addr}
    (h : ¬ SpeaksFor ip frame) : (host.receiveArp frame).arp ip = host.arp ip := by
  rw [Host.receiveArp]
  cases hread : readArp frame with
  | none => rfl
  | some p =>
    have hne : ip ≠ p.senderIp := fun he => h ⟨p, hread, he.symm⟩
    dsimp only
    split_ifs
    · exact if_neg hne
    · rfl

theorem Taken.step {plan : Plan} (hplan : Prepared plan) {lan : Lan} {e : Event}
    (hip : lan.host.ip ≠ plan.gatewayIp) (h : Taken plan lan.host)
    (he : ∀ frame, e = .station frame → ¬ SpeaksFor plan.gatewayIp frame) :
    Taken plan (lan.step plan e).host := by
  cases e with
  | tick arp ra =>
    obtain ⟨host, hhost, hstep⟩ := lan.tick_host plan arp ra
    have htaken : Taken plan host := by
      subst hhost
      split_ifs
      · exact taken_receiveArp_plan hplan hip
      · exact h
    rcases hstep with hstep | ⟨src, packet, _, _, hstep⟩
    · rw [hstep]
      exact htaken
    · rw [hstep, Taken, receiveAdvertisement_arp]
      exact htaken
  | station frame =>
    intro mac hmac
    exact h mac ((receiveArp_arp_of_not_speaksFor (he frame rfl)).symm.trans hmac)
  | router src packet =>
    intro mac hmac
    rw [Lan.step] at hmac
    dsimp only at hmac
    rw [receiveAdvertisement_arp] at hmac
    exact h mac hmac
  | pass seconds => exact h

theorem Taken.run {plan : Plan} (hplan : Prepared plan) {events : List Event} {lan : Lan}
    (hip : lan.host.ip ≠ plan.gatewayIp) (h : Taken plan lan.host)
    (hevents : ∀ frame, .station frame ∈ events → ¬ SpeaksFor plan.gatewayIp frame) :
    Taken plan (lan.run plan events).host := by
  induction events generalizing lan with
  | nil => exact h
  | cons e events ih =>
    change Taken plan ((lan.step plan e).run plan events).host
    apply ih
    · rw [Lan.step_ip]
      exact hip
    · apply h.step hplan hip
      rintro frame rfl
      exact hevents frame List.mem_cons_self
    · exact fun frame hframe => hevents frame (List.mem_cons_of_mem e hframe)

theorem Lan.run_append (plan : Plan) (lan : Lan) (events more : List Event) :
    lan.run plan (events ++ more) = (lan.run plan events).run plan more :=
  List.foldl_append

theorem Lan.run_ip (plan : Plan) (lan : Lan) (events : List Event) :
    (lan.run plan events).host.ip = lan.host.ip := by
  induction events generalizing lan with
  | nil => rfl
  | cons e events ih =>
    rw [Lan.run, List.foldl_cons]
    exact (ih (lan.step plan e)).trans (Lan.step_ip plan lan e)

theorem SameBut.refl (plan : Plan) (host : Host) : SameBut plan host host :=
  ⟨rfl, rfl, fun _ _ => rfl, rfl, fun _ _ => rfl, fun _ _ => rfl⟩

/-- Whatever else is sent in the network: a host that knows the gateway has the hardware address of
the advertiser for it, from each broadcast that comes through until another station speaks for
the gateway. All its other entries are those that it has without the advertiser, and it knows the
gateway exactly when it would without the advertiser. -/
theorem arp_of_run {iface : String} {answers : Answers} {plan : Plan}
    (hplan : prepare iface answers = .ok plan) {lan : Lan} (hip : lan.host.ip ≠ plan.gatewayIp)
    (events : List Event) :
    (∀ ip ≠ plan.gatewayIp, (lan.run plan events).host.arp ip =
      (lan.run plan (others events)).host.arp ip) ∧
    ((lan.run plan events).host.arp plan.gatewayIp).isSome =
      ((lan.run plan (others events)).host.arp plan.gatewayIp).isSome ∧
    ∀ before ra after, events = before ++ .tick true ra :: after →
      (∀ frame, .station frame ∈ after → ¬ SpeaksFor plan.gatewayIp frame) →
        ∀ mac, (lan.run plan events).host.arp plan.gatewayIp = some mac → mac = plan.mac := by
  have hprepared := prepared_of_prepare hplan
  have hsame := SameBut.run hprepared events hip (SameBut.refl plan lan.host)
  refine ⟨hsame.arp, hsame.gateway, ?_⟩
  rintro before ra after rfl hafter
  rw [Lan.run_append]
  have hmid : (lan.run plan before).host.ip ≠ plan.gatewayIp := by
    rw [Lan.run_ip]
    exact hip
  have htold : Taken plan ((lan.run plan before).step plan (.tick true ra)).host := by
    obtain ⟨host, rfl, hstep⟩ := (lan.run plan before).tick_host plan true ra
    have htaken := taken_receiveArp_plan hprepared hmid
    rcases hstep with hstep | ⟨src, packet, _, _, hstep⟩
    · rw [hstep]
      exact htaken
    · rw [hstep, Taken, receiveAdvertisement_arp]
      exact htaken
  apply htold.run hprepared _ hafter
  rw [Lan.step_ip]
  exact hmid

/-- An interface with a default route and one address of each kind. -/
def sampleAnswers : Answers where
  address := .ok "00:11:22:33:44:55\n".toList
  route := .ok "Iface\neth0\t00000000\t0101A8C0\t\n".toList
  ifaddrs := some [(strBytes "eth0", some (.v6 sampleLinkLocal)),
    (strBytes "eth0", some (.v6 sampleGlobal))]

def samplePlan : Plan where
  mac := #v[0x00, 0x11, 0x22, 0x33, 0x44, 0x55]
  gatewayIp := .new 192 168 1 1
  arpPkt := buildGratuitousArp #v[0x00, 0x11, 0x22, 0x33, 0x44, 0x55] (.new 192 168 1 1)
  ra := some (sampleLinkLocal,
    buildRouterAdvertisement #v[0x00, 0x11, 0x22, 0x33, 0x44, 0x55] sampleGlobal)

/-- A host that knows the gateway by another address. -/
def sampleLan : Lan where
  tickCount := 0
  host :=
    { mac := Vector.replicate 6 8
      ip := .new 192 168 1 20
      arp := fun ip => if ip = .new 192 168 1 1 then some (Vector.replicate 6 9) else none
      routers := fun _ => none
      onLink := fun _ => none }

theorem arp_of_run_sample :
    (sampleLan.run samplePlan [.tick true false, .pass 3]).host.arp (.new 192 168 1 1) =
      some samplePlan.mac := by
  obtain ⟨_, hsome, htold⟩ := @arp_of_run "eth0" sampleAnswers samplePlan (by decide)
    sampleLan (by decide) [.tick true false, .pass 3]
  have hknown : ((sampleLan.run samplePlan (others [.tick true false, .pass 3])).host.arp
      samplePlan.gatewayIp).isSome = true := by decide
  obtain ⟨mac, harp⟩ := Option.isSome_iff_exists.mp (hsome.trans hknown)
  obtain rfl := htold [] false [.pass 3] rfl (by simp) mac harp
  exact harp

/-! ## The preferred router -/

theorem ra_of_prepare {iface : String} {answers : Answers} {plan : Plan} {src ip : Ipv6Addr}
    (h : prepare iface answers = .ok plan)
    (hipv6 : getInterfaceIpv6 iface answers.ifaddrs = .ok (src, ip)) :
    plan.ra = some (src, buildRouterAdvertisement plan.mac ip) := by
  have hne : src ≠ .unspecified := by
    rintro rfl
    have hlocal := (kinds_of_getInterfaceIpv6 hipv6).1
    rw [unspecified_not_isLinkLocal] at hlocal
    cases hlocal
  simp only [prepare, bind, Except.bind, hipv6] at h
  split at h
  · cases h
  · split at h
    · cases h
    · split at h
      · cases h
      · split at h
        · cases h
        · simp only [pure, Except.pure, Except.ok.injEq, ne_eq, hne, not_false_eq_true,
            if_true] at h
          subst h
          rfl

theorem isLinkLocal_advertisedPrefix (ip : Ipv6Addr) :
    isLinkLocal (advertisedPrefix ip).addr = isLinkLocal ip := by
  have hrange : List.range 8 = [0, 1, 2, 3, 4, 5, 6, 7] := rfl
  have hfirst : (prefixBytes ip).getD 0 0 = ip.octets.toList.getD 0 0 ∧
      (prefixBytes ip).getD 1 0 = ip.octets.toList.getD 1 0 := by
    simp [prefixBytes]
  simp only [isLinkLocal, Ipv6Addr.segments, hrange, List.map_cons, List.headD_cons, Nat.mul_zero,
    Nat.zero_add, advertisedPrefix, Vector.toList_mk, hfirst]

theorem isLinkLocal_of_isGlobal {ip : Ipv6Addr} (h : isGlobal ip = true) :
    isLinkLocal ip = false := by
  simp only [isGlobal, Bool.and_eq_true, Bool.not_eq_true'] at h
  exact h.1.1

/-- What a host knows from the advertisement that is built. -/
theorem receiveAdvertisement_build {src ip : Ipv6Addr} (hsrc : isLinkLocal src = true)
    (hip : isGlobal ip = true) (mac : Mac) (host : Host) :
    (host.receiveAdvertisement src (buildRouterAdvertisement mac ip)).routers src =
      some ⟨some mac, .high, 1800⟩ ∧
    (host.receiveAdvertisement src (buildRouterAdvertisement mac ip)).onLink (advertisedPrefix ip) =
      some 2592000 := by
  have hglobal : isLinkLocal (advertisedPrefix ip).addr = false := by
    rw [isLinkLocal_advertisedPrefix]
    exact isLinkLocal_of_isGlobal hip
  have hlifetime : raRouterLifetime ≠ 0 ∧ raRouterLifetime.toNat = 1800 := by decide
  have hvalid : (2592000 : UInt32) ≠ 0 ∧ (2592000 : UInt32).toNat = 2592000 := by decide
  rw [Host.receiveAdvertisement, readRouterAdvertisement_build]
  simp only [hsrc, if_true, prefixes_build, List.foldl_cons, List.foldl_nil, Host.receivePrefix,
    hglobal, Bool.not_false, Bool.and_self, Host.receiveRouter, sourceMac_build, hlifetime, hvalid,
    if_false, and_self]

/-- After so many seconds the host still has the router and its network. -/
def Preferred (plan : Plan) (src ip : Ipv6Addr) (seconds : ℕ) (host : Host) : Prop :=
  ∃ router left, host.routers src = some router ∧ router.mac = some plan.mac ∧
    router.preference = .high ∧ 1800 ≤ router.left + seconds ∧
    host.onLink (advertisedPrefix ip) = some left ∧ 2592000 ≤ left + seconds

/-- Another router uses the address, or speaks of the network. -/
def Interferes (src : Ipv6Addr) (network : Network) (other : Ipv6Addr) (packet : Bytes) : Prop :=
  ∃ ra, readRouterAdvertisement packet = some ra ∧
    (other = src ∨ ∃ p ∈ ra.prefixes, p.network = network)

theorem receivePrefixes_onLink (prefixes : List PrefixInformation) (host : Host) {network : Network}
    (h : ∀ p ∈ prefixes, p.network ≠ network) :
    (prefixes.foldl Host.receivePrefix host).onLink network = host.onLink network := by
  induction prefixes generalizing host with
  | nil => rfl
  | cons p prefixes ih =>
    obtain ⟨hp, hrest⟩ := List.forall_mem_cons.mp h
    rw [List.foldl_cons, ih _ hrest, receivePrefix_onLink host p hp]

theorem receivePrefixes_routers (prefixes : List PrefixInformation) (host : Host) :
    (prefixes.foldl Host.receivePrefix host).routers = host.routers := by
  induction prefixes generalizing host with
  | nil => rfl
  | cons p prefixes ih =>
    rw [List.foldl_cons, ih, Host.receivePrefix]
    cases p.onLink && !isLinkLocal p.network.addr <;> rfl

theorem receiveArp_routers (host : Host) (frame : Bytes) :
    (host.receiveArp frame).routers = host.routers ∧
      (host.receiveArp frame).onLink = host.onLink := by
  rw [Host.receiveArp]
  cases readArp frame with
  | none => exact ⟨rfl, rfl⟩
  | some p =>
    dsimp only
    split_ifs <;> exact ⟨rfl, rfl⟩

section Preferred
variable {plan : Plan} {src ip : Ipv6Addr} {seconds : ℕ} {host : Host}

theorem preferred_build (hsrc : isLinkLocal src = true) (hip : isGlobal ip = true) (host : Host) :
    Preferred plan src ip seconds
      (host.receiveAdvertisement src (buildRouterAdvertisement plan.mac ip)) := by
  obtain ⟨hrouter, honLink⟩ := receiveAdvertisement_build hsrc hip plan.mac host
  exact ⟨_, _, hrouter, rfl, rfl, Nat.le_add_right _ _, honLink, Nat.le_add_right _ _⟩

theorem Preferred.receiveArp (h : Preferred plan src ip seconds host) (frame : Bytes) :
    Preferred plan src ip seconds (host.receiveArp frame) := by
  obtain ⟨hrouters, honLink⟩ := receiveArp_routers host frame
  rw [Preferred, hrouters, honLink]
  exact h

theorem Preferred.receiveAdvertisement (h : Preferred plan src ip seconds host) {other : Ipv6Addr}
    {packet : Bytes} (hother : ¬ Interferes src (advertisedPrefix ip) other packet) :
    Preferred plan src ip seconds (host.receiveAdvertisement other packet) := by
  rw [Host.receiveAdvertisement]
  cases hread : readRouterAdvertisement packet with
  | none => exact h
  | some ra =>
    dsimp only
    split_ifs with hlocal
    · have hne : src ≠ other := fun he => hother ⟨ra, hread, .inl he.symm⟩
      have hprefixes : ∀ p ∈ ra.prefixes, p.network ≠ advertisedPrefix ip :=
        fun p hp he => hother ⟨ra, hread, .inr ⟨p, hp, he⟩⟩
      rw [Preferred, receivePrefixes_routers, receivePrefixes_onLink _ _ hprefixes]
      simp only [Host.receiveRouter, if_neg hne]
      exact h
    · exact h

theorem Preferred.pass (h : Preferred plan src ip seconds host) {more : ℕ}
    (hsmall : seconds + more < 1800) : Preferred plan src ip (seconds + more) (host.pass more) := by
  obtain ⟨router, left, hrouter, hmac, hhigh, hleft, honLink, hvalid⟩ := h
  refine ⟨{ router with left := router.left - more }, left - more, ?_, hmac, hhigh, ?_, ?_, ?_⟩
  · simp only [Host.pass, hrouter, Option.bind_some]
    rw [if_pos (by omega)]
  · dsimp only
    omega
  · simp only [Host.pass, honLink, Option.bind_some]
    rw [if_pos (by omega)]
  · omega

theorem Preferred.run (hra : plan.ra = some (src, buildRouterAdvertisement plan.mac ip))
    (hsrc : isLinkLocal src = true) (hip : isGlobal ip = true) {events : List Event} {lan : Lan}
    (h : Preferred plan src ip seconds lan.host)
    (hevents : ∀ other packet, .router other packet ∈ events →
      ¬ Interferes src (advertisedPrefix ip) other packet)
    (hsmall : seconds + secondsOf events < 1800) :
    Preferred plan src ip (seconds + secondsOf events) (lan.run plan events).host := by
  induction events generalizing lan seconds with
  | nil => exact h
  | cons e events ih =>
    have hseconds : secondsOf (e :: events) = e.seconds + secondsOf events := by
      simp [secondsOf]
    rw [hseconds, ← Nat.add_assoc] at hsmall ⊢
    change Preferred plan src ip (seconds + e.seconds + secondsOf events)
      ((lan.step plan e).run plan events).host
    apply ih _ (fun other packet hmem => hevents other packet (List.mem_cons_of_mem e hmem)) hsmall
    cases e with
    | tick arp ra =>
      obtain ⟨host, hhost, hstep⟩ := lan.tick_host plan arp ra
      have hkept : Preferred plan src ip seconds host := by
        subst hhost
        split_ifs
        · exact h.receiveArp _
        · exact h
      rcases hstep with hstep | ⟨src', packet, hdue, _, hstep⟩
      · rw [hstep]
        exact hkept
      · have hown := dueAdvertisement_ra hdue
        rw [hra] at hown
        simp only [Option.some.injEq, Prod.mk.injEq] at hown
        obtain ⟨rfl, rfl⟩ := hown
        rw [hstep]
        exact preferred_build hsrc hip host
    | station frame => exact h.receiveArp frame
    | router other packet =>
      exact h.receiveAdvertisement (hevents other packet List.mem_cons_self)
    | pass more => exact h.pass (Nat.lt_of_le_of_lt (Nat.le_add_right _ _) hsmall)

end Preferred

theorem Lan.tickCount_run (plan : Plan) (lan : Lan) (events : List Event) :
    (lan.run plan events).tickCount = lan.tickCount + UInt64.ofNat (ticks events) := by
  induction events generalizing lan with
  | nil => simp [Lan.run, ticks]
  | cons e events ih =>
    rw [Lan.run, List.foldl_cons, ← Lan.run, ih]
    cases e with
    | tick arp ra =>
      have hcount : ticks (.tick arp ra :: events) = ticks events + 1 := List.countP_cons_of_pos rfl
      simp [Lan.step, hcount, UInt64.add_assoc, UInt64.add_comm]
    | station frame => simp [Lan.step, ticks, Event.isTick]
    | router src packet => simp [Lan.step, ticks, Event.isTick]
    | pass seconds => simp [Lan.step, ticks, Event.isTick]

/-- A host that hears the advertisement of every fifteenth iteration has the advertiser as a router
that it prefers, and its network without a router, until half an hour has gone by without another
one, unless another router takes the address or speaks of the network. Other routers and networks
are known to it as without the advertiser. -/
theorem router_of_run {iface : String} {answers : Answers} {plan : Plan} {src ip : Ipv6Addr}
    (hplan : prepare iface answers = .ok plan)
    (hipv6 : getInterfaceIpv6 iface answers.ifaddrs = .ok (src, ip)) {lan : Lan}
    (hstart : lan.tickCount = 0) (hhost : lan.host.ip ≠ plan.gatewayIp) {before after : List Event}
    {arp : Bool} (hcount : 15 ∣ ticks before + 1) (hsmall : ticks before + 1 < 2 ^ 64)
    (hafter : ∀ other packet, .router other packet ∈ after →
      ¬ Interferes src (advertisedPrefix ip) other packet)
    (hseconds : secondsOf after < 1800) :
    Preferred plan src ip (secondsOf after)
      (lan.run plan (before ++ .tick arp true :: after)).host ∧
    (∀ other ≠ src, (lan.run plan (before ++ .tick arp true :: after)).host.routers other =
      (lan.run plan (others (before ++ .tick arp true :: after))).host.routers other) ∧
    ∀ network ≠ advertisedPrefix ip,
      (lan.run plan (before ++ .tick arp true :: after)).host.onLink network =
        (lan.run plan (others (before ++ .tick arp true :: after))).host.onLink network := by
  have hprepared := prepared_of_prepare hplan
  have hra := ra_of_prepare hplan hipv6
  obtain ⟨hsrc, hglobal⟩ := kinds_of_getInterfaceIpv6 hipv6
  have hsame := SameBut.run hprepared (before ++ .tick arp true :: after) hhost
    (SameBut.refl plan lan.host)
  refine ⟨?_, ?_, ?_⟩
  · have hdue : dueAdvertisement plan ((lan.run plan before).tickCount + 1) =
        some (src, buildRouterAdvertisement plan.mac ip) := by
      have hzero : ((lan.run plan before).tickCount + 1) % raIntervalTicks = 0 := by
        rw [Lan.tickCount_run, hstart]
        apply UInt64.toNat_inj.mp
        have h15 : raIntervalTicks.toNat = 15 := rfl
        have hmod : ticks before % 2 ^ 64 = ticks before := Nat.mod_eq_of_lt (by omega)
        rw [UInt64.toNat_mod, h15]
        simp only [UInt64.toNat_add, UInt64.toNat_ofNat', UInt64.toNat_zero, UInt64.toNat_one,
          Nat.zero_add, hmod, Nat.mod_eq_of_lt hsmall]
        exact Nat.mod_eq_zero_of_dvd hcount
      rw [dueAdvertisement, if_pos hzero, hra]
    rw [Lan.run_append]
    have hheard : Preferred plan src ip 0
        ((lan.run plan before).step plan (.tick arp true)).host := by
      rw [Lan.step]
      simp only [hdue, if_true]
      exact preferred_build hsrc hglobal _
    have hrun := hheard.run hra hsrc hglobal hafter (by rw [Nat.zero_add]; exact hseconds)
    rw [Nat.zero_add] at hrun
    exact hrun
  · intro other hne
    apply hsame.routers
    rintro ⟨packet, hother⟩
    rw [hra] at hother
    exact hne (Prod.mk.inj (Option.some.inj hother)).1.symm
  · intro network hne
    apply hsame.onLink
    rintro ⟨src', packet, ra, p, hother, hread, hp, hnetwork⟩
    rw [hra] at hother
    obtain ⟨rfl, rfl⟩ := Prod.mk.inj (Option.some.inj hother)
    rw [readRouterAdvertisement_build] at hread
    obtain rfl := Option.some.inj hread
    rw [prefixes_build] at hp
    obtain rfl := List.mem_singleton.mp hp
    exact hne hnetwork.symm

theorem router_of_run_sample :
    Preferred samplePlan sampleLinkLocal sampleGlobal 60
      (sampleLan.run samplePlan (List.replicate 14 (.tick false false) ++
        .tick true true :: [.pass 60])).host :=
  (@router_of_run "eth0" sampleAnswers samplePlan sampleLinkLocal sampleGlobal (by decide)
    (by decide) sampleLan rfl (by decide) _ [.pass 60] true (by decide) (by decide)
    (by simp) (by decide)).1

end TransProxy.Gateway
