import TransProxy.Config.Values
import TransProxy.Library.Words
import TransProxy.Net.AddrRoundTrip

/-!
# Values as they are displayed

The `Display` implementations of the values of the options, and what the parsers make of their
texts.
-/
namespace TransProxy.Config
open Library Net

def PortList.display (list : PortList) : String :=
  ",".intercalate (list.ports.map fun port => toString port.toNat)

def DnsUpstream.display : DnsUpstream → String
  | .udp addr => addr.display
  | .https url => url

/-- The password is left out. -/
def UpstreamProxy.display (proxy : UpstreamProxy) : String :=
  match proxy.protocol with
  | .httpConnect => "http://" ++ proxy.addr.display
  | .socks5 .none => "socks5://" ++ proxy.addr.display
  | .socks5 (.usernamePassword username _) => "socks5://" ++ username ++ "@" ++ proxy.addr.display

structure PortList.Proper (list : PortList) : Prop where
  ne_nil : list.ports ≠ []
  nodup : list.ports.Nodup
  ne_zero : ∀ port ∈ list.ports, port ≠ 0

theorem parseUnsigned_lt {size n : ℕ} {text : List Char} (h : parseUnsigned size text = some n) :
    n < size := by
  simp only [parseUnsigned] at h
  split_ifs at h with _ hlt
  obtain rfl := Option.some.inj h
  exact hlt

theorem ofNat_ne_zero {n : ℕ} (hlt : n < 65536) (hn : n ≠ 0) : UInt16.ofNat n ≠ 0 := by
  intro heq
  have hnat := congrArg UInt16.toNat heq
  rw [UInt16.toNat_ofNat_of_lt' hlt] at hnat
  exact hn hnat

theorem addPort_ok {ports ports' : List UInt16} {part : List Char}
    (h : addPort ports part = .ok ports') (hnodup : ports.Nodup)
    (hzero : ∀ port ∈ ports, port ≠ 0) :
    ports'.Nodup ∧ ∀ port ∈ ports', port ≠ 0 := by
  simp only [addPort] at h
  cases hparse : parseUnsigned 65536 (trim part) with
  | none => simp [hparse] at h
  | some n =>
    simp only [hparse] at h
    split_ifs at h with hn hmem
    · obtain rfl := Except.ok.inj h
      exact ⟨hnodup, hzero⟩
    · obtain rfl := Except.ok.inj h
      refine ⟨List.nodup_append.mpr ⟨hnodup, by simp, ?_⟩, ?_⟩
      · intro port hport port' hport' heq
        rw [heq, List.mem_singleton.mp hport'] at hport
        exact hmem hport
      · simp only [List.forall_mem_append, List.forall_mem_singleton]
        exact ⟨hzero, ofNat_ne_zero (parseUnsigned_lt hparse) hn⟩

theorem foldlM_addPort_ok {ports ports' : List UInt16} {parts : List (List Char)}
    (h : parts.foldlM addPort ports = .ok ports') (hnodup : ports.Nodup)
    (hzero : ∀ port ∈ ports, port ≠ 0) : ports'.Nodup ∧ ∀ port ∈ ports', port ≠ 0 := by
  induction parts generalizing ports with
  | nil =>
    obtain rfl := Except.ok.inj h
    exact ⟨hnodup, hzero⟩
  | cons part parts ih =>
    rw [List.foldlM_cons] at h
    cases hpart : addPort ports part with
    | error e => simp [hpart, bind, Except.bind] at h
    | ok next =>
      rw [hpart] at h
      obtain ⟨hnodup, hzero⟩ := addPort_ok hpart hnodup hzero
      exact ih h hnodup hzero

theorem PortList.proper_of_fromStr {s : String} {list : PortList}
    (h : PortList.fromStr s = .ok list) : list.Proper := by
  rw [PortList.fromStr] at h
  cases hports : (s.toList.splitOn ',').foldlM addPort [] with
  | error e => simp [hports, bind, Except.bind] at h
  | ok ports =>
    simp only [hports, bind, Except.bind] at h
    split_ifs at h with hempty
    obtain rfl := Except.ok.inj h
    obtain ⟨hnodup, hzero⟩ := foldlM_addPort_ok hports List.nodup_nil (by simp)
    exact ⟨hempty, hnodup, hzero⟩

theorem trim_digits (n : ℕ) : trim (Nat.toDigits 10 n) = Nat.toDigits 10 n := by
  apply trim_of_word
  intro c hc
  have hblank : ∀ d < 10, isWhiteSpace (Nat.digitChar d) = false := by decide
  obtain ⟨d, hd, rfl⟩ := toDigits_digits (by decide) (by decide) n c hc
  exact hblank d hd

theorem addPort_digits {ports : List UInt16} {port : UInt16} (hzero : port ≠ 0)
    (hmem : port ∉ ports) :
    addPort ports (Nat.toDigits 10 port.toNat) = .ok (ports ++ [port]) := by
  have hnat : port.toNat ≠ 0 := fun heq => hzero (UInt16.toNat_inj.mp heq)
  have hparse : parseUnsigned 65536 (Nat.toDigits 10 port.toNat) = some port.toNat :=
    parseUnsigned_toDigits port.toNat_lt
  simp [addPort, trim_digits, hparse, hnat, hmem]

theorem foldlM_addPort_digits {ports more : List UInt16} (hnodup : (ports ++ more).Nodup)
    (hzero : ∀ port ∈ more, port ≠ 0) :
    (more.map fun port => Nat.toDigits 10 port.toNat).foldlM addPort ports =
      .ok (ports ++ more) := by
  induction more generalizing ports with
  | nil => simp [pure, Except.pure]
  | cons port more ih =>
    obtain ⟨hport, hmore⟩ := List.forall_mem_cons.mp hzero
    have hmem : port ∉ ports := by
      intro hmem
      exact (List.nodup_append.mp hnodup).2.2 port hmem port List.mem_cons_self rfl
    have hnext : (ports ++ [port] ++ more).Nodup := by simpa using hnodup
    have hrest := ih hnext hmore
    rw [List.append_assoc, List.singleton_append] at hrest
    rw [List.map_cons, List.foldlM_cons, addPort_digits hport hmem]
    exact hrest

theorem splitOn_display {ports : List UInt16} (hne : ports ≠ []) :
    ((PortList.mk ports).display.toList).splitOn ',' =
      ports.map fun port => Nat.toDigits 10 port.toNat := by
  have hparts : (PortList.mk ports).display.toList =
      [','].intercalate (ports.map fun port => Nat.toDigits 10 port.toNat) := by
    simp [PortList.display, Function.comp_def]
  rw [hparts]
  apply List.splitOn_intercalate
  · intro part hpart hcomma
    obtain ⟨port, _, rfl⟩ := List.mem_map.mp hpart
    exact absurd (Nat.isDigit_of_mem_toDigits (by decide) (by decide) hcomma) (by decide)
  · simpa using hne

theorem PortList.fromStr_display {list : PortList} (h : list.Proper) :
    PortList.fromStr list.display = .ok list := by
  obtain ⟨ports⟩ := list
  have hfold := @foldlM_addPort_digits [] ports h.nodup h.ne_zero
  rw [PortList.fromStr, splitOn_display h.ne_nil, hfold]
  simp [bind, Except.bind, h.ne_nil, pure, Except.pure]

section Upstreams
variable {env env' : Env}

theorem not_mem_display {c : Char} (addr : SocketAddr)
    (hc : ¬ (IsAddrChar c ∨ c ∈ ['[', ']', '%'])) : c ∉ addr.display.toList :=
  fun hmem => hc (SocketAddr.mem_display hmem)

/-- The text of an address begins with no scheme. -/
theorem stripPrefix_display {start : String} (addr : SocketAddr) {c : Char} (hc : c ∈ start.toList)
    (hother : ¬ (IsAddrChar c ∨ c ∈ ['[', ']', '%'])) :
    stripPrefix start addr.display = none := by
  rw [Option.eq_none_iff_forall_ne_some]
  intro rest heq
  apply not_mem_display addr hother
  rw [stripPrefix_eq_some_iff.mp heq, String.toList_append]
  exact List.mem_append_left _ hc

theorem not_addrChar_of_scheme : ∀ c ∈ ['h', 's', '/', '@'],
    ¬ (IsAddrChar c ∨ c ∈ ['[', ']', '%']) := by
  unfold IsAddrChar
  exact List.all_iff_forall_prop.mp (by decide)

/-- An upstream as it can be read from a text. -/
def DnsUpstream.withoutFlowinfo : DnsUpstream → DnsUpstream
  | .udp addr => .udp addr.withoutFlowinfo
  | .https url => .https url

theorem DnsUpstream.fromStr_display {s : String} {upstream : DnsUpstream}
    (h : DnsUpstream.fromStr env s = .ok upstream) :
    DnsUpstream.fromStr env' upstream.display = .ok upstream.withoutFlowinfo := by
  rw [DnsUpstream.fromStr] at h
  cases hstrip : stripPrefix "https://" s with
  | some rest =>
    rw [hstrip] at h
    obtain rfl := Except.ok.inj h
    simp only [DnsUpstream.display, DnsUpstream.fromStr, hstrip, DnsUpstream.withoutFlowinfo]
  | none =>
    rw [hstrip] at h
    cases haddr : resolveDnsUpstreamAddr env s with
    | error e => simp [haddr, Except.map] at h
    | ok addr =>
      rw [haddr] at h
      obtain rfl := Except.ok.inj h
      have hscheme : stripPrefix "https://" addr.display = none :=
        stripPrefix_display addr (c := 'h') (by simp) (not_addrChar_of_scheme 'h' (by simp))
      simp only [DnsUpstream.display, DnsUpstream.fromStr, hscheme, resolveDnsUpstreamAddr,
        SocketAddr.parse_display, DnsUpstream.withoutFlowinfo]
      rfl

theorem parseUpstreamAddr_display (addr : SocketAddr) :
    parseUpstreamAddr env addr.display = .ok addr.withoutFlowinfo := by
  simp only [parseUpstreamAddr, SocketAddr.parse_display]

/-- User names end at the first colon. -/
theorem no_colon_of_parseUserinfo {rest username password addrStr : String}
    (h : parseUserinfo rest = .ok (.usernamePassword username password, addrStr)) :
    ':' ∉ username.toList := by
  rw [parseUserinfo] at h
  cases hat : rsplitOnce '@' rest.toList with
  | none => simp [hat] at h
  | some parts =>
    obtain ⟨userinfo, addrPart⟩ := parts
    cases hcolon : splitOnce ':' userinfo with
    | none => simp [hat, hcolon] at h
    | some credentials =>
      obtain ⟨user, pass⟩ := credentials
      simp only [hat, hcolon] at h
      cases huser : validateSocks5Credential "username" (String.ofList user) with
      | error e => simp [huser, bind, Except.bind] at h
      | ok _ =>
        cases hpass : validateSocks5Credential "password" (String.ofList pass) with
        | error e => simp [huser, hpass, bind, Except.bind] at h
        | ok _ =>
          simp only [huser, hpass, bind, Except.bind, pure, Except.pure, Except.ok.injEq,
            Prod.mk.injEq, ProxyAuth.usernamePassword.injEq] at h
          obtain ⟨⟨rfl, -⟩, -⟩ := h
          rw [String.toList_ofList]
          exact (eq_append_of_splitOnce hcolon).2

theorem no_colon_of_fromStr {s username password : String} {proxy : UpstreamProxy}
    (h : UpstreamProxy.fromStr env s = .ok proxy)
    (hauth : proxy.protocol = .socks5 (.usernamePassword username password)) :
    ':' ∉ username.toList := by
  rw [UpstreamProxy.fromStr] at h
  cases hstrip : stripPrefix "socks5://" s with
  | none =>
    rw [hstrip] at h
    cases haddr : parseUpstreamAddr env ((stripPrefix "http://" s).getD s) with
    | error e => simp [haddr, Except.mapError, bind, Except.bind] at h
    | ok addr =>
      simp only [haddr, Except.mapError, bind, Except.bind, pure, Except.pure,
        Except.ok.injEq] at h
      subst h
      cases hauth
  | some rest =>
    rw [hstrip] at h
    cases huserinfo : parseUserinfo rest with
    | error e => simp [huserinfo, bind, Except.bind] at h
    | ok found =>
      obtain ⟨auth, addrStr⟩ := found
      cases haddr : parseUpstreamAddr env addrStr with
      | error e => simp [huserinfo, haddr, Except.mapError, bind, Except.bind] at h
      | ok addr =>
        simp only [huserinfo, haddr, Except.mapError, bind, Except.bind, pure, Except.pure,
          Except.ok.injEq] at h
        subst h
        obtain rfl := ProxyProtocol.socks5.inj hauth
        exact no_colon_of_parseUserinfo huserinfo

/-- What the text of a proxy is read as: without the password it is refused. -/
def UpstreamProxy.reread (proxy : UpstreamProxy) : Except String UpstreamProxy :=
  match proxy.protocol with
  | .socks5 (.usernamePassword username _) =>
    .error ("invalid socks5 userinfo '" ++ username ++ "': expected user:pass")
  | protocol => .ok { protocol, addr := proxy.addr.withoutFlowinfo }

theorem stripPrefix_append (start rest : String) : stripPrefix start (start ++ rest) = some rest :=
  stripPrefix_eq_some_iff.mpr rfl

theorem UpstreamProxy.fromStr_display {s : String} {proxy : UpstreamProxy}
    (h : UpstreamProxy.fromStr env s = .ok proxy) :
    UpstreamProxy.fromStr env' (UpstreamProxy.display proxy) = UpstreamProxy.reread proxy := by
  obtain ⟨protocol, addr⟩ := proxy
  have hat : '@' ∉ addr.display.toList :=
    not_mem_display addr (not_addrChar_of_scheme '@' (by simp))
  cases protocol with
  | httpConnect =>
    have hsocks : stripPrefix "socks5://" ("http://" ++ addr.display) = none := by
      simp [stripPrefix, stripStart]
    change UpstreamProxy.fromStr env' ("http://" ++ addr.display) = _
    rw [UpstreamProxy.fromStr, hsocks]
    simp only [stripPrefix_append, Option.getD_some]
    rw [parseUpstreamAddr_display]
    rfl
  | socks5 auth =>
    cases auth with
    | none =>
      have hnone : rsplitOnce '@' addr.display.toList = none := by
        rw [rsplitOnce, splitOnce_eq_none_iff.mpr (by simpa using hat)]
        rfl
      have huserinfo : parseUserinfo addr.display = .ok (.none, addr.display) := by
        simp only [parseUserinfo, hnone]
      change UpstreamProxy.fromStr env' ("socks5://" ++ addr.display) = _
      rw [UpstreamProxy.fromStr, stripPrefix_append]
      simp only [huserinfo, bind, Except.bind]
      rw [parseUpstreamAddr_display]
      rfl
    | usernamePassword username password =>
      have hcolon := no_colon_of_fromStr h rfl
      have hcut : rsplitOnce '@' (username ++ "@" ++ addr.display).toList =
          some (username.toList, addr.display.toList) := by
        rw [String.toList_append, String.toList_append, List.append_assoc]
        exact rsplitOnce_append hat username.toList
      have htext : "socks5://" ++ username ++ "@" ++ addr.display =
          "socks5://" ++ (username ++ "@" ++ addr.display) := by
        simp only [String.append_assoc]
      have huserinfo : parseUserinfo (username ++ "@" ++ addr.display) =
          .error ("invalid socks5 userinfo '" ++ username ++ "': expected user:pass") := by
        simp only [parseUserinfo, hcut, splitOnce_eq_none_iff.mpr hcolon, String.ofList_toList]
      change UpstreamProxy.fromStr env' ("socks5://" ++ username ++ "@" ++ addr.display) = _
      rw [htext, UpstreamProxy.fromStr, stripPrefix_append]
      simp only [huserinfo]
      rfl

end Upstreams

/-- The values that are read from a text are displayed as texts of the same value, in any
environment: port lists as they are, upstreams up to the flow information that addresses are not
written with. The text of a proxy with credentials shows the user name only, and is refused. -/
theorem values_reread (env env' : Env) (s : String) :
    (∀ list, PortList.fromStr s = .ok list → PortList.fromStr list.display = .ok list) ∧
    (∀ upstream, DnsUpstream.fromStr env s = .ok upstream →
      DnsUpstream.fromStr env' upstream.display = .ok upstream.withoutFlowinfo) ∧
    ∀ proxy, UpstreamProxy.fromStr env s = .ok proxy →
      UpstreamProxy.fromStr env' (UpstreamProxy.display proxy) = UpstreamProxy.reread proxy :=
  ⟨fun _ h => PortList.fromStr_display (PortList.proper_of_fromStr h),
    fun _ h => DnsUpstream.fromStr_display h, fun _ h => UpstreamProxy.fromStr_display h⟩

/-- Two spellings of one list, and a proxy at an address with a run of zeros. -/
theorem values_reread_sample :
    PortList.fromStr (PortList.display ⟨[443, 80]⟩) = .ok ⟨[443, 80]⟩ ∧
    UpstreamProxy.fromStr { lookupHost := fun _ _ => .ok [], ifaddrs := none }
        (UpstreamProxy.display
          { protocol := .socks5 .none
            addr := .v6 (.ofSegments [0x2001, 0xdb8, 0, 0, 0, 0, 0, 1]) 1080 0 0 }) =
      .ok { protocol := .socks5 .none
            addr := .v6 (.ofSegments [0x2001, 0xdb8, 0, 0, 0, 0, 0, 1]) 1080 0 0 } := by
  let env : Env := { lookupHost := fun _ _ => .ok [], ifaddrs := none }
  have hports : PortList.fromStr "443, 80,443" = .ok ⟨[443, 80]⟩ := by decide
  have hproxy : UpstreamProxy.fromStr env "socks5://[2001:db8::1]:1080" =
      .ok { protocol := .socks5 .none
            addr := .v6 (.ofSegments [0x2001, 0xdb8, 0, 0, 0, 0, 0, 1]) 1080 0 0 } := by
    decide
  exact ⟨(values_reread env env "443, 80,443").1 _ hports,
    (values_reread env env "socks5://[2001:db8::1]:1080").2.2 _ hproxy⟩

end TransProxy.Config
