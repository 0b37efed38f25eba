import TransProxy.Service.Agreement

/-!
# The configuration of the service that runs

The filtered arguments are accepted again, and what they say differs from what all the arguments
say in the options of the lifecycle only.
-/
namespace TransProxy.Service
open Library CommandLine Config

/-- The configuration without the options that `filter_service_args` leaves out. -/
def withoutLifecycle (c : Config) : Config :=
  { c with
    daemon := false
    pidFile := "/var/run/trans_proxy.pid"
    logFile := none
    install := false
    uninstall := false
    start := false
    stop := false
    setupFirewall := false
    teardownFirewall := false }

section Parsed
variable {env : Env} {platform : Platform} {tokens : List (Token Opt)} {c : Config}
  {args : List String} {id : Opt}

theorem valueOf_filter_of_service (h : isServiceOption id = true) :
    valueOf (tokens.filter (fun t => !isServiceOption t.id)) id = none := by
  rw [valueOf_filter_id (fun id => !isServiceOption id), h]
  rfl

theorem present_filter_of_service (h : isServiceOption id = true) :
    present (tokens.filter (fun t => !isServiceOption t.id)) id = false := by
  rw [present_filter_id (fun id => !isServiceOption id), h]
  rfl

/-- Each field of the filtered configuration comes from the tokens that are kept. -/
theorem given_withoutLifecycle (h : Given env platform (valueOf tokens) (present tokens) c) :
    Given env platform (valueOf (tokens.filter (fun t => !isServiceOption t.id)))
      (present (tokens.filter (fun t => !isServiceOption t.id))) (withoutLifecycle c) where
  listenAddr := by
    rw [valueOf_filter rfl]
    exact h.listenAddr
  upstreamProxy := by
    rw [valueOf_filter rfl]
    exact h.upstreamProxy
  logLevel := by
    rw [valueOf_filter rfl]
    exact h.logLevel
  dns := by
    rw [present_filter rfl]
    exact h.dns
  dnsListen := by
    rw [valueOf_filter rfl]
    exact h.dnsListen
  dnsUpstream := by
    rw [valueOf_filter rfl]
    exact h.dnsUpstream
  dnsStripAaaa := by
    rw [present_filter rfl]
    exact h.dnsStripAaaa
  interface := by
    rw [valueOf_filter rfl]
    exact h.interface
  daemon := (present_filter_of_service rfl).symm
  pidFile := by
    rw [valueOf_filter_of_service rfl]
    rfl
  logFile := by
    rw [valueOf_filter_of_service rfl]
    rfl
  localTraffic := by
    rw [present_filter rfl]
    exact h.localTraffic
  proxyUser := by
    rw [valueOf_filter rfl]
    exact h.proxyUser
  fwmark := by
    rw [valueOf_filter rfl]
    exact h.fwmark
  gateway := by
    rw [present_filter rfl]
    exact h.gateway
  sni := by
    rw [present_filter rfl]
    exact h.sni
  ports := by
    rw [valueOf_filter rfl]
    exact h.ports
  allowQuic := by
    rw [present_filter rfl]
    exact h.allowQuic
  install := (present_filter_of_service rfl).symm
  uninstall := (present_filter_of_service rfl).symm
  start := (present_filter_of_service rfl).symm
  stop := (present_filter_of_service rfl).symm
  setupFirewall := (present_filter_of_service rfl).symm
  teardownFirewall := (present_filter_of_service rfl).symm

theorem parse_filterServiceArgs (hparse : Config.parse env platform args = some c)
    (hupstream : c.upstreamProxy.isSome = true) :
    Config.parse env platform (filterServiceArgs args) = some (withoutLifecycle c) := by
  obtain ⟨tokens, htokens, hnodup, hgiven, -⟩ := parse_eq_some_iff.mp hparse
  obtain ⟨rfl, hvalid⟩ := render_of_tokenize htokens
  rw [filterServiceArgs, filterFrom_render hvalid, parse_eq_some_iff]
  refine ⟨_, tokenize_render (fun t ht => hvalid t (List.mem_of_mem_filter ht)), ?_,
    given_withoutLifecycle hgiven, ?_⟩
  · exact hnodup.sublist (List.filter_sublist.map Token.id)
  · simp [hasRequired, withoutLifecycle, hupstream]

end Parsed

section Again
variable {args : List String}

def IsKept (arg : String) : Prop := arg ∉ skipFlags ∧ matchValueOption arg skipWithValue = none

theorem isKept_of_mem_filterFrom {skipNext : Bool} {arg : String}
    (h : arg ∈ filterFrom skipNext args) : IsKept arg := by
  fun_induction filterFrom skipNext args with
  | case1 => cases h
  | case2 _ args ih => exact ih h
  | case3 _ args _ ih => exact ih h
  | case4 _ args _ _ _ ih => exact ih h
  | case5 head args hflag hmatch ih =>
    rcases List.mem_cons.mp h with rfl | hmem
    · exact ⟨hflag, hmatch⟩
    · exact ih hmem

theorem filterFrom_eq_self (h : ∀ arg ∈ args, IsKept arg) : filterFrom false args = args := by
  induction args with
  | nil => rfl
  | cons arg args ih =>
    obtain ⟨hflag, hmatch⟩ := h arg List.mem_cons_self
    have hrest := ih (fun arg hmem => h arg (List.mem_cons_of_mem _ hmem))
    simp [filterFrom, hflag, hmatch, hrest]

theorem filterServiceArgs_again (args : List String) :
    filterServiceArgs (filterServiceArgs args) = filterServiceArgs args :=
  filterFrom_eq_self fun _ => isKept_of_mem_filterFrom

end Again

/-- Filtering takes the lifecycle out of the configuration and changes nothing else, and filtering
again takes nothing out. -/
theorem filterServiceArgs_frame (env : Env) (platform : Platform) :
    (∀ args c, Config.parse env platform args = some c → c.install = true →
      c.upstreamProxy.isSome = true →
      Config.parse env platform (filterServiceArgs args) = some (withoutLifecycle c)) ∧
    ∀ args, filterServiceArgs (filterServiceArgs args) = filterServiceArgs args :=
  ⟨fun _ _ hparse _ hupstream => parse_filterServiceArgs hparse hupstream, filterServiceArgs_again⟩

def daemonArgs : List String :=
  ["-d", "--interface=eth1", "--pid-file", "/tmp/proxy.pid", "--install", "--log-file=/tmp/log",
    "--upstream-proxy", "127.0.0.1:1082"]

theorem filterServiceArgs_frame_sample :
    ∃ c, Config.parse exampleEnv .linux daemonArgs = some c ∧ c.daemon = true ∧
      Config.parse exampleEnv .linux ["--interface=eth1", "--upstream-proxy", "127.0.0.1:1082"] =
        some (withoutLifecycle c) := by
  have hfields : (Config.parse exampleEnv .linux daemonArgs).map
      (fun c => (c.daemon, c.install, c.upstreamProxy.isSome)) = some (true, true, true) := by
    decide
  have hfiltered : filterServiceArgs daemonArgs =
      ["--interface=eth1", "--upstream-proxy", "127.0.0.1:1082"] := by
    decide
  obtain ⟨c, hparse, hc⟩ := Option.map_eq_some_iff.mp hfields
  simp only [Prod.mk.injEq] at hc
  obtain ⟨hdaemon, hinstall, hupstream⟩ := hc
  refine ⟨c, hparse, hdaemon, ?_⟩
  rw [← hfiltered]
  exact (filterServiceArgs_frame exampleEnv .linux).1 daemonArgs c hparse hinstall hupstream

end TransProxy.Service
