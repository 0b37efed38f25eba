import TransProxy.Service.FilteredConfig
import TransProxy.Service.UnitQuoting
import TransProxy.Service.WrapperText

/-!
# What the installed service runs

`main` looks at the flags of the lifecycle in a fixed order. The commands in the unit file and in
the wrapper come back to it as the setup, the proxy and the teardown that the installation was
asked for.
-/
namespace TransProxy.Service
open Library Net CommandLine Config Firewall

/-- What `main` does with a configuration. -/
inductive Mode where
  | uninstall
  | install
  | start
  | stop
  | teardownFirewall
  | setupFirewall (fw : FirewallConfig)
  | serve (config : Config)

def modeOf (env : Env) (config : Config) : Mode :=
  if config.uninstall then .uninstall
  else if config.install then .install
  else if config.start then .start
  else if config.stop then .stop
  else if config.teardownFirewall then .teardownFirewall
  else if config.setupFirewall then .setupFirewall (.fromConfig env config)
  else .serve config

/-- The process of a command, given its words; `none` if the arguments are refused, or the program
is another one. -/
def runWords (env : Env) (platform : Platform) : List (List Char) → Option Mode
  | [] => none
  | program :: args =>
    if program = installBin.toList then
      (Config.parse env platform (args.map String.ofList)).map (modeOf env)
    else none

/-- The teardown is asked for, and everything else has its default. -/
def teardownConfig (platform : Platform) : Config :=
  { listenAddr := .v4 .unspecified 8443, upstreamProxy := none, logLevel := "info", dns := false
    dnsListen := none, dnsUpstream := .https "https://cloudflare-dns.com/dns-query"
    dnsStripAaaa := false, interface := platform.defaultInterface, daemon := false
    pidFile := "/var/run/trans_proxy.pid", logFile := none, localTraffic := false
    proxyUser := "trans_proxy", fwmark := 1, gateway := false, sni := false, ports := none
    allowQuic := false, install := false, uninstall := false, start := false, stop := false
    setupFirewall := false, teardownFirewall := true }

section Modes
variable {env : Env} {platform : Platform} {args : List String} {c : Config}

theorem runWords_words : runWords env platform (Command.words ⟨installBin, args⟩) =
    (Config.parse env platform args).map (modeOf env) := by
  have hargs : (args.map String.toList).map String.ofList = args := by
    simp [Function.comp_def]
  simp only [runWords, Command.words, List.map_cons, if_true, hargs]

/-- A proxy that is to run has an upstream. -/
theorem upstreamProxy_of_serve (hparse : Config.parse env platform args = some c)
    (hmode : modeOf env c = .serve c) : c.upstreamProxy.isSome = true := by
  obtain ⟨_, _, _, _, hrequired⟩ := parse_eq_some_iff.mp hparse
  simp only [modeOf] at hmode
  split_ifs at hmode with h1 h2 h3 h4 h5 h6
  simpa [hasRequired, h1, h3, h4, h5] using hrequired

theorem parse_teardown :
    Config.parse env platform ["--teardown-firewall"] = some (teardownConfig platform) := by
  let tokens : List (Token Opt) := [.switch "--teardown-firewall" .teardownFirewall]
  have hvalid : ∀ t ∈ tokens, t.Valid spec := by
    have hfind : spec.find "--teardown-firewall" = some (.teardownFirewall, .switch) := by
      decide
    exact List.forall_mem_singleton.mpr hfind
  have hlisten : SocketAddr.parse "0.0.0.0:8443" = some (.v4 .unspecified 8443) := by
    decide
  have hgiven : Given env platform (valueOf tokens) (present tokens) (teardownConfig platform) := by
    constructor
    case listenAddr => exact hlisten
    case dnsUpstream =>
      have hurl : "https://cloudflare-dns.com/dns-query" =
          "https://" ++ "cloudflare-dns.com/dns-query" := by decide
      have hnone : valueOf tokens .dnsUpstream = none := rfl
      rw [hnone, Option.getD_none, DnsUpstream.fromStr, stripPrefix_eq_some_iff.mpr hurl]
      rfl
    case fwmark =>
      have hdefault : parseU32 "1".toList = some 1 := by decide
      exact hdefault
    all_goals rfl
  exact parse_eq_some_iff.mpr ⟨tokens, tokenize_render hvalid, by decide, hgiven, rfl⟩

/-- The commands of a service whose arguments are those of a configuration. -/
theorem runWords_teardown :
    runWords env platform teardownCommand.words = some .teardownFirewall := by
  rw [teardownCommand, runWords_words, parse_teardown]
  rfl

theorem runWords_proxy (hparse : Config.parse env platform args = some c)
    (hupstream : c.upstreamProxy.isSome = true) :
    runWords env platform (proxyCommand args).words = some (.serve (withoutLifecycle c)) := by
  rw [proxyCommand, runWords_words, parse_filterServiceArgs hparse hupstream]
  rfl

theorem runWords_setup (withFwmark : Bool) (hplain : PlainValues args)
    (hparse : Config.parse env platform args = some c)
    (hupstream : c.upstreamProxy.isSome = true) :
    runWords env platform (Command.words ⟨installBin, setupArgs ((setupOptions withFwmark).map
      Prod.fst) (setupSwitches.map Prod.fst) (filterServiceArgs args)⟩) =
        some (.setupFirewall (.fromConfig env
          (setupConfig c (if withFwmark then c.fwmark else 1)))) := by
  rw [runWords_words, parse_setupArgs withFwmark hplain hparse, if_pos hupstream]
  rfl

theorem runWords_unitSetup (hplain : PlainValues args)
    (hparse : Config.parse env platform args = some c)
    (hupstream : c.upstreamProxy.isSome = true) : runWords env platform (unitSetup args).words =
      some (.setupFirewall (.fromConfig env (setupConfig c c.fwmark))) :=
  runWords_setup true hplain hparse hupstream

theorem runWords_wrapperSetup (hplain : PlainValues args)
    (hparse : Config.parse env platform args = some c)
    (hupstream : c.upstreamProxy.isSome = true) : runWords env platform (wrapperSetup args).words =
      some (.setupFirewall (.fromConfig env (setupConfig c 1))) :=
  runWords_setup false hplain hparse hupstream

/-- Without the options of the lifecycle, the rules are the same. -/
theorem fromConfig_withoutLifecycle :
    FirewallConfig.fromConfig env (withoutLifecycle c) = FirewallConfig.fromConfig env c := rfl

end Modes

section Unit
variable {args : List String}

/-- The settings that are commands. -/
def commandKeys : List String := ["ExecStartPre", "ExecStart", "ExecStopPost"]

theorem unitHead_commands : ∃ head, unitHead.toList = head ++ ['\n'] ∧
    head.foldl UnitFile.escapeStep false = false ∧
      ∀ key ∈ commandKeys, UnitFile.settings key.toList head = [] := by
  refine ⟨unitHead.toList.dropLast, ?_⟩
  unfold unitHead
  simp only [String.toList_append, -String.reduceToList]
  iterate 7 rw [String.toList_ofList]
  decide +kernel

theorem settings_unitTail :
    ∀ key ∈ commandKeys, UnitFile.settings key.toList unitTail.toList = [] := by
  unfold unitTail
  simp only [String.toList_append, -String.reduceToList]
  iterate 10 rw [String.toList_ofList]
  decide +kernel

/-- A line of the unit file that sets a command. -/
theorem settings_command {key name : String} {words rest : List Char}
    (hname : '=' ∉ name.toList ∧ '\x5c' ∉ name.toList ∧ UnitFile.OneLine name.toList)
    (hwords : words.foldl UnitFile.escapeStep false = false) (hline : UnitFile.OneLine words) :
    UnitFile.settings key.toList
        (name.toList ++ '=' :: (installBin.toList ++ words) ++ '\n' :: rest) =
      (if name = key then [installBin.toList ++ words] else []) ++
        UnitFile.settings key.toList rest := by
  rw [UnitFile.settings_append rfl (foldl_assignment hname.2.1 hwords),
    UnitFile.settings_of_line hname.1 (oneLine_assignment hname.2.2 hline)]
  simp only [String.toList_inj]

theorem toList_unitBehind : unitBehind.toList = "ExecStopPost".toList ++ '=' ::
    (installBin.toList ++ argWords teardownCommand.args) ++ '\n' :: unitTail.toList := by
  have hkey : "ExecStopPost=" = "ExecStopPost" ++ "=" := by decide
  have hend : "\n".toList = ['\n'] := by decide
  rw [unitBehind, hkey, ← teardown_text.1, String.toList_append, String.toList_append,
    toList_assignment, hend, List.append_assoc, List.singleton_append]
  rfl

/-- The three commands are set, and nothing else is. -/
theorem settings_commands (h : ∀ arg ∈ filterServiceArgs args, UnitFile.OneLine arg.toList)
    {key : String} (hkey : key ∈ commandKeys) :
    UnitFile.settings key.toList (generateUnit args).toList =
      (if "ExecStartPre" = key then [installBin.toList ++ argWords (unitSetupArgs args)]
      else []) ++
      ((if "ExecStart" = key then [installBin.toList ++ argWords (filterServiceArgs args)]
      else []) ++
      if "ExecStopPost" = key then [installBin.toList ++ argWords teardownCommand.args]
      else []) := by
  have hsetup : ∀ arg ∈ unitSetupArgs args, UnitFile.OneLine arg.toList :=
    oneLine_setupArgs (by decide) h
  obtain ⟨head, htext, hfold, hhead⟩ := unitHead_commands
  have hnames : ∀ name ∈ commandKeys,
      '=' ∉ name.toList ∧ '\x5c' ∉ name.toList ∧ UnitFile.OneLine name.toList := by
    decide
  have hteardown : UnitFile.OneLine (argWords teardownCommand.args) :=
    oneLine_argWords (by decide)
  rw [toList_generateUnit, toList_unitBefore, htext, toList_unitBehind, List.append_assoc,
    List.append_assoc, List.singleton_append, UnitFile.settings_append rfl hfold, hhead key hkey,
    List.nil_append, settings_command (hnames _ (by simp [commandKeys])) (foldl_argWords _)
      (oneLine_argWords hsetup),
    settings_command (hnames _ (by simp [commandKeys])) (foldl_argWords _) (oneLine_argWords h),
    settings_command (hnames _ (by simp [commandKeys])) (foldl_argWords _) hteardown,
    settings_unitTail key hkey, List.append_nil]

/-- The processes that a setting of the unit file starts. -/
def unitModes (env : Env) (args : List String) (key : String) : List (Option Mode) :=
  (UnitFile.settings key.toList (generateUnit args).toList).map fun value =>
    (UnitFile.splitCommand value).bind (runWords env .linux)

theorem splitCommand_argWords (args : List String) :
    UnitFile.splitCommand (installBin.toList ++ argWords args) =
      some (Command.words ⟨installBin, args⟩) := by
  rw [← toList_systemdCommand, splitCommand_systemdCommand]
  rfl

end Unit

/-- As systemd reads the unit file and clap the arguments, the service sets the firewall up, runs
the proxy with the configuration of the installation, and tears down. The rules are those of the
proxy that runs unless QUIC may pass. -/
theorem unit_runs {env : Env} {args : List String} {c : Config}
    (hparse : Config.parse env .linux args = some c) (hupstream : c.upstreamProxy.isSome = true)
    (hplain : PlainValues args)
    (hline : ∀ arg ∈ filterServiceArgs args, UnitFile.OneLine arg.toList) :
    unitModes env args "ExecStartPre" =
        [some (.setupFirewall (.fromConfig env (setupConfig c c.fwmark)))] ∧
      unitModes env args "ExecStart" = [some (.serve (withoutLifecycle c))] ∧
      unitModes env args "ExecStopPost" = [some .teardownFirewall] ∧
      (FirewallConfig.fromConfig env (setupConfig c c.fwmark) =
        .fromConfig env (withoutLifecycle c) ↔ c.allowQuic = false) := by
  have hmodes : ∀ key ∈ commandKeys, unitModes env args key =
      (if "ExecStartPre" = key then [runWords env .linux (unitSetup args).words] else []) ++
      ((if "ExecStart" = key then [runWords env .linux (proxyCommand args).words] else []) ++
        if "ExecStopPost" = key then [runWords env .linux teardownCommand.words] else []) := by
    intro key hkey
    rw [unitModes, settings_commands hline hkey]
    simp only [List.map_append, apply_ite (List.map _), List.map_cons, List.map_nil,
      splitCommand_argWords, Option.bind_some]
    rfl
  refine ⟨?_, ?_, ?_, ?_⟩
  · rw [hmodes _ (by simp [commandKeys]), runWords_unitSetup hplain hparse hupstream]
    simp
  · rw [hmodes _ (by simp [commandKeys]), runWords_proxy hparse hupstream]
    simp
  · rw [hmodes _ (by simp [commandKeys]), runWords_teardown]
    simp
  · rw [fromConfig_withoutLifecycle, fromConfig_setupConfig_eq_iff]
    simp

/-- The setup has the mark, and the proxy is not told to install itself again. -/
theorem unit_runs_sample : ∃ c, Config.parse exampleEnv .linux markedArgs = some c ∧
    c.install = true ∧ c.fwmark = 7 ∧
      unitModes exampleEnv markedArgs "ExecStartPre" =
        [some (.setupFirewall (.fromConfig exampleEnv (setupConfig c 7)))] ∧
      unitModes exampleEnv markedArgs "ExecStart" = [some (.serve (withoutLifecycle c))] := by
  have hfields : (Config.parse exampleEnv .linux markedArgs).map
      (fun c => (c.install, c.upstreamProxy.isSome, c.fwmark)) = some (true, true, 7) := by
    decide
  obtain ⟨c, hparse, hc⟩ := Option.map_eq_some_iff.mp hfields
  simp only [Prod.mk.injEq] at hc
  obtain ⟨hinstall, hupstream, hmark⟩ := hc
  obtain ⟨hsetup, hstart, -, -⟩ :=
    unit_runs hparse hupstream (by decide) (by decide)
  rw [hmark] at hsetup
  exact ⟨c, hparse, hinstall, hmark, hsetup, hstart⟩

/-- The wrapper as the shell reads it, with the processes of its commands. -/
def wrapperModes (env : Env) (args : List String) : Option (List (Stmt (Option Mode))) :=
  (ShellWords.readScript (generateWrapper args).toList).map
    (List.map (Stmt.map (runWords env .macos)))

/-- The same for the wrapper. The setup is not told of the mark, which the rules of pf do not
have. -/
theorem wrapper_runs {env : Env} {args : List String} {c : Config}
    (hparse : Config.parse env .macos args = some c) (hupstream : c.upstreamProxy.isSome = true)
    (hplain : PlainValues args) :
    wrapperModes env args = some [.errexit, .trapExit [some .teardownFirewall],
        .run (some (.setupFirewall (.fromConfig env (setupConfig c 1)))),
        .exec (some (.serve (withoutLifecycle c)))] ∧
      (FirewallConfig.fromConfig env (setupConfig c 1) = .fromConfig env (withoutLifecycle c) ↔
        c.allowQuic = false ∧ (c.localTraffic = true → c.fwmark = 1)) := by
  constructor
  · have hmodes : wrapperModes env args = some [.errexit,
        .trapExit [runWords env .macos teardownCommand.words],
        .run (runWords env .macos (wrapperSetup args).words),
        .exec (runWords env .macos (proxyCommand args).words)] := by
      rw [wrapperModes, readScript_wrapper]
      rfl
    rw [hmodes, runWords_teardown, runWords_wrapperSetup hplain hparse hupstream,
      runWords_proxy hparse hupstream]
  · rw [fromConfig_withoutLifecycle, fromConfig_setupConfig_eq_iff, eq_comm (a := (1 : UInt32))]

theorem wrapper_runs_sample : ∃ c, Config.parse exampleEnv .macos markedArgs = some c ∧
    wrapperModes exampleEnv markedArgs = some [.errexit, .trapExit [some .teardownFirewall],
      .run (some (.setupFirewall (.fromConfig exampleEnv (setupConfig c 1)))),
      .exec (some (.serve (withoutLifecycle c)))] := by
  have hfields : (Config.parse exampleEnv .macos markedArgs).map
      (fun c => c.upstreamProxy.isSome) = some true := by
    decide
  obtain ⟨c, hparse, hupstream⟩ := Option.map_eq_some_iff.mp hfields
  exact ⟨c, hparse, (wrapper_runs hparse hupstream (by decide)).1⟩

end TransProxy.Service
