import TransProxy.Service.Installed

/-!
# What a completed installation is

An installation that succeeds has put the running binary and the generated texts in their places,
and it told the service manager to start the service once, when all was there. Nothing else on the
host was written to.
-/
namespace TransProxy.Service
open Library Script

/-- `R` holds at the end of the script, if it succeeds. -/
abbrev Establishes {α : Type} (P : Host → Prop) (s : ServiceScript α) (R : α → Host → Prop) :
    Prop :=
  Maintains (fun _ => True) P s R

section Steps
variable {P R : Host → Prop} {op : Op} {cmd context : String} {args : List String}

theorem eq_ok_of_isOk {answer : Answer} (h : answer.isOk) : answer = .ok := by
  cases answer with
  | ok => rfl
  | _ => cases h

theorem eq_ok_of_runCmd {answer : Answer} (h : runCmdError cmd answer = none) : answer = .ok := by
  cases answer with
  | ok => rfl
  | _ => cases h

theorem establishes_orFail (hstep : ∀ h, P h → R (op.effect .ok h)) :
    Establishes P (orFail context op) fun _ => R := by
  apply upholds_check (fun _ _ => trivial)
  intro h answer hh _
  refine ⟨trivial, fun hok => ?_⟩
  rw [eq_ok_of_isOk (isOk_of_orFail hok)]
  exact hstep h hh

theorem establishes_runCmd (hstep : ∀ h, P h → R ((Op.run cmd args).effect .ok h)) :
    Establishes P (runCmd cmd args) fun _ => R := by
  apply upholds_check (fun _ _ => trivial)
  intro h answer hh _
  refine ⟨trivial, fun hok => ?_⟩
  rw [eq_ok_of_runCmd hok]
  exact hstep h hh

theorem establishes_ignore (hstep : ∀ h answer, P h → R (op.effect answer h)) :
    Establishes P (Script.ignore op) fun _ => R := by
  apply upholds_ignore (fun _ _ => trivial)
  exact fun h answer hh _ => ⟨trivial, hstep h answer hh⟩

end Steps

/-- The running binary is in its place, and it can be run. -/
def Host.HasBinary (exe : Exe) (h : Host) : Prop :=
  h.file installBin = some { exe.file with executable := true }

def Host.HasText (path text : String) (h : Host) : Prop :=
  (h.file path).map File.content = some text

/-- What the installations make of the files, and of the service manager. -/
def Host.Complete (exe : Exe) (args : List String) : Manager → Host → Prop
  | .systemd, h => h.HasBinary exe ∧ h.HasText unitPath (generateUnit args) ∧
      h.loaded = some (generateUnit args)
  | .launchd, h => h.HasBinary exe ∧ h.HasText plistPath (generatePlist args) ∧
      h.file wrapperPath = some { content := generateWrapper args, executable := true }

theorem hasBinary_put {exe : Exe} {h : Host} {path : String} {file : Option File}
    (hne : installBin ≠ path) (hh : h.HasBinary exe) : (h.put path file).HasBinary exe := by
  rw [Host.HasBinary, put_file_of_ne file hne]
  exact hh

theorem hasText_put_self {h : Host} {path text : String} {executable : Bool} :
    (h.put path (some ⟨text, executable⟩)).HasText path text := by
  rw [Host.HasText, put_file_self]
  rfl

theorem hasText_put {h : Host} {path text other : String} {file : Option File}
    (hne : path ≠ other) (hh : h.HasText path text) : (h.put other file).HasText path text := by
  rw [Host.HasText, put_file_of_ne file hne]
  exact hh

theorem hasText_setMode {h : Host} {path text other mode : String} (hh : h.HasText path text) :
    (h.setMode other mode).HasText path text := by
  by_cases hp : path = other
  · subst hp
    rw [Host.setMode, Host.HasText, put_file_self, Option.map_map]
    exact hh
  · exact hasText_put hp hh

section Installations
variable (exe : Exe) (args : List String)
  (started : List ((String → Option File) × Option String))

theorem establishes_installBinary :
    Establishes (fun h => h.started = started) (installBinary exe) fun _ h =>
      h.HasBinary exe ∧ h.started = started := by
  apply upholds_bind (R := fun _ h => h.started = started)
  · exact establishes_orFail fun h hh => hh
  intro _
  apply upholds_bind (R := fun _ h => h.file installBin = some exe.file ∧ h.started = started)
  · apply establishes_orFail
    intro h hh
    exact ⟨put_file_self _, hh⟩
  intro _
  apply establishes_runCmd
  rintro h ⟨hfile, hstarted⟩
  refine ⟨?_, hstarted⟩
  have hruns : (Op.run "chmod" ["755", installBin]).effect .ok h =
      h.setMode installBin "755" := rfl
  rw [hruns, Host.HasBinary, Host.setMode, put_file_self, hfile]
  rfl

theorem establishes_checkRoot {P : Host → Prop} : Establishes P checkRoot fun _ => P :=
  maintains_checkRoot fun _ _ => trivial

theorem hasBinary_removedDir {h : Host} {answer : Answer} (hh : h.HasBinary exe) :
    (h.removedDir scriptsDir answer).HasBinary exe := by
  have hplace : Host.below scriptsDir installBin = false := by decide
  cases answer <;>
    simpa [Host.HasBinary, Host.removedDir, Host.removeBelow, hplace] using hh

theorem establishes_removeLegacyScripts :
    Establishes (fun h => h.HasBinary exe ∧ h.started = started) Linux.removeLegacyScripts
      fun _ h => h.HasBinary exe ∧ h.started = started := by
  apply upholds_bind (R := fun _ h => h.HasBinary exe ∧ h.started = started)
  · exact maintains_ask (fun _ _ => trivial) fun h hh => hh
  intro b
  cases b with
  | false => exact upholds_done (fun _ _ => trivial) fun h hh => hh
  | true =>
    apply establishes_ignore
    intro h answer hh
    refine ⟨hasBinary_removedDir exe hh.1, ?_⟩
    have hstart : ¬(Op.removeDirAll scriptsDir).Starts := not_false
    rw [effect_started hstart]
    exact hh.2

theorem establishes_linux_install :
    Establishes (fun h => h.started = started) (Linux.install exe args) fun _ h =>
      h.Complete exe args .systemd ∧ h.started = started ++ [(h.file, h.loaded)] := by
  apply upholds_bind establishes_checkRoot
  intro _
  apply upholds_bind (establishes_installBinary exe started)
  intro _
  apply upholds_bind (establishes_removeLegacyScripts exe started)
  intro _
  apply upholds_bind (R := fun _ h => h.HasBinary exe ∧ h.HasText unitPath (generateUnit args) ∧
    h.started = started)
  · apply establishes_orFail
    rintro h ⟨hbinary, hstarted⟩
    exact ⟨hasBinary_put (by decide) hbinary, hasText_put_self, hstarted⟩
  intro _
  apply upholds_bind (R := fun _ h => h.Complete exe args .systemd ∧ h.started = started)
  · apply establishes_runCmd
    rintro h ⟨hbinary, hunit, hstarted⟩
    exact ⟨⟨hbinary, hunit, hunit⟩, hstarted⟩
  intro _
  apply establishes_runCmd
  rintro h ⟨hcomplete, hstarted⟩
  have hstarts : (Op.run "systemctl" ["enable", "--now", "trans_proxy"]).Starts := rfl
  rw [effect_of_starts hstarts]
  exact ⟨hcomplete, congrArg (· ++ [(h.file, h.loaded)]) hstarted⟩

theorem establishes_removeLegacy {paths : List String}
    (hpaths : ∀ path ∈ paths, path ≠ installBin) :
    Establishes (fun h => h.HasBinary exe ∧ h.started = started) (Macos.removeLegacy paths)
      fun _ h => h.HasBinary exe ∧ h.started = started := by
  induction paths with
  | nil => exact upholds_done (fun _ _ => trivial) fun h hh => hh
  | cons path paths ih =>
    obtain ⟨hpath, hrest⟩ := List.forall_mem_cons.mp hpaths
    refine upholds_bind (R := fun _ h => h.HasBinary exe ∧ h.started = started) ?_
      fun _ => ih hrest
    apply establishes_ignore
    rintro h answer ⟨hbinary, hstarted⟩
    have hstart : ¬(Op.removeFile path).Starts := not_false
    rw [effect_started hstart]
    refine ⟨?_, hstarted⟩
    simp only [Op.effect]
    split_ifs
    · exact hasBinary_put (Ne.symm hpath) hbinary
    · exact hbinary

theorem establishes_macos_install :
    Establishes (fun h => h.started = started) (Macos.install exe args) fun _ h =>
      h.Complete exe args .launchd ∧ h.started = started ++ [(h.file, h.loaded)] := by
  apply upholds_bind establishes_checkRoot
  intro _
  apply upholds_bind (establishes_installBinary exe started)
  intro _
  apply upholds_bind (R := fun _ h => h.HasBinary exe ∧ h.started = started)
  · exact establishes_orFail fun h hh => hh
  intro _
  apply upholds_bind (establishes_removeLegacy exe started (by decide))
  intro _
  apply upholds_bind (R := fun _ h => h.HasBinary exe ∧
    h.HasText wrapperPath (generateWrapper args) ∧ h.started = started)
  · apply establishes_orFail
    rintro h ⟨hbinary, hstarted⟩
    exact ⟨hasBinary_put (by decide) hbinary, hasText_put_self, hstarted⟩
  intro _
  apply upholds_bind (R := fun _ h => h.HasBinary exe ∧
    h.file wrapperPath = some ⟨generateWrapper args, true⟩ ∧ h.started = started)
  · apply establishes_runCmd
    rintro h ⟨hbinary, hwrapper, hstarted⟩
    refine ⟨hasBinary_put (by decide) hbinary, ?_, hstarted⟩
    obtain ⟨file, hfile, htext⟩ := Option.map_eq_some_iff.mp hwrapper
    have hruns : (Op.run "chmod" ["755", wrapperPath]).effect .ok h =
        h.setMode wrapperPath "755" := rfl
    rw [hruns, Host.setMode, put_file_self, hfile, ← htext]
    rfl
  intro _
  apply upholds_bind (R := fun _ h => h.Complete exe args .launchd ∧ h.started = started)
  · apply establishes_orFail
    rintro h ⟨hbinary, hwrapper, hstarted⟩
    refine ⟨⟨hasBinary_put (by decide) hbinary, hasText_put_self, ?_⟩, hstarted⟩
    exact (put_file_of_ne _ (by decide)).trans hwrapper
  intro _
  apply upholds_bind (R := fun _ h => h.Complete exe args .launchd ∧ h.started = started)
  · apply establishes_runCmd
    rintro h ⟨⟨hbinary, hplist, hwrapper⟩, hstarted⟩
    refine ⟨⟨hasBinary_put (by decide) hbinary, hasText_setMode hplist, ?_⟩, hstarted⟩
    exact (put_file_of_ne _ (by decide)).trans hwrapper
  intro _
  apply upholds_bind (R := fun _ h => h.Complete exe args .launchd ∧ h.started = started)
  · exact establishes_runCmd fun h hh => hh
  intro _
  apply upholds_check (fun _ _ => trivial)
  rintro h answer ⟨hcomplete, hstarted⟩ _
  have hstarts : (Op.run "launchctl" ["load", "-w", plistPath]).Starts := rfl
  rw [effect_of_starts hstarts]
  exact ⟨trivial, fun _ => ⟨hcomplete, congrArg (· ++ [(h.file, h.loaded)]) hstarted⟩⟩

end Installations

/-- What is at the path: a file, or a link. -/
def Host.at (h : Host) (path : String) : Option File × Option String := (h.file path, h.link path)

def Op.Touches (path : String) : Op → Prop
  | .copy _ other | .write other _ | .removeFile other => path = other
  | .removeDirAll dir => Host.below dir path
  | .run program args =>
    program = "chmod" ∧ (∃ mode, args = [mode, path]) ∨
      (enables program args).isSome ∧ path = wantsPath
  | _ => False

def ownPath (m : Manager) (path : String) : Prop :=
  path = m.marker ∨ path = installBin ∨ Host.below scriptsDir path ∨
    m = .systemd ∧ path = wantsPath

def Op.Own (m : Manager) (op : Op) : Prop := ∀ path, op.Touches path → ownPath m path

theorem linkAfter_of_ne {program : String} {args : List String} {h : Host} {path : String}
    (hpath : (enables program args).isSome → path ≠ wantsPath) :
    h.linkAfter program args path = h.link path := by
  cases henables : enables program args with
  | none => simp only [Host.linkAfter, henables]
  | some b =>
    have hne : path ≠ wantsPath := hpath (by rw [henables]; rfl)
    cases b <;> simp only [Host.linkAfter, henables, Function.update_of_ne hne]

theorem effect_of_not_touches {op : Op} {answer : Answer} {h : Host} {path : String}
    (htouch : ¬op.Touches path) : (op.effect answer h).at path = h.at path := by
  cases op with
  | copy exe other | write other text =>
    have hne : path ≠ other := htouch
    cases answer <;> simp [Host.at, Op.effect, Host.wrote, Host.put, hne]
  | removeFile other =>
    have hne : path ≠ other := htouch
    simp only [Op.effect]
    split_ifs
    · simp [Host.at, Host.put, hne]
    · rfl
  | createDirAll dir =>
    simp only [Op.effect]
    split_ifs <;> rfl
  | removeDirAll dir =>
    have hplace : ¬Host.below dir path = true := htouch
    cases answer <;> simp [Host.at, Op.effect, Host.removedDir, Host.removeBelow, hplace]
  | run program args =>
    rw [Op.Touches, not_or, not_and, not_and] at htouch
    obtain ⟨hmode, hlink⟩ := htouch
    refine Prod.ext ?_ ?_
    · simp only [Host.at, Op.effect]
      fun_cases Host.runs h program args answer.did <;> try rfl
      rename_i mode other _ _
      exact put_file_of_ne _ fun heq => hmode rfl ⟨mode, by rw [heq]⟩
    · simp only [Host.at, Op.effect]
      split_ifs
      · exact linkAfter_of_ne hlink
      · rfl
  | isRoot | currentExe | pathExists other => rfl

section Own
variable {m : Manager}

theorem own_of_not_touches {op : Op} (h : ∀ path, ¬op.Touches path) : op.Own m :=
  fun path htouch => absurd htouch (h path)

theorem own_run {program : String} {args : List String} (h : program ≠ "chmod")
    (hlink : (enables program args).isSome → m = .systemd) : (Op.run program args).Own m := by
  rintro path (hmode | ⟨henables, rfl⟩)
  · exact absurd hmode.1 h
  · exact .inr (.inr (.inr ⟨hlink henables, rfl⟩))

theorem own_chmod {mode path : String} (h : ownPath m path) :
    (Op.run "chmod" [mode, path]).Own m := by
  rintro other (⟨_, mode', hargs⟩ | ⟨henables, _⟩)
  · obtain ⟨_, hrest⟩ := List.cons.inj hargs
    rw [← (List.cons.inj hrest).1]
    exact h
  · exact nomatch henables

theorem own_write {path text : String} (h : ownPath m path) : (Op.write path text).Own m := by
  rintro other rfl
  exact h

theorem own_copy {exe : Exe} {path : String} (h : ownPath m path) : (Op.copy exe path).Own m := by
  rintro other rfl
  exact h

theorem own_removeFile {path : String} (h : ownPath m path) : (Op.removeFile path).Own m := by
  rintro other rfl
  exact h

theorem own_removeScripts : (Op.removeDirAll scriptsDir).Own m := fun _ h => .inr (.inr (.inl h))

theorem issues_fail {P : Op → Prop} {α : Type} (e : String) :
    (Script.fail e : ServiceScript α).Issues P := by
  intro trace result h
  simp [(runs_fail.mp h).1]

theorem own_ask {op : Op} (h : ∀ path, ¬op.Touches path) : (ask op).Issues (Op.Own m) := by
  apply issues_command (own_of_not_touches h)
  intro answer
  cases answer <;> exact issues_done _

theorem own_exists {path : String} : (ask (.pathExists path)).Issues (Op.Own m) :=
  own_ask fun _ h => h

theorem own_orFail {context : String} {op : Op} (h : op.Own m) :
    (orFail context op).Issues (Op.Own m) :=
  issues_check h

theorem own_runCmd {cmd : String} {args : List String} (h : (Op.run cmd args).Own m) :
    (runCmd cmd args).Issues (Op.Own m) :=
  issues_check h

theorem own_checkRoot : checkRoot.Issues (Op.Own m) := by
  have hroot : ∀ path, ¬Op.isRoot.Touches path := fun _ h => h
  apply issues_bind (own_ask hroot)
  intro b
  cases b with
  | true => exact issues_done ()
  | false => exact issues_fail _

theorem own_installBinary (exe : Exe) : (installBinary exe).Issues (Op.Own m) := by
  have hexe : ∀ path, ¬Op.currentExe.Touches path := fun _ h => h
  apply issues_bind (own_orFail (own_of_not_touches hexe))
  intro _
  apply issues_bind (own_orFail (own_copy (.inr (.inl rfl))))
  intro _
  exact own_runCmd (own_chmod (.inr (.inl rfl)))

theorem own_removeInstalled {path : String} {first : ServiceScript Unit} (hpath : ownPath m path)
    (hfirst : first.Issues (Op.Own m)) : (removeInstalled path first).Issues (Op.Own m) := by
  apply issues_bind own_exists
  intro b
  cases b with
  | false => exact issues_done ()
  | true =>
    exact issues_bind hfirst fun _ => own_orFail (own_removeFile hpath)

theorem own_removeScriptsDir : removeScripts.Issues (Op.Own m) := by
  apply issues_bind own_exists
  intro b
  cases b with
  | false => exact issues_done ()
  | true => exact own_orFail own_removeScripts

theorem own_whenInstalled {kind path cmd : String} {args : List String} (h : cmd ≠ "chmod")
    (hlink : (enables cmd args).isSome → m = .systemd) :
    (whenInstalled kind path cmd args).Issues (Op.Own m) := by
  apply issues_bind own_checkRoot
  intro _
  apply issues_bind own_exists
  intro b
  cases b with
  | true => exact own_runCmd (own_run h hlink)
  | false => exact issues_fail _

theorem own_removeLegacyScripts : Linux.removeLegacyScripts.Issues (Op.Own m) := by
  apply issues_bind own_exists
  intro b
  cases b with
  | true => exact issues_ignore own_removeScripts
  | false => exact issues_done ()

theorem own_linux_install (exe : Exe) (args : List String) :
    (Linux.install exe args).Issues (Op.Own .systemd) := by
  apply issues_bind own_checkRoot
  intro _
  apply issues_bind (own_installBinary exe)
  intro _
  apply issues_bind own_removeLegacyScripts
  intro _
  apply issues_bind (own_orFail (own_write (.inl rfl)))
  intro _
  apply issues_bind (own_runCmd (own_run (by decide) (by decide)))
  intro _
  exact own_runCmd (own_run (by decide) (by decide))

theorem own_removeLegacy {paths : List String}
    (hpaths : ∀ path ∈ paths, Host.below scriptsDir path) :
    (Macos.removeLegacy paths).Issues (Op.Own m) := by
  induction paths with
  | nil => exact issues_done ()
  | cons path paths ih =>
    obtain ⟨hpath, hrest⟩ := List.forall_mem_cons.mp hpaths
    exact issues_bind (issues_ignore (own_removeFile (.inr (.inr (.inl hpath))))) fun _ => ih hrest

theorem own_macos_install (exe : Exe) (args : List String) :
    (Macos.install exe args).Issues (Op.Own .launchd) := by
  have hwrapper : ownPath .launchd wrapperPath := .inr (.inr (.inl (by decide)))
  apply issues_bind own_checkRoot
  intro _
  apply issues_bind (own_installBinary exe)
  intro _
  have hdir : ∀ path, ¬(Op.createDirAll scriptsDir).Touches path := fun _ h => h
  apply issues_bind (own_orFail (own_of_not_touches hdir))
  intro _
  apply issues_bind (own_removeLegacy (by decide))
  intro _
  apply issues_bind (own_orFail (own_write hwrapper))
  intro _
  apply issues_bind (own_runCmd (own_chmod hwrapper))
  intro _
  apply issues_bind (own_orFail (own_write (.inl rfl)))
  intro _
  apply issues_bind (own_runCmd (own_chmod (.inl rfl)))
  intro _
  apply issues_bind (own_runCmd (own_run (by decide) (by decide)))
  intro _
  exact issues_check (own_run (by decide) (by decide))

theorem own_uninstall (m : Manager) : (Request.uninstall.script m).Issues (Op.Own m) := by
  cases m with
  | systemd =>
    apply issues_bind own_checkRoot
    intro _
    apply issues_bind (own_removeInstalled (.inl rfl)
      (issues_ignore (own_run (by decide) (by decide))))
    intro _
    apply issues_bind (own_removeInstalled (.inr (.inl rfl)) (issues_done ()))
    intro _
    apply issues_bind own_removeScriptsDir
    intro _
    exact issues_ignore (own_run (by decide) (by decide))
  | launchd =>
    apply issues_bind own_checkRoot
    intro _
    apply issues_bind (own_removeInstalled (.inl rfl)
      (issues_ignore (own_run (by decide) (by decide))))
    intro _
    apply issues_bind (own_removeInstalled (.inr (.inl rfl)) (issues_done ()))
    intro _
    exact own_removeScriptsDir

theorem own_request (m : Manager) (request : Request) :
    (request.script m).Issues (Op.Own m) := by
  cases request with
  | install exe args =>
    cases m with
    | systemd => exact own_linux_install exe args
    | launchd => exact own_macos_install exe args
  | start => cases m <;> exact own_whenInstalled (by decide) (by decide)
  | stop => cases m <;> exact own_whenInstalled (by decide) (by decide)
  | uninstall => exact own_uninstall m

end Own

example : sampleInstalled.link wantsPath = some unitPath := by decide

end TransProxy.Service
