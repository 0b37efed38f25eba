import TransProxy.Service.Install

/-!
# What the service commands leave behind

Installs, removals, starts and stops may be cut off after any operation, and any operation may
fail. The files that the service needs are written before the one that the service manager goes
by, and they are removed after it.
-/
namespace TransProxy.Service
open Library Script

/-- The file that makes the service known to its manager. -/
def Manager.marker : Manager → String
  | .systemd => unitPath
  | .launchd => plistPath

def Manager.needed : Manager → List String
  | .systemd => [installBin]
  | .launchd => [wrapperPath, installBin]

/-- The service is not known to its manager without what it needs, and it never was told to start
it without. -/
structure Host.Consistent (m : Manager) (h : Host) : Prop where
  needed : (h.file m.marker).isSome → ∀ path ∈ m.needed, (h.file path).isSome
  started : ∀ s ∈ h.started, ∀ path ∈ m.marker :: m.needed, (s.1 path).isSome
  housed : ∀ path, Host.below scriptsDir path → (h.file path).isSome → h.dir scriptsDir = true
  plain : h.dir m.marker = false

/-! ## Single operations -/

def Op.Keeps (path : String) : Op → Prop
  | .removeFile other => path ≠ other
  | .removeDirAll dir => Host.below dir path = false
  | _ => True

def Op.Spares (path : String) : Op → Prop
  | .copy _ other | .write other _ => path ≠ other
  | _ => True

/-- No directory is made there. -/
def Op.Clears (path : String) : Op → Prop
  | .createDirAll dir => path ≠ dir
  | _ => True

def Op.Starts : Op → Prop
  | .run program args => manages program args = some .starts
  | _ => False

section Operations
variable {m : Manager} {h : Host} {op : Op} {answer : Answer} {path : String}

@[simp] theorem put_file_self (file : Option File) : (h.put path file).file path = file := by
  simp [Host.put]

theorem put_file_of_ne {other : String} (file : Option File) (hne : path ≠ other) :
    (h.put other file).file path = h.file path := by
  simp [Host.put, hne]

theorem runs_file_isSome (program : String) (args : List String) (did : Bool) :
    ((h.runs program args did).file path).isSome = (h.file path).isSome := by
  fun_cases Host.runs h program args did <;> try rfl
  rename_i mode other _ _
  by_cases hp : path = other
  · subst hp
    simp [Host.setMode]
  · rw [Host.setMode, put_file_of_ne _ hp]

theorem keeps_effect (hallowed : op.Allowed h answer) (hkeep : op.Keeps path)
    (hfile : (h.file path).isSome) : ((op.effect answer h).file path).isSome := by
  cases op with
  | copy exe other | write other text =>
    by_cases hp : path = other
    · subst hp
      cases answer <;> simp_all [Op.effect, Host.wrote, Op.Allowed]
    · cases answer <;> simp_all [Op.effect, Host.wrote, put_file_of_ne]
  | removeFile other =>
    simp only [Op.effect]
    split_ifs with hok
    · rwa [put_file_of_ne _ hkeep]
    · exact hfile
  | createDirAll dir =>
    simp only [Op.effect]
    split_ifs <;> exact hfile
  | removeDirAll dir =>
    have hbelow : Host.below dir path = false := hkeep
    cases answer <;> simpa [Op.effect, Host.removedDir, Host.removeBelow, hbelow] using hfile
  | run program args =>
    exact (runs_file_isSome program args answer.did).trans hfile
  | isRoot | currentExe | pathExists other => exact hfile

theorem spares_effect (hspare : op.Spares path) (hfile : h.file path = none) :
    (op.effect answer h).file path = none := by
  cases op with
  | copy exe other | write other text =>
    have hp : path ≠ other := hspare
    cases answer <;> simpa [Op.effect, Host.wrote, put_file_of_ne _ hp] using hfile
  | removeFile other =>
    simp only [Op.effect]
    split_ifs with hok
    · simp only [Host.put, Function.update_apply]
      split_ifs <;> simp [hfile]
    · exact hfile
  | createDirAll dir =>
    simp only [Op.effect]
    split_ifs <;> exact hfile
  | removeDirAll dir =>
    cases answer <;> simp [Op.effect, Host.removedDir, Host.removeBelow, hfile]
  | run program args =>
    have hsome : ((h.runs program args answer.did).file path).isSome = (h.file path).isSome :=
      runs_file_isSome program args answer.did
    rw [hfile] at hsome
    simpa [Op.effect] using hsome
  | isRoot | currentExe | pathExists other => exact hfile

theorem isSome_of_spares (hspare : op.Spares path)
    (hfile : ((op.effect answer h).file path).isSome) : (h.file path).isSome := by
  by_contra hnone
  rw [Option.not_isSome_iff_eq_none] at hnone
  rw [spares_effect hspare hnone] at hfile
  cases hfile

theorem effect_started (hstart : ¬op.Starts) : (op.effect answer h).started = h.started := by
  cases op with
  | copy exe other | write other text => cases answer <;> rfl
  | removeFile other | createDirAll dir =>
    simp only [Op.effect]
    split_ifs <;> rfl
  | removeDirAll dir => cases answer <;> rfl
  | run program args =>
    have hne : manages program args ≠ some .starts := hstart
    simp only [Op.effect]
    fun_cases Host.runs h program args answer.did with
    | case1 => contradiction
    | _ => rfl
  | isRoot | currentExe | pathExists other => rfl

theorem effect_of_starts (hstart : op.Starts) :
    op.effect answer h =
      { h with
        started := h.started ++ [(h.file, h.loaded)], link := (op.effect answer h).link } := by
  cases op with
  | run program args =>
    have hstarts : manages program args = some .starts := hstart
    simp [Op.effect, Host.runs, hstarts]
  | _ => exact hstart.elim

theorem effect_dir {dir : String} (hop : ∀ dir, op ≠ .removeDirAll dir) (hdir : h.dir dir = true) :
    (op.effect answer h).dir dir = true := by
  cases op with
  | copy exe other | write other text => cases answer <;> exact hdir
  | removeFile other =>
    simp only [Op.effect]
    split_ifs <;> exact hdir
  | createDirAll other =>
    simp only [Op.effect]
    split_ifs
    · simp only [Function.update_apply]
      split_ifs <;> simp [hdir]
    · exact hdir
  | removeDirAll other => exact absurd rfl (hop other)
  | run program args =>
    simp only [Op.effect]
    fun_cases Host.runs h program args answer.did <;> exact hdir
  | isRoot | currentExe | pathExists other => exact hdir

theorem housed_effect (hs : ∀ path, Host.below scriptsDir path → (h.file path).isSome →
      h.dir scriptsDir = true)
    (hplace : ∀ path, ¬op.Spares path → Host.below scriptsDir path → h.dir scriptsDir = true)
    (hbelow : Host.below scriptsDir path) (hfile : ((op.effect answer h).file path).isSome) :
    (op.effect answer h).dir scriptsDir = true := by
  have hdir : h.dir scriptsDir = true := by
    by_cases hspare : op.Spares path
    · exact hs path hbelow (isSome_of_spares hspare hfile)
    · exact hplace path hspare hbelow
  by_cases hop : ∀ dir, op ≠ .removeDirAll dir
  · exact effect_dir hop hdir
  · simp only [ne_eq, not_forall, not_not] at hop
    obtain ⟨dir, rfl⟩ := hop
    cases answer with
    | ok =>
      by_cases hne : scriptsDir = dir
      · subst hne
        simp [Op.effect, Host.removedDir, Host.removeBelow, hbelow] at hfile
      · simpa [Op.effect, Host.removedDir, hne] using hdir
    | _ => exact hdir

theorem clears_effect (hop : op.Clears path) (hdir : h.dir path = false) :
    (op.effect answer h).dir path = false := by
  cases op with
  | copy exe other | write other text => cases answer <;> exact hdir
  | removeFile other =>
    simp only [Op.effect]
    split_ifs <;> exact hdir
  | createDirAll other =>
    have hne : path ≠ other := hop
    simp only [Op.effect]
    split_ifs
    · simpa [hne] using hdir
    · exact hdir
  | removeDirAll other =>
    cases answer with
    | ok =>
      simp only [Op.effect, Host.removedDir, Function.update_apply]
      split_ifs <;> simp [hdir]
    | _ => exact hdir
  | run program args =>
    simp only [Op.effect]
    fun_cases Host.runs h program args answer.did <;> exact hdir
  | isRoot | currentExe | pathExists other => exact hdir

/-- What the single parts need to be kept. -/
theorem consistent_effect (hs : h.Consistent m) (hclear : op.Clears m.marker)
    (hstart : op.Starts → ∀ path ∈ m.marker :: m.needed, (h.file path).isSome)
    (hneeded : ((op.effect answer h).file m.marker).isSome →
      ∀ path ∈ m.needed, ((op.effect answer h).file path).isSome)
    (hplace : ∀ path, ¬op.Spares path → Host.below scriptsDir path → h.dir scriptsDir = true) :
    (op.effect answer h).Consistent m where
  needed := hneeded
  started := by
    by_cases hop : op.Starts
    · rw [effect_of_starts hop]
      intro s hmem
      rcases List.mem_append.mp hmem with hold | hnew
      · exact hs.started s hold
      · rw [List.mem_singleton.mp hnew]
        exact hstart hop
    · rw [effect_started hop]
      exact hs.started
  housed _ := housed_effect hs.housed hplace
  plain := clears_effect hclear hs.plain

structure Op.Harmless (m : Manager) (op : Op) : Prop where
  starts : ¬op.Starts
  marker : op.Spares m.marker
  needed : ∀ path ∈ m.needed, op.Keeps path
  place : ∀ path, ¬op.Spares path → Host.below scriptsDir path = false
  clears : op.Clears m.marker

/-- The service is consistent, and these files are there. -/
structure Host.Having (m : Manager) (paths : List String) (h : Host) : Prop where
  consistent : h.Consistent m
  present : ∀ path ∈ paths, (h.file path).isSome

/-- Nothing makes the service known to its manager. -/
structure Host.Unmarked (m : Manager) (h : Host) : Prop where
  consistent : h.Consistent m
  marker : h.file m.marker = none

theorem consistent_harmless (hs : h.Consistent m) (hallowed : op.Allowed h answer)
    (hop : op.Harmless m) : (op.effect answer h).Consistent m := by
  obtain ⟨hstart, hmarker, hneeded, hplace, hclear⟩ := hop
  refine consistent_effect hs hclear (fun h => absurd h hstart) ?_ ?_
  · intro hsome path hpath
    exact keeps_effect hallowed (hneeded path hpath)
      (hs.needed (isSome_of_spares hmarker hsome) path hpath)
  · intro path hspare hbelow
    rw [hplace path hspare] at hbelow
    cases hbelow

theorem having_harmless {paths : List String} (hs : h.Having m paths)
    (hallowed : op.Allowed h answer) (hop : op.Harmless m) (hkeep : ∀ path ∈ paths, op.Keeps path) :
    (op.effect answer h).Having m paths :=
  ⟨consistent_harmless hs.consistent hallowed hop,
    fun path hpath => keeps_effect hallowed (hkeep path hpath) (hs.present path hpath)⟩

theorem unmarked_effect (hs : h.Unmarked m) (hstart : ¬op.Starts) (hmarker : op.Spares m.marker)
    (hplace : ∀ path, ¬op.Spares path → Host.below scriptsDir path = false)
    (hclear : op.Clears m.marker) : (op.effect answer h).Unmarked m := by
  have hnone : (op.effect answer h).file m.marker = none := spares_effect hmarker hs.marker
  refine ⟨consistent_effect hs.consistent hclear (fun h => absurd h hstart) ?_ ?_, hnone⟩
  · intro hsome
    rw [hnone] at hsome
    cases hsome
  · intro path hspare hbelow
    rw [hplace path hspare] at hbelow
    cases hbelow

end Operations

/-! ## Scripts -/

/-- `C` holds wherever the script is cut off, and `R` at its end. -/
abbrev Maintains {α : Type} (C P : Host → Prop) (s : ServiceScript α) (R : α → Host → Prop) :
    Prop :=
  Upholds Op.effect Op.Allowed C P s R

/-- The service stays consistent wherever the script is cut off. -/
abbrev Consistently {α : Type} (m : Manager) (P : Host → Prop) (s : ServiceScript α)
    (R : α → Host → Prop) : Prop :=
  Maintains (Host.Consistent m) P s R

section Scripts
variable {C P : Host → Prop}

/-- A question about a path is answered by what is there. -/
theorem maintains_ask {path : String} {R : Bool → Host → Prop} (hP : ∀ h, P h → C h)
    (hR : ∀ h, P h → R ((h.file path).isSome || h.dir path) h) :
    Maintains C P (ask (.pathExists path)) R := by
  apply crashTriple_command (R := fun answer h => P h ∧
    answer = .holds ((h.file path).isSome || h.dir path)) hP
  · intro h answer hh hallowed
    refine ⟨hh, ?_⟩
    cases answer with
    | holds b => exact congrArg Answer.holds hallowed
    | _ => exact hallowed.elim
  · intro answer
    cases answer with
    | holds b =>
      apply upholds_done (fun h hh => hP h hh.1)
      rintro h ⟨hh, hb⟩
      rw [Answer.holds.inj hb]
      exact hR h hh
    | _ => exact upholds_done (fun h hh => hP h hh.1) fun h hh => nomatch hh.2

theorem maintains_checkRoot (hP : ∀ h, P h → C h) :
    Maintains C P checkRoot fun _ => P := by
  apply upholds_bind (R := fun _ => P)
  · apply crashTriple_command (R := fun _ => P) hP (fun h answer hh _ => hh)
    intro answer
    cases answer <;> exact upholds_done hP (fun h hh => hh)
  · intro b
    cases b with
    | true => exact upholds_done hP (fun h hh => hh)
    | false => exact upholds_fail hP

end Scripts

/-! ## The steps of the commands -/

def Op.Puts (path : String) : Op → Prop
  | .copy _ other | .write other _ => other = path
  | _ => False

section Steps
variable {m : Manager} {op : Op} {path : String} {paths : List String}
  {error : Op → Answer → Option String}

theorem Op.Puts.keeps (hop : op.Puts path) (other : String) : op.Keeps other := by
  cases op with
  | copy exe p | write p text => trivial
  | _ => exact hop.elim

theorem Op.Puts.isSome (hop : op.Puts path) {h : Host} {answer : Answer} (hok : answer.isOk) :
    ((op.effect answer h).file path).isSome := by
  cases answer with
  | ok =>
    cases op with
    | copy exe p | write p text =>
      obtain rfl : p = path := hop
      simp [Op.effect, Host.wrote]
    | _ => exact hop.elim
  | _ => cases hok

theorem Op.Puts.harmless (hop : op.Puts path) (hmarker : m.marker ≠ path)
    (hplace : Host.below scriptsDir path = false) : op.Harmless m := by
  cases op with
  | copy exe p | write p text =>
    obtain rfl : p = path := hop
    refine ⟨not_false, hmarker, fun _ _ => trivial, ?_, trivial⟩
    intro other hother
    rw [not_not.mp hother]
    exact hplace
  | _ => exact hop.elim

theorem run_harmless {program : String} {args : List String}
    (h : manages program args ≠ some .starts) : (Op.run program args).Harmless m :=
  ⟨h, trivial, fun _ _ => trivial, fun _ h => absurd trivial h, trivial⟩

theorem maintains_harmless (hop : op.Harmless m) (hkeep : ∀ path ∈ paths, op.Keeps path) :
    Consistently m (Host.Having m paths) (Script.check error op) fun _ => Host.Having m paths := by
  apply upholds_check (fun h hh => hh.consistent)
  intro h answer hh hallowed
  have hafter := having_harmless hh hallowed hop hkeep
  exact ⟨hafter.consistent, fun _ => hafter⟩

theorem maintains_ignore_harmless (hop : op.Harmless m) (hkeep : ∀ path ∈ paths, op.Keeps path) :
    Consistently m (Host.Having m paths) (Script.ignore op) fun _ => Host.Having m paths := by
  apply upholds_ignore (fun h hh => hh.consistent)
  intro h answer hh hallowed
  have hafter := having_harmless hh hallowed hop hkeep
  exact ⟨hafter.consistent, hafter⟩

theorem maintains_runCmd {cmd : String} {args : List String}
    (h : manages cmd args ≠ some .starts) :
    Consistently m (Host.Having m paths) (runCmd cmd args) fun _ => Host.Having m paths :=
  maintains_harmless (run_harmless h) fun _ _ => trivial

theorem isOk_of_orFail {context : String} {answer : Answer}
    (h : (if answer.isOk then none else some (context ++ ": " ++ answer.message)) = none) :
    answer.isOk := by
  by_contra hnot
  rw [if_neg hnot] at h
  cases h

theorem maintains_put {context : String} (hop : op.Puts path) (hharmless : op.Harmless m) :
    Consistently m (Host.Having m paths) (orFail context op) fun _ =>
      Host.Having m (path :: paths) := by
  apply upholds_check (fun h hh => hh.consistent)
  intro h answer hh hallowed
  have hafter := having_harmless hh hallowed hharmless fun other _ => hop.keeps other
  refine ⟨hafter.consistent, fun hok => ⟨hafter.consistent, ?_⟩⟩
  exact List.forall_mem_cons.mpr ⟨hop.isSome (isOk_of_orFail hok), hafter.present⟩

/-- The file that makes the service known is written when the others are there. -/
theorem maintains_marker {context text : String} (hneeded : ∀ path ∈ m.needed, path ∈ paths) :
    Consistently m (Host.Having m paths) (orFail context (.write m.marker text)) fun _ =>
      Host.Having m (m.marker :: paths) := by
  apply upholds_check (fun h hh => hh.consistent)
  intro h answer hh hallowed
  have hkept : ∀ path ∈ paths, (((Op.write m.marker text).effect answer h).file path).isSome :=
    fun path hpath => keeps_effect hallowed trivial (hh.present path hpath)
  have hafter : ((Op.write m.marker text).effect answer h).Consistent m := by
    have hclear : (Op.write m.marker text).Clears m.marker := trivial
    apply consistent_effect hh.consistent hclear not_false.elim
    · intro _ path hpath
      exact hkept path (hneeded path hpath)
    · intro path hspare hbelow
      obtain rfl := not_not.mp hspare
      cases m <;> exact absurd hbelow (by decide)
  refine ⟨hafter, fun hok => ⟨hafter, ?_⟩⟩
  have hputs : (Op.write m.marker text).Puts m.marker := rfl
  exact List.forall_mem_cons.mpr ⟨hputs.isSome (isOk_of_orFail hok), hkept⟩

theorem maintains_start {program : String} {args : List String}
    (hstarts : manages program args = some .starts)
    (hall : ∀ path ∈ m.marker :: m.needed, path ∈ paths) :
    Consistently m (Host.Having m paths) (Script.check error (.run program args)) fun _ =>
      Host.Having m paths := by
  apply upholds_check (fun h hh => hh.consistent)
  intro h answer hh _
  have hrun : (Op.run program args).Starts := hstarts
  have hfile : ((Op.run program args).effect answer h).file = h.file := by
    rw [effect_of_starts hrun]
  have hafter : ((Op.run program args).effect answer h).Consistent m := by
    have hclear : (Op.run program args).Clears m.marker := trivial
    apply consistent_effect hh.consistent hclear
    · intro _ path hpath
      exact hh.present path (hall path hpath)
    · rw [hfile]
      exact hh.consistent.needed
    · intro path hspare
      exact absurd trivial hspare
  refine ⟨hafter, fun _ => ⟨hafter, ?_⟩⟩
  rw [hfile]
  exact hh.present

theorem marker_ne_installBin (m : Manager) : m.marker ≠ installBin := by
  cases m <;> decide

theorem marker_notMem_needed (m : Manager) : m.marker ∉ m.needed := by
  cases m <;> decide

theorem maintains_installBinary (exe : Exe) :
    Consistently m (Host.Consistent m) (installBinary exe) fun _ => Host.Having m [installBin] := by
  apply upholds_bind (R := fun _ => Host.Having m [])
  · refine Upholds.mono (P := Host.Having m []) ?_ (fun h hh => ⟨hh, by simp⟩) fun _ _ hh => hh
    exact maintains_harmless
      ⟨not_false, trivial, fun _ _ => trivial, fun _ h => absurd trivial h, trivial⟩ (by simp)
  intro _
  apply upholds_bind (R := fun _ => Host.Having m [installBin])
  · exact maintains_put rfl (Op.Puts.harmless rfl (marker_ne_installBin m) (by decide))
  intro _
  exact maintains_runCmd (by decide)

end Steps

/-- The scripts are not what systemd runs the service from. -/
theorem maintains_removeLegacyScripts :
    Consistently .systemd (Host.Having .systemd [installBin]) Linux.removeLegacyScripts fun _ =>
      Host.Having .systemd [installBin] := by
  apply upholds_bind (R := fun _ => Host.Having .systemd [installBin])
  · exact maintains_ask (fun h hh => hh.consistent) fun h hh => hh
  intro b
  cases b with
  | false => exact upholds_done (fun h hh => hh.consistent) fun h hh => hh
  | true =>
    have hkeep : ∀ path ∈ [installBin], (Op.removeDirAll scriptsDir).Keeps path := by
      intro path hpath
      obtain rfl := List.mem_singleton.mp hpath
      have hplace : Host.below scriptsDir installBin = false := by decide
      exact hplace
    apply maintains_ignore_harmless _ hkeep
    exact ⟨not_false, trivial, hkeep, fun _ h => absurd trivial h, trivial⟩

theorem maintains_linux_install (exe : Exe) (args : List String) :
    Consistently .systemd (Host.Consistent .systemd) (Linux.install exe args)
      fun _ _ => True := by
  apply upholds_bind (maintains_checkRoot fun h hh => hh)
  intro _
  apply upholds_bind (maintains_installBinary exe)
  intro _
  apply upholds_bind maintains_removeLegacyScripts
  intro _
  apply upholds_bind (maintains_marker (m := .systemd) (fun path hpath => hpath))
  intro _
  apply upholds_bind (maintains_runCmd (by decide))
  intro _
  refine Upholds.mono (maintains_start (by decide) ?_) (fun h hh => hh) fun _ _ _ => trivial
  exact fun path hpath => hpath

/-- The binary is there, and so is the directory of the scripts. -/
def Host.Housing (h : Host) : Prop :=
  h.Having .launchd [installBin] ∧ h.dir scriptsDir = true

theorem maintains_createScripts {context : String} :
    Consistently .launchd (Host.Having .launchd [installBin])
      (orFail context (.createDirAll scriptsDir)) fun _ => Host.Housing := by
  apply upholds_check (fun h hh => hh.consistent)
  intro h answer hh hallowed
  have hne : plistPath ≠ scriptsDir := by decide
  have hharmless : (Op.createDirAll scriptsDir).Harmless .launchd :=
    ⟨not_false, trivial, fun _ _ => trivial, fun _ h => absurd trivial h, hne⟩
  have hafter := having_harmless hh hallowed hharmless fun _ _ => trivial
  refine ⟨hafter.consistent, fun hok => ⟨hafter, ?_⟩⟩
  simp [Op.effect, isOk_of_orFail hok]

theorem maintains_removeLegacy {paths : List String}
    (hpaths : ∀ path ∈ paths, path ∉ Manager.launchd.needed) :
    Consistently .launchd Host.Housing (Macos.removeLegacy paths) fun _ => Host.Housing := by
  induction paths with
  | nil => exact upholds_done (fun h hh => hh.1.consistent) fun h hh => hh
  | cons path paths ih =>
    obtain ⟨hpath, hrest⟩ := List.forall_mem_cons.mp hpaths
    refine upholds_bind (R := fun _ => Host.Housing) ?_ fun _ => ih hrest
    apply upholds_ignore (fun h hh => hh.1.consistent)
    intro h answer hh hallowed
    have hkeep : ∀ other ∈ Manager.launchd.needed, (Op.removeFile path).Keeps other := by
      rintro other hother rfl
      exact hpath hother
    have hafter := having_harmless hh.1 hallowed (m := .launchd)
      ⟨not_false, trivial, hkeep, fun _ h => absurd trivial h, trivial⟩
      fun other hother => hkeep other (List.mem_cons_of_mem _ hother)
    exact ⟨hafter.consistent, hafter, effect_dir (by simp) hh.2⟩

theorem maintains_wrapper {context text : String} :
    Consistently .launchd Host.Housing (orFail context (.write wrapperPath text)) fun _ =>
      Host.Having .launchd [wrapperPath, installBin] := by
  apply upholds_check (fun h hh => hh.1.consistent)
  intro h answer hh hallowed
  have hputs : (Op.write wrapperPath text).Puts wrapperPath := rfl
  have hkept : ∀ path, (h.file path).isSome →
      (((Op.write wrapperPath text).effect answer h).file path).isSome :=
    fun path => keeps_effect hallowed trivial
  have hafter : ((Op.write wrapperPath text).effect answer h).Consistent .launchd := by
    have hclear : (Op.write wrapperPath text).Clears plistPath := trivial
    apply consistent_effect hh.1.consistent hclear not_false.elim
    · intro hsome path hpath
      have hspare : (Op.write wrapperPath text).Spares plistPath := by
        change plistPath ≠ wrapperPath
        decide
      exact hkept path (hh.1.consistent.needed (isSome_of_spares hspare hsome) path hpath)
    · exact fun _ _ _ => hh.2
  refine ⟨hafter, fun hok => ⟨hafter, ?_⟩⟩
  exact List.forall_mem_cons.mpr ⟨hputs.isSome (isOk_of_orFail hok),
    fun path hpath => hkept path (hh.1.present path hpath)⟩

theorem maintains_macos_install (exe : Exe) (args : List String) :
    Consistently .launchd (Host.Consistent .launchd) (Macos.install exe args)
      fun _ _ => True := by
  apply upholds_bind (maintains_checkRoot fun h hh => hh)
  intro _
  apply upholds_bind (maintains_installBinary exe)
  intro _
  apply upholds_bind maintains_createScripts
  intro _
  apply upholds_bind (maintains_removeLegacy (by decide))
  intro _
  apply upholds_bind maintains_wrapper
  intro _
  apply upholds_bind (maintains_runCmd (by decide))
  intro _
  apply upholds_bind (maintains_marker (m := .launchd) (fun path hpath => hpath))
  intro _
  apply upholds_bind (maintains_runCmd (by decide))
  intro _
  apply upholds_bind (maintains_runCmd (by decide))
  intro _
  refine Upholds.mono (maintains_start (by decide) ?_) (fun h hh => hh) fun _ _ _ => trivial
  exact fun path hpath => hpath

theorem maintains_whenInstalled {m : Manager} {kind cmd : String} {args : List String}
    (hrun : Consistently m (Host.Having m (m.marker :: m.needed)) (runCmd cmd args)
      fun _ _ => True) :
    Consistently m (Host.Consistent m) (whenInstalled kind m.marker cmd args) fun _ _ => True := by
  apply upholds_bind (maintains_checkRoot fun h hh => hh)
  intro _
  apply upholds_bind (R := fun b h => h.Consistent m ∧ (b = true → (h.file m.marker).isSome))
  · apply maintains_ask (fun h hh => hh)
    intro h hh
    refine ⟨hh, fun hb => ?_⟩
    simpa [hh.plain] using hb
  intro b
  cases b with
  | false => exact upholds_fail (fun h hh => hh.1)
  | true =>
    apply Upholds.mono hrun _ fun _ _ hh => hh
    rintro h ⟨hh, hmarker⟩
    exact ⟨hh, List.forall_mem_cons.mpr ⟨hmarker rfl, hh.needed (hmarker rfl)⟩⟩

theorem maintains_startCmd {m : Manager} {cmd : String} {args : List String}
    (hstarts : manages cmd args = some .starts) :
    Consistently m (Host.Having m (m.marker :: m.needed)) (runCmd cmd args) fun _ _ => True :=
  (maintains_start hstarts fun _ h => h).mono (fun _ h => h) fun _ _ _ => trivial

theorem maintains_stopCmd {m : Manager} {cmd : String} {args : List String}
    (hstarts : manages cmd args ≠ some .starts) :
    Consistently m (Host.Having m (m.marker :: m.needed)) (runCmd cmd args) fun _ _ => True :=
  (maintains_runCmd hstarts).mono (fun _ h => h) fun _ _ _ => trivial

/-- The service is not known to its manager, and these files are gone. -/
structure Host.Gone (m : Manager) (paths : List String) (h : Host) : Prop where
  unmarked : h.Unmarked m
  absent : ∀ path ∈ paths, h.file path = none

theorem Host.Gone.effect {m : Manager} {h : Host} {paths : List String} {op : Op} {answer : Answer}
    (hh : h.Gone m paths) (hstart : ¬op.Starts) (hspare : ∀ path, op.Spares path)
    (hclear : op.Clears m.marker) : (op.effect answer h).Gone m paths :=
  ⟨unmarked_effect hh.unmarked hstart (hspare _) (fun path h => absurd (hspare path) h) hclear,
    fun path hpath => spares_effect (hspare path) (hh.absent path hpath)⟩

/-- The service manager is told first, and the file that makes the service known goes first. -/
theorem maintains_removeMarker {m : Manager} {program : String} {args : List String}
    (hrun : manages program args ≠ some .starts) :
    Consistently m (Host.Consistent m)
      (removeInstalled m.marker (Script.ignore (.run program args))) fun _ => Host.Gone m [] := by
  apply upholds_bind (R := fun b h => h.Consistent m ∧ (b = false → h.file m.marker = none))
  · apply maintains_ask (fun h hh => hh)
    intro h hh
    refine ⟨hh, fun hb => ?_⟩
    rw [Bool.or_eq_false_iff] at hb
    simpa using hb.1
  intro b
  cases b with
  | false =>
    apply upholds_done (fun h hh => hh.1)
    exact fun h hh => ⟨⟨hh.1, hh.2 rfl⟩, by simp⟩
  | true =>
    apply upholds_bind (R := fun _ => Host.Consistent m)
    · apply upholds_ignore (fun h hh => hh.1)
      intro h answer hh hallowed
      have hafter := consistent_harmless hh.1 hallowed (run_harmless hrun)
      exact ⟨hafter, hafter⟩
    intro _
    apply upholds_check (fun h hh => hh)
    intro h answer hh hallowed
    have hafter : ((Op.removeFile m.marker).effect answer h).Consistent m := by
      have hclear : (Op.removeFile m.marker).Clears m.marker := trivial
      apply consistent_effect hh hclear not_false.elim
      · intro hsome path hpath
        apply keeps_effect hallowed
        · rintro rfl
          exact marker_notMem_needed m hpath
        · have hspare : (Op.removeFile m.marker).Spares m.marker := trivial
          exact hh.needed (isSome_of_spares hspare hsome) path hpath
      · exact fun _ h => absurd trivial h
    refine ⟨hafter, fun hok => ⟨⟨hafter, ?_⟩, by simp⟩⟩
    simp [Op.effect, isOk_of_orFail hok]

theorem maintains_removeBinary {m : Manager} :
    Consistently m (Host.Gone m []) (removeInstalled installBin (pure ())) fun _ =>
      Host.Gone m [installBin] := by
  apply upholds_bind (R := fun b h => h.Gone m [] ∧ (b = false → h.file installBin = none))
  · apply maintains_ask (fun h hh => hh.unmarked.consistent)
    intro h hh
    refine ⟨hh, fun hb => ?_⟩
    rw [Bool.or_eq_false_iff] at hb
    simpa using hb.1
  intro b
  cases b with
  | false =>
    apply upholds_done (fun h hh => hh.1.unmarked.consistent)
    exact fun h hh => ⟨hh.1.unmarked, by simpa using hh.2 rfl⟩
  | true =>
    change Consistently m _
      (orFail ("Failed to remove " ++ installBin) (.removeFile installBin)) _
    apply upholds_check (fun h hh => hh.1.unmarked.consistent)
    intro h answer hh _
    have hspare : ∀ path, (Op.removeFile installBin).Spares path := fun _ => trivial
    have hafter :=
      @Host.Gone.effect _ _ _ (.removeFile installBin) answer hh.1 not_false hspare trivial
    refine ⟨hafter.unmarked.consistent, fun hok => ⟨hafter.unmarked, ?_⟩⟩
    simp [Op.effect, isOk_of_orFail hok]

structure Host.Removed (m : Manager) (h : Host) : Prop where
  marker : h.file m.marker = none
  binary : h.file installBin = none
  scripts : ∀ path, Host.below scriptsDir path → h.file path = none
  dir : h.dir scriptsDir = false

theorem maintains_removeScripts {m : Manager} :
    Consistently m (Host.Gone m [installBin]) removeScripts fun _ h =>
      h.Gone m [installBin] ∧ h.Removed m := by
  apply upholds_bind (R := fun b h => h.Gone m [installBin] ∧
    (b = false → h.dir scriptsDir = false))
  · apply maintains_ask (fun h hh => hh.unmarked.consistent)
    intro h hh
    refine ⟨hh, fun hb => ?_⟩
    rw [Bool.or_eq_false_iff] at hb
    exact hb.2
  intro b
  cases b with
  | false =>
    apply upholds_done (fun h hh => hh.1.unmarked.consistent)
    rintro h ⟨hh, hdir⟩
    refine ⟨hh, hh.unmarked.marker, hh.absent _ List.mem_cons_self, ?_, hdir rfl⟩
    intro path hbelow
    by_contra hfile
    have hhoused := hh.unmarked.consistent.housed path hbelow (Option.isSome_iff_ne_none.mpr hfile)
    rw [hdir rfl] at hhoused
    cases hhoused
  | true =>
    rw [if_pos rfl]
    apply upholds_check (fun h hh => hh.1.unmarked.consistent)
    intro h answer hh _
    have hspare : ∀ path, (Op.removeDirAll scriptsDir).Spares path := fun _ => trivial
    have hafter :=
      @Host.Gone.effect _ _ _ (.removeDirAll scriptsDir) answer hh.1 not_false hspare trivial
    refine ⟨hafter.unmarked.consistent, fun hok => ⟨hafter, hafter.unmarked.marker,
      hafter.absent _ List.mem_cons_self, ?_, ?_⟩⟩
    · intro path hbelow
      cases answer with
      | ok => simp [Op.effect, Host.removedDir, Host.removeBelow, hbelow]
      | _ => cases isOk_of_orFail hok
    · cases answer with
      | ok => simp [Op.effect, Host.removedDir]
      | _ => cases isOk_of_orFail hok

theorem removed_effect {m : Manager} {h : Host} {op : Op} {answer : Answer} (hh : h.Removed m)
    (hspare : ∀ path, op.Spares path) (hclear : op.Clears scriptsDir) :
    (op.effect answer h).Removed m where
  marker := spares_effect (hspare _) hh.marker
  binary := spares_effect (hspare _) hh.binary
  scripts path hbelow := spares_effect (hspare _) (hh.scripts path hbelow)
  dir := clears_effect hclear hh.dir

theorem maintains_uninstall (m : Manager) :
    Consistently m (Host.Consistent m) (Request.uninstall.script m) fun _ => Host.Removed m := by
  cases m with
  | systemd =>
    apply upholds_bind (maintains_checkRoot fun h hh => hh)
    intro _
    apply upholds_bind (maintains_removeMarker (m := .systemd) (by decide))
    intro _
    apply upholds_bind maintains_removeBinary
    intro _
    apply upholds_bind maintains_removeScripts
    intro _
    apply upholds_ignore (fun h hh => hh.1.unmarked.consistent)
    intro h answer hh _
    have hstart : ¬(Op.run "systemctl" ["daemon-reload"]).Starts := by
      change manages "systemctl" ["daemon-reload"] ≠ some .starts
      decide
    exact ⟨(hh.1.effect hstart (fun _ => trivial) trivial).unmarked.consistent,
      removed_effect hh.2 (fun _ => trivial) trivial⟩
  | launchd =>
    apply upholds_bind (maintains_checkRoot fun h hh => hh)
    intro _
    apply upholds_bind (maintains_removeMarker (m := .launchd) (by decide))
    intro _
    apply upholds_bind maintains_removeBinary
    intro _
    exact maintains_removeScripts.mono (fun _ hh => hh) fun _ _ hh => hh.2

/-! ## Histories -/

theorem maintains_request (m : Manager) (request : Request) :
    Consistently m (Host.Consistent m) (request.script m) fun _ _ => True := by
  cases request with
  | install exe args =>
    cases m with
    | systemd => exact maintains_linux_install exe args
    | launchd => exact maintains_macos_install exe args
  | start =>
    cases m with
    | systemd => exact maintains_whenInstalled (m := .systemd) (maintains_startCmd (by decide))
    | launchd => exact maintains_whenInstalled (m := .launchd) (maintains_startCmd (by decide))
  | stop =>
    cases m with
    | systemd => exact maintains_whenInstalled (m := .systemd) (maintains_stopCmd (by decide))
    | launchd => exact maintains_whenInstalled (m := .launchd) (maintains_stopCmd (by decide))
  | uninstall => exact (maintains_uninstall m).mono (fun _ hh => hh) fun _ _ _ => trivial

/-- The hosts that requests make of one without the service, wherever each of them is cut off. -/
inductive Host.Reached (m : Manager) : Host → Prop
  | clean {h : Host} (hmarker : h.file m.marker = none) (hstarted : h.started = [])
      (hhoused : ∀ path, Host.below scriptsDir path → (h.file path).isSome →
        h.dir scriptsDir = true)
      (hplain : h.dir m.marker = false) : Reached m h
  | request {h : Host} {request : Request} {trace rest : List (Op × Answer)}
      {result : Except String Unit} (hreached : Reached m h)
      (hruns : (request.script m).Runs (trace ++ rest) result) (hanswers : h.Answers trace) :
      Reached m (h.after trace)

section Histories
variable {m : Manager} {h : Host} {trace : List (Op × Answer)}

theorem Host.Reached.consistent (hreached : h.Reached m) : h.Consistent m := by
  induction hreached with
  | clean hmarker hstarted hhoused hplain =>
    refine ⟨?_, ?_, hhoused, hplain⟩
    · intro hsome
      rw [hmarker] at hsome
      cases hsome
    · rw [hstarted]
      simp
  | @request h request trace rest result _ hruns hanswers ih =>
    exact (maintains_request m request h trace rest result ih hruns hanswers).1

/-- At every point of every history the service is known to its manager only with all it runs
from, and whenever the manager was told to start it all of it was there. -/
theorem needed_of_reached (hreached : h.Reached m) :
    ((h.file m.marker).isSome → ∀ path ∈ m.needed, (h.file path).isSome) ∧
      ∀ s ∈ h.started, ∀ path ∈ m.marker :: m.needed, (s.1 path).isSome :=
  ⟨hreached.consistent.needed, hreached.consistent.started⟩

/-- A removal that succeeds leaves nothing of the service, whatever was done before and wherever
it was cut off. -/
theorem uninstall_removes (hreached : h.Reached m)
    (hruns : (Request.uninstall.script m).Runs trace (.ok ())) (hanswers : h.Answers trace) :
    (h.after trace).Removed m :=
  (maintains_uninstall m).result hreached.consistent hruns hanswers

end Histories

/-! ## A host on which nothing fails -/

def sampleHost : Host :=
  { file := fun _ => none, link := fun _ => none, dir := fun _ => false
    loaded := none, started := [] }

def sampleExe : Exe := ⟨"/tmp/trans_proxy", ⟨"program", true⟩⟩

/-- Everything succeeds, and these paths are there. -/
def sampleAnswer (paths : List String) : Op → Answer
  | .isRoot => .holds true
  | .pathExists path => .holds (paths.contains path)
  | _ => .ok

def sampleInstall : List (Op × Answer) :=
  ((Linux.install sampleExe ["--dns"]).run (sampleAnswer [])).1

def sampleInstalled : Host := sampleHost.after sampleInstall

theorem sampleInstalled_reached : sampleInstalled.Reached .systemd := by
  have hclean : sampleHost.Reached .systemd := .clean rfl rfl (fun _ _ h => nomatch h) rfl
  refine @Host.Reached.request .systemd sampleHost (.install sampleExe ["--dns"]) sampleInstall []
    (.ok ()) hclean ?_ ?_
  · rw [List.append_nil]
    exact runs_run (sampleAnswer []) (Linux.install sampleExe ["--dns"])
  · exact ⟨trivial, trivial, trivial, trivial, rfl, trivial, trivial, trivial, trivial⟩

theorem needed_of_reached_sample : (sampleInstalled.file unitPath).isSome ∧
    (sampleInstalled.file installBin).isSome :=
  have hunit : (sampleInstalled.file unitPath).isSome := rfl
  ⟨hunit, (needed_of_reached sampleInstalled_reached).1 hunit _ (List.mem_singleton.mpr rfl)⟩

def sampleUninstall : List (Op × Answer) :=
  (Linux.uninstall.run (sampleAnswer [unitPath, installBin])).1

theorem uninstall_removes_sample : (sampleInstalled.after sampleUninstall).Removed .systemd := by
  apply uninstall_removes sampleInstalled_reached
  · exact runs_run (sampleAnswer [unitPath, installBin]) Linux.uninstall
  · exact ⟨trivial, rfl, trivial, trivial, rfl, trivial, rfl, trivial, trivial⟩

end TransProxy.Service
