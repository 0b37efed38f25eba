import TransProxy.Library.UnitFile
import TransProxy.Service.Commands

/-!
# The commands of the unit file

systemd has to find the arguments again in the unit file. The quotes keep blanks, quotes,
backslashes, specifiers and variables, but they do not keep the end of a line.
-/
namespace TransProxy.Service
open Library UnitFile

section Argument
variable (arg : String)

/-- The argument, as it is quoted. -/
def escapedArg : List Char := double '%' (double '$' arg.toList)

variable {arg}

theorem escapedArg_eq : arg.toList.flatMap (fun ch => if ch = '%' ∨ ch = '$' then [ch, ch] else [ch]) =
    escapedArg arg := by
  rw [escapedArg, double, double, List.flatMap_assoc]
  apply List.flatMap_congr
  intro ch _
  by_cases hdollar : ch = '$'
  · simp [hdollar]
  · simp [hdollar]

/-- The characters that a unit reader does not take as they are. -/
def unitSpecials : List Char :=
  [doubleQuote, singleQuote, backslash, ' ', '\t', '\n', '\r', '\x00', ';', '%', '$']

theorem not_isUnitSafe_of_mem {ch : Char} (h : ch ∈ unitSpecials) : isUnitSafe ch = false := by
  have hall : (unitSpecials.all fun c => !isUnitSafe c) = true := by decide
  simpa using List.all_eq_true.mp hall ch h

theorem isPlain_of_isUnitSafe {ch : Char} (h : isUnitSafe ch = true) : isPlain ch = true := by
  by_contra hplain
  have hmem : ch ∈ unitSpecials := by
    simp only [isPlain, isQuote, isBlank, Bool.and_eq_true, Bool.not_eq_true', Bool.or_eq_false_iff,
      beq_eq_false_iff_ne, decide_eq_true_eq] at hplain
    simp only [unitSpecials, doubleQuote, singleQuote, backslash, List.mem_cons]
    tauto
  rw [not_isUnitSafe_of_mem hmem] at h
  cases h

theorem oneLine_of_isUnitSafe {text : List Char} (h : text.all isUnitSafe = true) : OneLine text := by
  intro ch hmem
  by_contra hend
  have hspecial : ch ∈ unitSpecials := by
    simp only [isLineEnd, Bool.not_eq_false, Bool.or_eq_true, beq_iff_eq] at hend
    simp only [unitSpecials, List.mem_cons]
    tauto
  have hsafe := List.all_eq_true.mp h ch hmem
  rw [not_isUnitSafe_of_mem hspecial] at hsafe
  cases hsafe

theorem oneLine_escapedArg_iff : OneLine (escapedArg arg) ↔ OneLine arg.toList := by
  simp only [OneLine, escapedArg, mem_double_iff]

theorem systemdQuoteArg_eq : (systemdQuoteArg arg).toList =
    if escapedArg arg ≠ [] ∧ (escapedArg arg).all isUnitSafe then escapedArg arg
    else doubleQuote :: escape (escapedArg arg) ++ [doubleQuote] := by
  rw [systemdQuoteArg]
  simp only [escapedArg_eq]
  split_ifs
  · rw [String.toList_ofList]
  · rw [String.toList_ofList]
    rfl

theorem spells_systemdQuoteArg : Spells (systemdQuoteArg arg).toList (escapedArg arg) := by
  rw [systemdQuoteArg_eq]
  split_ifs with h
  · exact spells_plain h.1 (fun ch hmem => isPlain_of_isUnitSafe (List.all_eq_true.mp h.2 ch hmem))
  · exact spells_quoted _

theorem oneLine_systemdQuoteArg (h : OneLine arg.toList) : OneLine (systemdQuoteArg arg).toList := by
  have hescaped := oneLine_escapedArg_iff.mpr h
  rw [systemdQuoteArg_eq]
  split_ifs
  · exact hescaped
  · exact .cons rfl ((oneLine_escape hescaped).append (.cons rfl (List.forall_mem_nil _)))

/-- A quoted argument leaves nothing escaped behind it. -/
theorem foldl_systemdQuoteArg : (systemdQuoteArg arg).toList.foldl escapeStep false = false := by
  rw [systemdQuoteArg_eq]
  split_ifs with h
  · apply foldl_escapeStep
    intro hmem
    have hsafe := List.all_eq_true.mp h.2 _ hmem
    rw [not_isUnitSafe_of_mem (by decide)] at hsafe
    cases hsafe
  · have hopen : escapeStep false doubleQuote = false := rfl
    rw [List.cons_append, List.foldl_cons, hopen, List.foldl_append, foldl_escapeStep_escape,
      List.foldl_cons, hopen, List.foldl_nil]

/-- An end of line in the argument is in quotes, which it leaves open. -/
theorem systemdQuoteArg_cut (h : ¬ OneLine arg.toList) :
    ∃ front c back, (systemdQuoteArg arg).toList = doubleQuote :: escape front ++ c :: back ∧
      isLineEnd c = true ∧ OneLine front := by
  have hescaped := mt oneLine_escapedArg_iff.mp h
  obtain ⟨front, c, back, heq, hc, hfront⟩ := exists_lineEnd_of_not_oneLine hescaped
  have hsingle : ¬ (c = '\x22' ∨ c = '\x5c') := by
    rintro (rfl | rfl)
    · cases hc
    · cases hc
  refine ⟨front, c, escape back ++ [doubleQuote], ?_, hc, hfront⟩
  rw [systemdQuoteArg_eq, if_neg (fun hsafe => hescaped (oneLine_of_isUnitSafe hsafe.2)), heq]
  simp [escape, hsingle]

end Argument

section Command
variable {args : List String}

def argWords (args : List String) : List Char :=
  (args.map (fun arg => (systemdQuoteArg arg).toList)).flatMap (' ' :: ·)

theorem argWords_cons (arg : String) (args : List String) :
    argWords (arg :: args) = ' ' :: ((systemdQuoteArg arg).toList ++ argWords args) := rfl

theorem toList_systemdCommand (program : String) (args : List String) :
    (systemdCommand program args).toList = program.toList ++ argWords args := by
  rw [systemdCommand, toList_join, List.map_map]
  rfl

theorem spells_args (args : List String) :
    List.Forall₂ Spells (args.map (fun arg => (systemdQuoteArg arg).toList)) (args.map escapedArg) := by
  induction args with
  | nil => exact .nil
  | cons arg args ih => exact .cons spells_systemdQuoteArg ih

/-- The path needs no quotes. -/
theorem installBin_chars : installBin.toList ≠ [] ∧ '\x5c' ∉ installBin.toList ∧
    (∀ c ∈ installBin.toList, isPlain c = true) ∧ OneLine installBin.toList ∧
    expand installBin.toList = some installBin.toList := by
  unfold installBin
  rw [String.toList_ofList, ← List.all_eq_true]
  decide

theorem spells_installBin : Spells installBin.toList installBin.toList := by
  obtain ⟨hne, -, hplain, -, -⟩ := installBin_chars
  exact spells_plain hne hplain

/-- The command is read back, whatever the arguments are. -/
theorem splitCommand_systemdCommand (args : List String) :
    splitCommand (systemdCommand installBin args).toList =
      some ((installBin :: args).map String.toList) := by
  have hargs : (args.map escapedArg).mapM expand = some (args.map String.toList) := by
    induction args with
    | nil => rfl
    | cons arg args ih =>
      rw [List.map_cons, List.mapM_cons, escapedArg, expand_double, ih]
      rfl
  obtain ⟨-, -, -, -, hbin⟩ := installBin_chars
  rw [splitCommand, toList_systemdCommand, spells_installBin, argWords,
    splitFrom_spelled (spells_args args), Option.bind_some, List.mapM_cons, hbin, hargs]
  rfl

theorem oneLine_argWords (h : ∀ arg ∈ args, OneLine arg.toList) : OneLine (argWords args) := by
  induction args with
  | nil => exact List.forall_mem_nil _
  | cons arg args ih =>
    have hrest := ih (fun arg hmem => h arg (List.mem_cons_of_mem _ hmem))
    exact .cons rfl ((oneLine_systemdQuoteArg (h arg List.mem_cons_self)).append hrest)

theorem foldl_argWords (args : List String) : (argWords args).foldl escapeStep false = false := by
  induction args with
  | nil => rfl
  | cons arg args ih =>
    have hblank : escapeStep false ' ' = false := rfl
    rw [argWords_cons, List.foldl_cons, hblank, List.foldl_append, foldl_systemdQuoteArg, ih]

/-- Up to the first end of line, the command is not readable. -/
theorem argWords_cut (h : ∃ arg ∈ args, ¬ OneLine arg.toList) :
    ∃ front c back, argWords args = front ++ c :: back ∧ isLineEnd c = true ∧ OneLine front ∧
      front.foldl escapeStep false = false ∧
      ∀ word, splitFrom false none (some word) front = none := by
  induction args with
  | nil => simp at h
  | cons arg args ih =>
    have hblank : escapeStep false ' ' = false := rfl
    by_cases harg : OneLine arg.toList
    · have hmore : ∃ arg ∈ args, ¬ OneLine arg.toList := by simpa [harg] using h
      obtain ⟨front, c, back, heq, hc, hline, hfold, hsplit⟩ := ih hmore
      refine ⟨' ' :: ((systemdQuoteArg arg).toList ++ front), c, back, ?_, hc, ?_, ?_, ?_⟩
      · rw [argWords_cons, heq]
        simp
      · exact .cons rfl ((oneLine_systemdQuoteArg harg).append hline)
      · rw [List.foldl_cons, hblank, List.foldl_append, foldl_systemdQuoteArg, hfold]
      · intro word
        rw [splitFrom_blank, spells_systemdQuoteArg, hsplit, Option.map_none]
    · obtain ⟨front, c, back, heq, hc, hline⟩ := systemdQuoteArg_cut harg
      have hopen : escapeStep false doubleQuote = false := rfl
      refine ⟨' ' :: doubleQuote :: escape front, c, back ++ argWords args, ?_, hc, ?_, ?_, ?_⟩
      · rw [argWords_cons, heq]
        simp
      · exact .cons rfl (.cons rfl (oneLine_escape hline))
      · rw [List.foldl_cons, hblank, List.foldl_cons, hopen, foldl_escapeStep_escape]
      · intro word
        rw [splitFrom_blank, doubleQuote, splitFrom_unclosed, Option.map_none]

end Command

/-- The line with the command of the service is one line of the unit file, the only one that sets
the command, and the command has the program and the arguments of the service. -/
def ExecStartRoundTrips (args : List String) : Prop :=
  let command := systemdCommand installBin (filterServiceArgs args)
  settings "ExecStart".toList (generateUnit args).toList = [command.toList] ∧
    splitCommand command.toList = some ((installBin :: filterServiceArgs args).map String.toList)

section Unit
variable {args : List String}

def unitBefore (args : List String) : String :=
  unitHead ++ "ExecStartPre=" ++ systemdCommand installBin (unitSetupArgs args)

def unitBehind : String :=
  "ExecStopPost=" ++ (installBin ++ " --teardown-firewall") ++ "\n" ++ unitTail

theorem toList_assignment (key : String) (args : List String) :
    (key ++ "=" ++ systemdCommand installBin args).toList =
      key.toList ++ '=' :: (installBin.toList ++ argWords args) := by
  have hequals : "=".toList = ['='] := by decide
  rw [String.toList_append, String.toList_append, toList_systemdCommand, hequals,
    List.append_assoc, List.singleton_append]

theorem toList_generateUnit (args : List String) :
    (generateUnit args).toList = (unitBefore args).toList ++ '\n' :: ("ExecStart".toList ++ '=' ::
      (installBin.toList ++ argWords (filterServiceArgs args)) ++ '\n' :: unitBehind.toList) := by
  have hunit : generateUnit args = unitBefore args ++ ("\n" ++ ("ExecStart" ++ "=" ++
      systemdCommand installBin (filterServiceArgs args) ++ ("\n" ++ unitBehind))) := by
    have hstart : "ExecStart=" = "ExecStart" ++ "=" := by decide
    rw [generateUnit, hstart, unitBefore, unitBehind]
    simp only [String.append_assoc]
  have hend : "\n".toList = ['\n'] := by decide
  rw [hunit, String.toList_append, String.toList_append, String.toList_append, toList_assignment,
    String.toList_append, hend, List.singleton_append, List.singleton_append]

/-- The beginning of the unit file: complete lines, without a command. -/
theorem unitHead_lines : ∃ head, unitHead.toList = head ++ ['\n'] ∧
    head.foldl escapeStep false = false ∧ settings "ExecStart".toList head = [] := by
  refine ⟨unitHead.toList.dropLast, ?_⟩
  -- The literals are taken apart one by one, since their concatenation is slow to evaluate.
  unfold unitHead
  simp only [String.toList_append, -String.reduceToList]
  iterate 8 rw [String.toList_ofList]
  decide +kernel

theorem settings_unitBehind : settings "ExecStart".toList unitBehind.toList = [] := by
  unfold unitBehind unitTail installBin
  simp only [String.toList_append, -String.reduceToList]
  iterate 15 rw [String.toList_ofList]
  decide +kernel

theorem toList_unitBefore (args : List String) :
    (unitBefore args).toList = unitHead.toList ++ ("ExecStartPre".toList ++ '=' ::
      (installBin.toList ++ argWords (unitSetupArgs args))) := by
  have hbefore : unitBefore args = unitHead ++ ("ExecStartPre" ++ "=" ++
      systemdCommand installBin (unitSetupArgs args)) := by
    have hpre : "ExecStartPre=" = "ExecStartPre" ++ "=" := by decide
    rw [unitBefore, hpre]
    simp only [String.append_assoc]
  rw [hbefore, String.toList_append, toList_assignment]

theorem foldl_assignment {key : String} (hkey : '\x5c' ∉ key.toList) {words : List Char}
    (hwords : words.foldl escapeStep false = false) :
    (key.toList ++ '=' :: (installBin.toList ++ words)).foldl escapeStep false = false := by
  obtain ⟨-, hslash, -, -, -⟩ := installBin_chars
  have hequals : escapeStep false '=' = false := rfl
  rw [List.foldl_append, foldl_escapeStep hkey, List.foldl_cons, hequals, List.foldl_append,
    foldl_escapeStep hslash, hwords]

theorem foldl_unitBefore (args : List String) :
    (unitBefore args).toList.foldl escapeStep false = false := by
  obtain ⟨head, htext, hfold, -⟩ := unitHead_lines
  have hend : escapeStep false '\n' = false := rfl
  have hhead : (head ++ ['\n']).foldl escapeStep false = false := by
    rw [List.foldl_append, hfold, List.foldl_cons, hend, List.foldl_nil]
  rw [toList_unitBefore, htext, List.foldl_append, hhead,
    foldl_assignment (by decide) (foldl_argWords _)]

theorem oneLine_assignment {key : String} (hkey : OneLine key.toList) {words : List Char}
    (hwords : OneLine words) : OneLine (key.toList ++ '=' :: (installBin.toList ++ words)) := by
  obtain ⟨-, -, -, hline, -⟩ := installBin_chars
  exact hkey.append (.cons rfl (hline.append hwords))

theorem oneLine_extractArg {flag val : String} (h : ∀ arg ∈ args, OneLine arg.toList)
    (hval : extractArg flag args = some val) : OneLine val.toList := by
  fun_induction extractArg flag args with
  | case1 => cases hval
  | case2 args => exact h val (List.mem_cons_of_mem _ (List.mem_of_head? hval))
  | case3 arg args _ rest hstrip =>
    obtain rfl := Option.some.inj hval
    intro c hc
    apply h arg List.mem_cons_self c
    rw [stripPrefix_eq_some_iff.mp hstrip]
    simp [hc]
  | case4 _ args _ _ ih => exact ih (fun arg hmem => h arg (List.mem_cons_of_mem _ hmem)) hval

theorem oneLine_setupArgs {options switches filteredArgs : List String}
    (hnames : ∀ name ∈ options ++ switches, OneLine name.toList)
    (h : ∀ arg ∈ filteredArgs, OneLine arg.toList) :
    ∀ arg ∈ setupArgs options switches filteredArgs, OneLine arg.toList := by
  intro arg hmem
  rcases List.mem_cons.mp hmem with rfl | hmem
  · decide
  rcases List.mem_append.mp hmem with hmem | hmem
  · obtain ⟨flag, hflag, hmem⟩ := List.mem_flatMap.mp hmem
    rw [forwardOption] at hmem
    split at hmem
    · rename_i val hval
      rcases List.mem_pair.mp hmem with rfl | rfl
      · exact hnames _ (List.mem_append_left _ hflag)
      · exact oneLine_extractArg h hval
    · cases hmem
  · obtain ⟨flag, hflag, hmem⟩ := List.mem_flatMap.mp hmem
    rw [forwardSwitch] at hmem
    split_ifs at hmem
    · obtain rfl := List.mem_singleton.mp hmem
      exact hnames _ (List.mem_append_right _ hflag)
    · cases hmem

theorem settings_generateUnit (h : ∀ arg ∈ filterServiceArgs args, OneLine arg.toList) :
    settings "ExecStart".toList (generateUnit args).toList =
      [installBin.toList ++ argWords (filterServiceArgs args)] := by
  have hsetup : ∀ arg ∈ unitSetupArgs args, OneLine arg.toList :=
    oneLine_setupArgs (by decide) h
  have hbefore : settings "ExecStart".toList (unitBefore args).toList = [] := by
    obtain ⟨head, htext, hfold, hhead⟩ := unitHead_lines
    rw [toList_unitBefore, htext, List.append_assoc, List.singleton_append,
      settings_append rfl hfold, hhead, List.nil_append,
      settings_of_line (by decide) (oneLine_assignment (by decide) (oneLine_argWords hsetup)),
      if_neg (by decide)]
  rw [toList_generateUnit, settings_append rfl (foldl_unitBefore args), hbefore, List.nil_append,
    settings_append rfl (foldl_assignment (by decide) (foldl_argWords _)),
    settings_of_line (by decide) (oneLine_assignment (by decide) (oneLine_argWords h)),
    if_pos rfl, settings_unitBehind, List.append_nil]

/-- With an end of line in an argument, what is set is cut off and not readable. -/
theorem exists_unreadable_setting (h : ∃ arg ∈ filterServiceArgs args, ¬ OneLine arg.toList) :
    ∃ value ∈ settings "ExecStart".toList (generateUnit args).toList,
      splitCommand value = none := by
  obtain ⟨front, c, back, heq, hc, hline, hfold, hsplit⟩ := argWords_cut h
  have htext : "ExecStart".toList ++ '=' :: (installBin.toList ++ (front ++ c :: back)) ++
      '\n' :: unitBehind.toList = "ExecStart".toList ++ '=' :: (installBin.toList ++ front) ++
      c :: (back ++ '\n' :: unitBehind.toList) := by
    simp only [List.append_assoc, List.cons_append]
  refine ⟨installBin.toList ++ front, ?_, ?_⟩
  · rw [toList_generateUnit, settings_append rfl (foldl_unitBefore args), heq, htext,
      settings_append hc (foldl_assignment (by decide) hfold),
      settings_of_line (by decide) (oneLine_assignment (by decide) hline), if_pos rfl]
    simp
  · rw [splitCommand, spells_installBin, hsplit, Option.bind_none]

theorem not_execStartRoundTrips (h : ∃ arg ∈ filterServiceArgs args, ¬ OneLine arg.toList) :
    ¬ ExecStartRoundTrips args := by
  rintro ⟨hsettings, hsplit⟩
  obtain ⟨value, hmem, hnone⟩ := exists_unreadable_setting h
  rw [hsettings, List.mem_singleton] at hmem
  rw [← hmem, hnone] at hsplit
  cases hsplit

end Unit

/-- The arguments can be read back out of the unit file if and only if they have no end of line. -/
theorem execStartRoundTrips_iff (args : List String) :
    ExecStartRoundTrips args ↔ ∀ arg ∈ filterServiceArgs args, OneLine arg.toList := by
  constructor
  · intro hround
    by_contra h
    push Not at h
    exact not_execStartRoundTrips h hround
  · intro h
    refine ⟨?_, splitCommand_systemdCommand _⟩
    rw [settings_generateUnit h, toList_systemdCommand]

/-- A line feed in the name of an interface. -/
theorem not_execStartRoundTrips_lineFeed :
    ¬ ExecStartRoundTrips ["--upstream-proxy", "127.0.0.1:1082", "--interface", "eth\n0"] :=
  not_execStartRoundTrips ⟨"eth\n0", by decide, by decide⟩

end TransProxy.Service
