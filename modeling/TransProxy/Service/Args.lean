import TransProxy.Config.Parse

/-!
# The arguments of the installed service

`install` works on the raw arguments: it filters out what belongs to the lifecycle,
and looks up the options that the firewall setup is to be given again.
-/
namespace TransProxy.Service
open Library CommandLine Config

def skipFlags : List String :=
  ["--install", "--uninstall", "--start", "--stop", "--daemon", "-d", "--setup-firewall",
    "--teardown-firewall"]

def skipWithValue : List String := ["--pid-file", "--log-file"]

/-- Whether the argument is one of the options, and if so then whether its value is the next one. -/
def matchValueOption (arg : String) : List String → Option Bool
  | [] => none
  | name :: names =>
    if arg = name then some true
    else if (stripPrefix (name ++ "=") arg).isSome then some false
    else matchValueOption arg names

/-- The loop, which may have to skip the next argument. -/
def filterFrom : Bool → List String → List String
  | _, [] => []
  | true, _ :: args => filterFrom false args
  | false, arg :: args =>
    if arg ∈ skipFlags then filterFrom false args
    else
      match matchValueOption arg skipWithValue with
      | some skipNext => filterFrom skipNext args
      | none => arg :: filterFrom false args

def filterServiceArgs (args : List String) : List String := filterFrom false args

def extractArg (flag : String) : List String → Option String
  | [] => none
  | arg :: args =>
    if arg = flag then args.head?
    else
      match stripPrefix (flag ++ "=") arg with
      | some val => some val
      | none => extractArg flag args

def hasFlag (args : List String) (flag : String) : Bool := args.any (· == flag)

/-- An option and its value, if it is given. -/
def forwardOption (args : List String) (flag : String) : List String :=
  match extractArg flag args with
  | some val => [flag, val]
  | none => []

def forwardSwitch (args : List String) (flag : String) : List String :=
  if hasFlag args flag then [flag] else []

/-- `--setup-firewall`, then the options and the switches that are forwarded. -/
def setupArgs (options switches : List String) (filteredArgs : List String) : List String :=
  "--setup-firewall" :: (options.flatMap (forwardOption filteredArgs) ++
    switches.flatMap (forwardSwitch filteredArgs))

/-- The arguments on `ExecStartPre` of `generate_unit`. -/
def unitSetupArgs (args : List String) : List String :=
  setupArgs ["--interface", "--listen-addr", "--upstream-proxy", "--dns-listen", "--ports",
    "--fwmark"] ["--local-traffic", "--dns"] (filterServiceArgs args)

/-- The arguments of the setup command of `generate_wrapper`. -/
def wrapperSetupArgs (args : List String) : List String :=
  setupArgs ["--interface", "--listen-addr", "--upstream-proxy", "--dns-listen", "--ports"]
    ["--local-traffic", "--dns"] (filterServiceArgs args)

/-- The options that are filtered out. -/
def isServiceOption : Opt → Bool
  | .install | .uninstall | .start | .stop | .daemon | .setupFirewall | .teardownFirewall
  | .pidFile | .logFile => true
  | _ => false

section Table

/-- The filter knows the options that it is to leave out, by all their names. -/
theorem mem_skipFlags_iff {name : String} {id : Opt} (h : spec.find name = some (id, .switch)) :
    name ∈ skipFlags ↔ isServiceOption id = true := by
  have hall : ∀ e ∈ optionTable, e.2.2 = .switch →
      (e.1 ∈ skipFlags ↔ isServiceOption e.2.1 = true) := by
    simp [optionTable, skipFlags, isServiceOption]
  exact hall _ (mem_optionTable_of_find h) rfl

theorem mem_skipWithValue_iff {name : String} {id : Opt} (h : spec.find name = some (id, .value)) :
    name ∈ skipWithValue ↔ isServiceOption id = true := by
  have hall : ∀ e ∈ optionTable, e.2.2 = .value →
      (e.1 ∈ skipWithValue ↔ isServiceOption e.2.1 = true) := by
    simp [optionTable, skipWithValue, isServiceOption]
  exact hall _ (mem_optionTable_of_find h) rfl

theorem find_of_mem_skipFlags {flag : String} (h : flag ∈ skipFlags) :
    ∃ id, spec.find flag = some (id, .switch) := by
  revert flag
  simp [skipFlags, spec, findOption, optionTable]

theorem find_of_mem_skipWithValue {flag : String} (h : flag ∈ skipWithValue) :
    ∃ id, spec.find flag = some (id, .value) := by
  revert flag
  simp [skipWithValue, spec, findOption, optionTable]

end Table

section Match
variable {names : List String}

/-- A name without its value is looked up among the options. -/
theorem matchValueOption_name {name : String} (hname : '=' ∉ name.toList) :
    matchValueOption name names = if name ∈ names then some true else none := by
  induction names with
  | nil => rfl
  | cons flag names ih =>
    by_cases heq : name = flag
    · simp [matchValueOption, heq]
    · simp [matchValueOption, heq, stripPrefix_name hname, ih]

theorem matchValueOption_attached {name value : String} (hname : '=' ∉ name.toList)
    (h : ∀ flag ∈ names, '=' ∉ flag.toList) :
    matchValueOption (name ++ "=" ++ value) names = if name ∈ names then some false else none := by
  induction names with
  | nil => rfl
  | cons flag names ih =>
    have hflag := h flag List.mem_cons_self
    have hrest := ih (fun flag hmem => h flag (List.mem_cons_of_mem _ hmem))
    rw [matchValueOption, if_neg (attached_ne hflag), stripPrefix_attached hname hflag, hrest]
    by_cases heq : name = flag
    · simp [heq]
    · simp [heq]

theorem matchValueOption_value {value : String} (hvalue : looksLikeFlag value = false)
    (h : ∀ flag ∈ names, looksLikeFlag flag = true) : matchValueOption value names = none := by
  induction names with
  | nil => rfl
  | cons flag names ih =>
    have hflag := h flag List.mem_cons_self
    have hrest := ih (fun flag hmem => h flag (List.mem_cons_of_mem _ hmem))
    simp [matchValueOption, value_ne hvalue hflag, stripPrefix_value hvalue hflag, hrest]

theorem ne_of_find {name flag : String} {id id' : Opt} {arity arity' : Arity}
    (hflag : spec.find flag = some (id, arity)) (harity : arity' ≠ arity)
    (h : spec.find name = some (id', arity')) : name ≠ flag := by
  rintro rfl
  rw [h] at hflag
  exact harity (congrArg Prod.snd (Option.some.inj hflag))

theorem not_mem_skipFlags {name : String} {id : Opt} (h : spec.find name = some (id, .value)) :
    name ∉ skipFlags := by
  intro hmem
  obtain ⟨id', hid'⟩ := find_of_mem_skipFlags hmem
  exact ne_of_find hid' (by decide) h rfl

theorem not_mem_skipWithValue {name : String} {id : Opt} (h : spec.find name = some (id, .switch)) :
    name ∉ skipWithValue := by
  intro hmem
  obtain ⟨id', hid'⟩ := find_of_mem_skipWithValue hmem
  exact ne_of_find hid' (by decide) h rfl

end Match

section Tokens
variable {tokens : List (Token Opt)}

/-- The filter drops the tokens of the lifecycle options and no others. -/
theorem filterFrom_render (hvalid : ∀ t ∈ tokens, t.Valid spec) :
    filterFrom false (render tokens) =
      render (tokens.filter (fun t => !isServiceOption t.id)) := by
  induction tokens with
  | nil => rfl
  | cons t tokens ih =>
    have ht := hvalid t List.mem_cons_self
    have hrest := ih (fun t hmem => hvalid t (List.mem_cons_of_mem _ hmem))
    cases t with
    | switch name id =>
      have hskip := mem_skipFlags_iff ht
      have hmatch : matchValueOption name skipWithValue = _ :=
        matchValueOption_name (spec.noEq name _ ht)
      rw [if_neg (not_mem_skipWithValue ht)] at hmatch
      cases hid : isServiceOption id with
      | true => simp [Token.render, Token.id, filterFrom, hskip, hid, hrest]
      | false => simp [Token.render, Token.id, filterFrom, hskip, hmatch, hid, hrest]
    | attached name id value =>
      have hskip : name ++ "=" ++ value ∉ skipFlags := by
        intro hmem
        obtain ⟨_, hfind⟩ := find_of_mem_skipFlags hmem
        exact attached_ne (spec.noEq _ _ hfind) rfl
      have hmatch : matchValueOption (name ++ "=" ++ value) skipWithValue = _ :=
        matchValueOption_attached (spec.noEq name _ ht) (fun flag hmem => by
          obtain ⟨_, hfind⟩ := find_of_mem_skipWithValue hmem
          exact spec.noEq flag _ hfind)
      rw [if_congr (mem_skipWithValue_iff ht) rfl rfl] at hmatch
      cases hid : isServiceOption id with
      | true => simp [Token.render, Token.id, filterFrom, hskip, hmatch, hid, hrest]
      | false => simp [Token.render, Token.id, filterFrom, hskip, hmatch, hid, hrest]
    | separate name id value =>
      have hskip := not_mem_skipFlags ht.1
      have hmatch : matchValueOption name skipWithValue = _ :=
        matchValueOption_name (spec.noEq name _ ht.1)
      rw [if_congr (mem_skipWithValue_iff ht.1) rfl rfl] at hmatch
      have hvalueSkip : value ∉ skipFlags := by
        intro hmem
        obtain ⟨_, hfind⟩ := find_of_mem_skipFlags hmem
        exact value_ne ht.2 (spec.dash _ _ hfind) rfl
      have hvalueMatch : matchValueOption value skipWithValue = none :=
        matchValueOption_value ht.2 (fun flag hmem => by
          obtain ⟨_, hfind⟩ := find_of_mem_skipWithValue hmem
          exact spec.dash flag _ hfind)
      cases hid : isServiceOption id with
      | true => simp [Token.render, Token.id, filterFrom, hskip, hmatch, hid, hrest]
      | false =>
        simp [Token.render, Token.id, filterFrom, hskip, hmatch, hvalueSkip, hvalueMatch, hid,
          hrest]

section Lookup
variable {flag : String} {id : Opt}

theorem eq_iff_of_find {arity arity' : Arity} (hflag : spec.find flag = some (id, arity))
    (honly : ∀ name arity, spec.find name = some (id, arity) → name = flag) {name : String}
    {id' : Opt} (h : spec.find name = some (id', arity')) : name = flag ↔ id' = id := by
  constructor
  · rintro rfl
    rw [h] at hflag
    exact congrArg Prod.fst (Option.some.inj hflag)
  · rintro rfl
    exact honly name arity' h

/-- An option with one spelling is found by it. -/
theorem extractArg_render (hflag : spec.find flag = some (id, .value))
    (honly : ∀ name arity, spec.find name = some (id, arity) → name = flag)
    (hvalid : ∀ t ∈ tokens, t.Valid spec) :
    extractArg flag (render tokens) = valueOf tokens id := by
  have hnoEq := spec.noEq flag _ hflag
  have hdash := spec.dash flag _ hflag
  induction tokens with
  | nil => rfl
  | cons t tokens ih =>
    have ht := hvalid t List.mem_cons_self
    have hrest := ih (fun t hmem => hvalid t (List.mem_cons_of_mem _ hmem))
    rw [valueOf_cons, ← hrest]
    cases t with
    | switch name id' =>
      have hname : name ≠ flag := ne_of_find hflag (by decide) ht
      have hid : id' ≠ id := mt (eq_iff_of_find hflag honly ht).mpr hname
      simp [Token.render, Token.id, extractArg, hname, hid, stripPrefix_name (spec.noEq name _ ht)]
    | attached name id' value =>
      have hne : name ++ "=" ++ value ≠ flag := attached_ne hnoEq
      have hstrip : stripPrefix (flag ++ "=") (name ++ "=" ++ value) = _ :=
        stripPrefix_attached (spec.noEq name _ ht) hnoEq
      rw [if_congr (eq_iff_of_find hflag honly ht) rfl rfl] at hstrip
      by_cases hid : id' = id
      · simp [Token.render, Token.id, Token.value, extractArg, hne, hstrip, hid]
      · simp [Token.render, Token.id, extractArg, hne, hstrip, hid]
    | separate name id' value =>
      have hname := eq_iff_of_find hflag honly ht.1
      by_cases hid : id' = id
      · simp [Token.render, Token.id, Token.value, extractArg, hname, hid]
      · simp [Token.render, Token.id, extractArg, hname, hid, value_ne ht.2 hdash,
          stripPrefix_name (spec.noEq name _ ht.1), stripPrefix_value ht.2 hdash]

theorem hasFlag_render (hflag : spec.find flag = some (id, .switch))
    (honly : ∀ name arity, spec.find name = some (id, arity) → name = flag)
    (hvalid : ∀ t ∈ tokens, t.Valid spec) :
    hasFlag (render tokens) flag = present tokens id := by
  have hnoEq := spec.noEq flag _ hflag
  have hdash := spec.dash flag _ hflag
  induction tokens with
  | nil => rfl
  | cons t tokens ih =>
    have ht := hvalid t List.mem_cons_self
    have hrest := ih (fun t hmem => hvalid t (List.mem_cons_of_mem _ hmem))
    rw [present_cons, ← hrest]
    cases t with
    | switch name id' =>
      have hname := eq_iff_of_find hflag honly ht
      by_cases hid : id' = id
      · simp [Token.render, Token.id, hasFlag, hname, hid]
      · simp [Token.render, Token.id, hasFlag, hname, hid]
    | attached name id' value =>
      have hne : name ++ "=" ++ value ≠ flag := attached_ne hnoEq
      have hid : id' ≠ id := mt (eq_iff_of_find hflag honly ht).mpr
        (ne_of_find hflag (by decide) ht)
      simp [Token.render, Token.id, hasFlag, hne, hid]
    | separate name id' value =>
      have hname : name ≠ flag := ne_of_find hflag (by decide) ht.1
      have hid : id' ≠ id := mt (eq_iff_of_find hflag honly ht.1).mpr hname
      have hvalue := value_ne ht.2 hdash
      simp [Token.render, Token.id, hasFlag, beq_false_of_ne hname, beq_false_of_ne hvalue, hid]

end Lookup
end Tokens
end TransProxy.Service
