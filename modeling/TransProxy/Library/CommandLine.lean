import TransProxy.Library.Text

/-!
# Argument vectors in the standard syntax

An argument vector is the rendering of a list of tokens: switches, and options
whose value is attached with an equals sign or is the next argument. A parser of
the standard syntax recovers the tokens, so that what a program does with the
vector can be stated and proved about the tokens.
-/
namespace TransProxy.Library.CommandLine

inductive Arity where
  | switch
  | value
deriving DecidableEq

/-- A lone dash is a value. -/
def looksLikeFlag (arg : String) : Bool := arg.toList.head? == some '-' && arg != "-"

/-- Names, with what they stand for. A name looks like a flag and has no equals sign. -/
structure Spec (ι : Type) where
  find : String → Option (ι × Arity)
  noEq : ∀ name e, find name = some e → '=' ∉ name.toList
  dash : ∀ name e, find name = some e → looksLikeFlag name = true

inductive Token (ι : Type) where
  | switch (name : String) (id : ι)
  /-- `--name=value`. -/
  | attached (name : String) (id : ι) (value : String)
  /-- `--name value`. -/
  | separate (name : String) (id : ι) (value : String)

namespace Token
variable {ι : Type}

def id : Token ι → ι
  | switch _ id | attached _ id _ | separate _ id _ => id

def value : Token ι → Option String
  | switch _ _ => none
  | attached _ _ value | separate _ _ value => some value

def render : Token ι → List String
  | switch name _ => [name]
  | attached name _ value => [name ++ "=" ++ value]
  | separate name _ value => [name, value]

/-- The names are those of the specification, and a separate value is none of them. -/
def Valid (spec : Spec ι) : Token ι → Prop
  | switch name id => spec.find name = some (id, .switch)
  | attached name id _ => spec.find name = some (id, .value)
  | separate name id value => spec.find name = some (id, .value) ∧ looksLikeFlag value = false

end Token

section Parse
variable {ι : Type} (spec : Spec ι)

/-- Read an argument vector; an argument that is no option or lacks its value is an error. -/
def tokenize : List String → Option (List (Token ι))
  | [] => some []
  | arg :: rest =>
    match splitOnce '=' arg.toList with
    | some (name, value) =>
      match spec.find (String.ofList name) with
      | some (id, .value) =>
        (tokenize rest).map (.attached (String.ofList name) id (String.ofList value) :: ·)
      | _ => none
    | none =>
      match spec.find arg with
      | some (id, .switch) => (tokenize rest).map (.switch arg id :: ·)
      | some (id, .value) =>
        match rest with
        | value :: rest =>
          if looksLikeFlag value then none
          else (tokenize rest).map (.separate arg id value :: ·)
        | [] => none
      | none => none

variable {spec}

def render (tokens : List (Token ι)) : List String := tokens.flatMap Token.render

@[simp] theorem render_nil : render ([] : List (Token ι)) = [] := rfl

@[simp] theorem render_cons (t : Token ι) (tokens : List (Token ι)) :
    render (t :: tokens) = t.render ++ render tokens := rfl

theorem tokenize_render {tokens : List (Token ι)} (h : ∀ t ∈ tokens, t.Valid spec) :
    tokenize spec (render tokens) = some tokens := by
  induction tokens with
  | nil => rfl
  | cons t tokens ih =>
    have ht := h t List.mem_cons_self
    have hrest := ih (fun t ht => h t (List.mem_cons_of_mem _ ht))
    cases t with
    | switch name id =>
      have hname := splitOnce_eq_none_iff.mpr (spec.noEq name _ ht)
      have hfind : spec.find name = some (id, .switch) := ht
      simp [Token.render, tokenize, hname, hfind, hrest]
    | attached name id value =>
      have hfind : spec.find name = some (id, .value) := ht
      have hsplit := splitOnce_append (spec.noEq name _ ht) value.toList
      simp [Token.render, tokenize, hsplit, hfind, hrest]
    | separate name id value =>
      have hname := splitOnce_eq_none_iff.mpr (spec.noEq name _ ht.1)
      have hfind : spec.find name = some (id, .value) := ht.1
      simp [Token.render, tokenize, hname, hfind, ht.2, hrest]

/-- The tokens of a vector render to it. -/
theorem render_of_tokenize {args : List String} {tokens : List (Token ι)}
    (h : tokenize spec args = some tokens) :
    render tokens = args ∧ ∀ t ∈ tokens, t.Valid spec := by
  fun_induction tokenize spec args generalizing tokens with
  | case1 =>
    obtain rfl := Option.some.inj h
    simp
  | case2 arg rest name value hsplit id hfind ih =>
    obtain ⟨more, hmore, rfl⟩ := Option.map_eq_some_iff.mp h
    obtain ⟨hrender, hvalid⟩ := ih hmore
    have harg : String.ofList name ++ "=" ++ String.ofList value = arg := by
      apply String.toList_inj.mp
      simp [(eq_append_of_splitOnce hsplit).1]
    refine ⟨by simp [Token.render, harg, hrender], ?_⟩
    simpa [Token.Valid, hfind] using hvalid
  | case3 => cases h
  | case4 arg rest hsplit id hfind ih =>
    obtain ⟨more, hmore, rfl⟩ := Option.map_eq_some_iff.mp h
    obtain ⟨hrender, hvalid⟩ := ih hmore
    refine ⟨by simp [Token.render, hrender], ?_⟩
    simpa [Token.Valid, hfind] using hvalid
  | case5 => cases h
  | case6 arg hsplit id hfind value rest hflag ih =>
    obtain ⟨more, hmore, rfl⟩ := Option.map_eq_some_iff.mp h
    obtain ⟨hrender, hvalid⟩ := ih hmore
    refine ⟨by simp [Token.render, hrender], ?_⟩
    simpa [Token.Valid, hfind, hflag] using hvalid
  | case7 => cases h
  | case8 => cases h

section Lookup
variable [DecidableEq ι]

def valueOf (tokens : List (Token ι)) (id : ι) : Option String :=
  (tokens.find? (fun t => t.id = id)).bind Token.value

def present (tokens : List (Token ι)) (id : ι) : Bool := tokens.any (fun t => t.id = id)

theorem valueOf_cons (t : Token ι) (tokens : List (Token ι)) (id : ι) :
    valueOf (t :: tokens) id = if t.id = id then t.value else valueOf tokens id := by
  by_cases h : t.id = id <;> simp [valueOf, h]

theorem present_cons (t : Token ι) (tokens : List (Token ι)) (id : ι) :
    present (t :: tokens) id = (decide (t.id = id) || present tokens id) := rfl

/-- An option whose tokens are kept has its value, and one whose tokens are not has none. -/
theorem valueOf_filter_id (keep : ι → Bool) (tokens : List (Token ι)) (id : ι) :
    valueOf (tokens.filter (fun t => keep t.id)) id =
      if keep id then valueOf tokens id else none := by
  induction tokens with
  | nil => cases keep id <;> rfl
  | cons t tokens ih =>
    by_cases hid : t.id = id
    · subst hid
      cases hkeep : keep t.id with
      | true => simp [hkeep, valueOf_cons]
      | false => simpa [hkeep] using ih
    · cases hkeep : keep t.id with
      | true => simpa [hkeep, hid, valueOf_cons] using ih
      | false => simpa [hkeep, hid, valueOf_cons] using ih

theorem present_filter_id (keep : ι → Bool) (tokens : List (Token ι)) (id : ι) :
    present (tokens.filter (fun t => keep t.id)) id = (keep id && present tokens id) := by
  induction tokens with
  | nil => simp [present]
  | cons t tokens ih =>
    by_cases hid : t.id = id
    · subst hid
      cases hkeep : keep t.id with
      | true => simp [hkeep, present_cons]
      | false => simpa [hkeep] using ih
    · cases hkeep : keep t.id with
      | true => simpa [hkeep, hid, present_cons] using ih
      | false => simpa [hkeep, hid, present_cons] using ih

end Lookup

section Names
variable {name flag value : String}

/-- The equals sign of an attached value is the first one. -/
theorem append_eq_append_iff {name' value' : String} (h : '=' ∉ name.toList)
    (h' : '=' ∉ name'.toList) :
    name ++ "=" ++ value = name' ++ "=" ++ value' ↔ name = name' ∧ value = value' := by
  constructor
  · intro heq
    have hlist : name.toList ++ '=' :: value.toList = name'.toList ++ '=' :: value'.toList := by
      simpa using congrArg String.toList heq
    have hsplit := splitOnce_append h value.toList
    rw [hlist, splitOnce_append h' value'.toList, Option.some.injEq, Prod.mk.injEq] at hsplit
    exact ⟨String.toList_inj.mp hsplit.1.symm, String.toList_inj.mp hsplit.2.symm⟩
  · rintro ⟨rfl, rfl⟩
    rfl

theorem attached_ne (h : '=' ∉ flag.toList) : name ++ "=" ++ value ≠ flag := by
  rintro rfl
  simp at h

theorem stripPrefix_attached (h : '=' ∉ name.toList) (hflag : '=' ∉ flag.toList) :
    stripPrefix (flag ++ "=") (name ++ "=" ++ value) = if name = flag then some value else none := by
  split_ifs with heq
  · rw [stripPrefix_eq_some_iff, heq]
  · rw [Option.eq_none_iff_forall_ne_some]
    intro rest hrest
    rw [stripPrefix_eq_some_iff] at hrest
    exact heq ((append_eq_append_iff h hflag).mp hrest).1

theorem stripPrefix_name (h : '=' ∉ name.toList) : stripPrefix (flag ++ "=") name = none := by
  rw [Option.eq_none_iff_forall_ne_some]
  intro rest hrest
  rw [stripPrefix_eq_some_iff] at hrest
  exact attached_ne h hrest.symm

theorem value_ne (h : looksLikeFlag value = false) (hflag : looksLikeFlag flag = true) :
    value ≠ flag := by
  rintro rfl
  rw [h] at hflag
  cases hflag

/-- A value does not begin like an attached option. -/
theorem stripPrefix_value (h : looksLikeFlag value = false) (hflag : looksLikeFlag flag = true) :
    stripPrefix (flag ++ "=") value = none := by
  rw [Option.eq_none_iff_forall_ne_some]
  intro rest hrest
  rw [stripPrefix_eq_some_iff] at hrest
  have hjoin : looksLikeFlag value = true := by
    simp only [looksLikeFlag, Bool.and_eq_true, beq_iff_eq, bne_iff_ne] at hflag ⊢
    refine ⟨by simp [hrest, hflag.1], ?_⟩
    rintro rfl
    have hmem : '=' ∈ "-".toList := by simp [hrest]
    exact absurd hmem (by decide)
  rw [h] at hjoin
  cases hjoin

end Names

end Parse
end TransProxy.Library.CommandLine
