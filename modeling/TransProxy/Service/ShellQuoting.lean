import TransProxy.Library.ShellWords
import TransProxy.Service.Commands

/-!
# The commands of the wrapper script

The shell finds the arguments again in what `shell_command` writes, whatever characters they
have. The program is not quoted, and what it is made of does not keep the shell from taking it
for something else.
-/
namespace TransProxy.Service
open Library ShellWords

section Argument
variable {arg : String}

def shellWord (arg : String) : Word :=
  if arg.toList ≠ [] ∧ arg.toList.all isShellSafe then bare arg.toList else quoted arg.toList

theorem shellQuote_eq : (shellQuote arg).toList =
    if arg.toList ≠ [] ∧ arg.toList.all isShellSafe then arg.toList
    else singleQuote :: escape arg.toList ++ [singleQuote] := by
  rw [shellQuote]
  split_ifs
  · rfl
  · rw [String.toList_ofList]
    rfl

/-- The characters that mean something to a shell. -/
def shellSpecials : List Char :=
  [' ', '\t', '\n', '|', '&', ';', '<', '>', '(', ')', backslash, singleQuote, doubleQuote, '#',
    '$', '\x60', '*', '?', '[', '~']

theorem not_isShellSafe_of_mem {ch : Char} (h : ch ∈ shellSpecials) : isShellSafe ch = false := by
  have hall : (shellSpecials.all fun c => !isShellSafe c) = true := by decide
  simpa using List.all_eq_true.mp hall ch h

theorem not_mem_shellSpecials {ch : Char} (h : isShellSafe ch = true) : ch ∉ shellSpecials := by
  intro hmem
  rw [not_isShellSafe_of_mem hmem] at h
  cases h

theorem isPlain_of_isShellSafe {ch : Char} (h : isShellSafe ch = true) : isPlain ch = true := by
  have hspecial := not_mem_shellSpecials h
  simp only [shellSpecials, backslash, singleQuote, doubleQuote, List.mem_cons, not_or] at hspecial
  simp [isPlain, isBlank, isOperator, hspecial]

theorem isLiteral_bare {text : List Char} (h : text.all isShellSafe = true) :
    isLiteral (bare text) = true := by
  rw [isLiteral, bare, List.all_map, List.all_eq_true]
  intro ch hmem
  have hspecial := not_mem_shellSpecials (List.all_eq_true.mp h ch hmem)
  simp only [shellSpecials, List.mem_cons, not_or] at hspecial
  simp [expands, hspecial]

theorem isLiteral_shellWord : isLiteral (shellWord arg) = true := by
  rw [shellWord]
  split_ifs with h
  · exact isLiteral_bare h.2
  · simp [isLiteral, quoted]

theorem spells_shellQuote : Spells (shellQuote arg).toList (shellWord arg) := by
  rw [shellQuote_eq, shellWord]
  split_ifs with h
  · exact spells_bare h.1 (fun ch hmem => isPlain_of_isShellSafe (List.all_eq_true.mp h.2 ch hmem))
  · exact spells_quoted _

theorem shellWord_text : (shellWord arg).map Prod.fst = arg.toList := by
  have hfst : ∀ b : Bool, Prod.fst ∘ (fun c : Char => (c, b)) = id := fun _ => rfl
  rw [shellWord]
  split_ifs
  · rw [bare, List.map_map, hfst, List.map_id]
  · rw [quoted, List.map_map, hfst, List.map_id]

end Argument

section Command
variable {program : String} {args : List String}

theorem toList_shellCommand : (shellCommand program args).toList =
    program.toList ++ (args.map (fun arg => (shellQuote arg).toList)).flatMap (' ' :: ·) := by
  rw [shellCommand, toList_join, List.map_map]
  rfl

theorem spells_shellArgs (args : List String) :
    List.Forall₂ Spells (args.map (fun arg => (shellQuote arg).toList)) (args.map shellWord) := by
  induction args with
  | nil => exact .nil
  | cons arg args ih => exact .cons spells_shellQuote ih

theorem mapM_word? (words : List Word) : (words.map Token.word).mapM Token.word? = some words := by
  induction words with
  | nil => rfl
  | cons w words ih =>
    rw [List.map_cons, List.mapM_cons, ih]
    rfl

theorem evaluate_shellCommand (hne : program ≠ "") (hsafe : program.toList.all isShellSafe = true) :
    evaluate (shellCommand program args).toList =
      simpleCommand (bare program.toList :: args.map shellWord) := by
  have hchars : program.toList ≠ [] := by simpa using hne
  have hspells : Spells program.toList (bare program.toList) :=
    spells_bare hchars (fun ch hmem => isPlain_of_isShellSafe (List.all_eq_true.mp hsafe ch hmem))
  rw [evaluate, toList_shellCommand, hspells, tokensFrom_spelled (spells_shellArgs args),
    Option.bind_some, mapM_word?, Option.bind_some]

/-- Without a program, the first argument is taken for one. -/
theorem evaluate_shellCommand_empty :
    evaluate (shellCommand "" args).toList = simpleCommand (args.map shellWord) := by
  rw [evaluate, toList_shellCommand]
  cases args with
  | nil => rfl
  | cons arg args =>
    have hblank : ∀ text, tokensFrom false .plain none (' ' :: text) =
        tokensFrom false .plain none text := by
      intro text
      simp [tokensFrom, isBlank]
    rw [List.map_cons, List.flatMap_cons, List.map_cons]
    simp only [String.toList_empty, List.nil_append, List.cons_append]
    rw [hblank, spells_shellQuote, tokensFrom_spelled (spells_shellArgs args), Option.bind_some,
      mapM_word?, Option.bind_some]

theorem map_words : (bare program.toList :: args.map shellWord).map (List.map Prod.fst) =
    (program :: args).map String.toList := by
  have hfst : Prod.fst ∘ (fun c : Char => (c, false)) = id := rfl
  have hargs : List.map Prod.fst ∘ shellWord = String.toList := by
    funext arg
    exact shellWord_text
  rw [List.map_cons, bare, List.map_map, hfst, List.map_id, List.map_map, hargs, List.map_cons]

/-- The shell runs the program with the arguments if and only if it takes the program for the name
of a command: it is not empty, no reserved word and no assignment. -/
theorem evaluate_shellCommand_iff (hsafe : program.toList.all isShellSafe = true) :
    evaluate (shellCommand program args).toList =
        some { assignments := [], words := (program :: args).map String.toList } ↔
      program ≠ "" ∧ isReserved (bare program.toList) = false ∧
        ∀ name value, isName name = true → program.toList ≠ name ++ '=' :: value := by
  by_cases hne : program = ""
  · subst hne
    rw [evaluate_shellCommand_empty]
    constructor
    · intro h
      have hlength := length_simpleCommand h
      simp at hlength
    · rintro ⟨h, -⟩
      exact absurd rfl h
  · have hliteral : ∀ w ∈ bare program.toList :: args.map shellWord, isLiteral w = true := by
      intro w hmem
      rcases List.mem_cons.mp hmem with rfl | hmem
      · exact isLiteral_bare hsafe
      · obtain ⟨arg, -, rfl⟩ := List.mem_map.mp hmem
        exact isLiteral_shellWord
    have hassign : isAssignment (bare program.toList) = false ↔
        ∀ name value, isName name = true → program.toList ≠ name ++ '=' :: value := by
      rw [← Bool.not_eq_true, isAssignment_bare_iff]
      push Not
      rfl
    rw [evaluate_shellCommand hne hsafe, ← map_words, simpleCommand_eq_iff hliteral, hassign]
    exact (and_iff_right hne).symm

end Command

/-- The installed program is run with its arguments. -/
theorem evaluate_shellCommand_sample :
    evaluate (shellCommand "/usr/local/bin/trans_proxy" ["--interface", "it's $HOME;\n#"]).toList =
      some { assignments := [], words := ["/usr/local/bin/trans_proxy", "--interface",
        "it's $HOME;\n#"].map String.toList } := by
  refine (evaluate_shellCommand_iff (by decide)).mpr ⟨by decide, by decide, ?_⟩
  intro name value _ h
  have hmem : '=' ∈ "/usr/local/bin/trans_proxy".toList := by
    rw [h]
    exact List.mem_append_right _ List.mem_cons_self
  exact absurd hmem (by decide)

/-- An assignment is made of the same characters. -/
theorem not_evaluate_shellCommand_assignment : "A=b".toList.all isShellSafe = true ∧
    evaluate (shellCommand "A=b" []).toList ≠
      some { assignments := [], words := ["A=b".toList] } := by
  decide

end TransProxy.Service
