import TransProxy.Library.ShellScript
import TransProxy.Service.ShellQuoting

/-!
# The wrapper as the shell reads it

What `generate_wrapper` writes is read by the shell as the statements of the wrapper, for all
arguments.
-/
namespace TransProxy.Service
open Library ShellWords

def Command.words (c : Command) : List (List Char) := (c.program :: c.args).map String.toList

def wrapperLines (args : List String) : List String :=
  ["#!/bin/bash", "# Auto-generated wrapper script for trans_proxy LaunchDaemon.",
    "# Sets up firewall rules before starting, tears down on exit.", "set -euo pipefail", "",
    "cleanup() \x7b", "    " ++ (installBin ++ " --teardown-firewall"), "\x7d",
    "trap cleanup EXIT", "", shellCommand installBin (wrapperSetupArgs args), "",
    "exec " ++ shellCommand installBin (filterServiceArgs args)]

theorem wrapperHead_eq : wrapperHead = "#!/bin/bash" ++ "\n" ++
    ("# Auto-generated wrapper script for trans_proxy LaunchDaemon." ++ "\n") ++
    ("# Sets up firewall rules before starting, tears down on exit." ++ "\n") := by
  decide

theorem toList_generateWrapper (args : List String) : (generateWrapper args).toList =
    ((wrapperLines args).map String.toList).flatMap (· ++ ['\n']) := by
  have hset : "set -euo pipefail\n\n" = "set -euo pipefail" ++ "\n" ++ "\n" := by decide
  have hhead : "cleanup() \x7b\n" = "cleanup() \x7b" ++ "\n" := by decide
  have htail : "\x7d\n" = "\x7d" ++ "\n" := by decide
  have htrap : "trap cleanup EXIT\n\n" = "trap cleanup EXIT" ++ "\n" ++ "\n" := by decide
  have hblank : "\n\n" = "\n" ++ "\n" := by decide
  have hend : "\n".toList = ['\n'] := by decide
  have hempty : "".toList = [] := by decide
  rw [generateWrapper, wrapperHead_eq, hset, hhead, htail, htrap, hblank, wrapperLines]
  simp only [List.map_cons, List.map_nil, List.flatMap_cons, List.flatMap_nil, String.toList_append,
    hend, hempty, List.append_assoc, List.append_nil, List.nil_append]

/-- A line of words that need no quotes. -/
def bareLine (words : List String) : List Token := words.map fun word => .word (bare word.toList)

/-- A command as the shell cuts it into words. -/
def commandLine (program : String) (args : List String) : List Token :=
  (bare program.toList :: args.map shellWord).map .word

/-- The lines of the wrapper, without the comments. -/
def wrapperTokens (args : List String) : List (List Token) :=
  [[], [], [], bareLine ["set", "-euo", "pipefail"], [],
    [.word (bare "cleanup".toList), .operator '(', .operator ')', .word (bare ['\x7b'])],
    bareLine [installBin, "--teardown-firewall"], [.word (bare ['\x7d'])],
    bareLine ["trap", "cleanup", "EXIT"], [], commandLine installBin (wrapperSetupArgs args), [],
    .word (bare "exec".toList) :: commandLine installBin (filterServiceArgs args)]

def isBareWord (word : String) : Bool := word.toList != [] && word.toList.all isPlain

section Lines
variable {word : String} {words args : List String}

theorem spells_of_isBareWord (h : isBareWord word = true) :
    Spells word.toList (bare word.toList) := by
  simp only [isBareWord, Bool.and_eq_true, bne_iff_ne, List.all_eq_true] at h
  exact spells_bare h.1 h.2

theorem isBareWord_installBin : isBareWord installBin = true := by decide

theorem spellsLine_bareLine (h : (word :: words).all isBareWord = true) :
    SpellsLine (word.toList ++ (words.map String.toList).flatMap (' ' :: ·))
      (bareLine (word :: words)) := by
  obtain ⟨hword, hwords⟩ := List.forall_mem_cons.mp (List.all_eq_true.mp h)
  have hspells : List.Forall₂ Spells (words.map String.toList)
      (words.map fun word => bare word.toList) := by
    clear h
    induction words with
    | nil => exact .nil
    | cons w words ih =>
      obtain ⟨hw, hwords⟩ := List.forall_mem_cons.mp hwords
      exact .cons (spells_of_isBareWord hw) (ih hwords)
  have hline := spellsLine_words (spells_of_isBareWord hword) hspells
  rw [List.map_cons, List.map_map] at hline
  exact hline

theorem spellsLine_commandLine :
    SpellsLine (shellCommand installBin args).toList (commandLine installBin args) := by
  rw [toList_shellCommand]
  exact spellsLine_words (spells_of_isBareWord isBareWord_installBin) (spells_shellArgs args)

theorem spellsLine_exec : SpellsLine ("exec " ++ shellCommand installBin args).toList
    (.word (bare "exec".toList) :: commandLine installBin args) := by
  have htext : ("exec " ++ shellCommand installBin args).toList = "exec".toList ++
      (installBin.toList :: args.map fun arg => (shellQuote arg).toList).flatMap (' ' :: ·) := by
    have hexec : "exec ".toList = "exec".toList ++ [' '] := by decide
    rw [String.toList_append, toList_shellCommand, hexec, List.flatMap_cons]
    simp only [List.append_assoc, List.cons_append, List.nil_append]
  rw [htext]
  exact spellsLine_words (spells_of_isBareWord (by decide))
    (.cons (spells_of_isBareWord isBareWord_installBin) (spells_shellArgs args))

theorem spellsLine_functionHead : SpellsLine "cleanup() \x7b".toList
    [.word (bare "cleanup".toList), .operator '(', .operator ')', .word (bare ['\x7b'])] := by
  intro rest
  have htext : "cleanup() \x7b".toList ++ '\n' :: rest =
      "cleanup".toList ++ '(' :: ')' :: ' ' :: '\x7b' :: '\n' :: rest := by
    have hhead : "cleanup() \x7b".toList = "cleanup".toList ++ ['(', ')', ' ', '\x7b'] := by decide
    rw [hhead, List.append_assoc]
    rfl
  rw [htext, @spells_of_isBareWord "cleanup" (by decide)]
  simp [tokensFrom, isBlank, isOperator, bare, Function.comp_def]

theorem spellsLine_of_text {text : String} (htext : text.toList =
    word.toList ++ (words.map String.toList).flatMap (' ' :: ·))
    (h : (word :: words).all isBareWord = true) :
    SpellsLine text.toList (bareLine (word :: words)) := by
  rw [htext]
  exact spellsLine_bareLine h

theorem spellsLine_teardown : SpellsLine ("    " ++ (installBin ++ " --teardown-firewall")).toList
    (bareLine [installBin, "--teardown-firewall"]) := by
  have htext : ("    " ++ (installBin ++ " --teardown-firewall")).toList =
      ' ' :: ' ' :: ' ' :: ' ' :: (installBin.toList ++
        (["--teardown-firewall"].map String.toList).flatMap (' ' :: ·)) := by
    decide
  rw [htext]
  apply spellsLine_blank
  apply spellsLine_blank
  apply spellsLine_blank
  apply spellsLine_blank
  exact spellsLine_bareLine (by decide)

theorem spellsLine_wrapperTokens (args : List String) : List.Forall₂ SpellsLine
    ((wrapperLines args).map String.toList) (wrapperTokens args) := by
  have hcomment : ∀ text : String, text.toList.head? = some '#' → '\n' ∉ text.toList →
      SpellsLine text.toList [] := by
    intro text hhash hline
    obtain ⟨rest, hrest⟩ := List.head?_eq_some_iff.mp hhash
    rw [hrest] at hline ⊢
    exact spellsLine_comment (fun hmem => hline (List.mem_cons_of_mem _ hmem))
  refine .cons (hcomment _ (by decide) (by decide)) ?_
  refine .cons (hcomment _ (by decide) (by decide)) ?_
  refine .cons (hcomment _ (by decide) (by decide)) ?_
  refine .cons (spellsLine_of_text (by decide) (by decide)) ?_
  refine .cons spellsLine_nil ?_
  refine .cons spellsLine_functionHead ?_
  refine .cons spellsLine_teardown ?_
  refine .cons (@spellsLine_of_text "\x7d" [] "\x7d" (by decide) (by decide)) ?_
  refine .cons (spellsLine_of_text (by decide) (by decide)) ?_
  refine .cons spellsLine_nil ?_
  refine .cons spellsLine_commandLine ?_
  refine .cons spellsLine_nil ?_
  exact .cons spellsLine_exec .nil

end Lines

section Statements
variable {args : List String} {functions : Functions}

theorem isLiteral_commandWords : ∀ w ∈ bare installBin.toList :: args.map shellWord,
    isLiteral w = true := by
  intro w hmem
  rcases List.mem_cons.mp hmem with rfl | hmem
  · decide
  · obtain ⟨arg, -, rfl⟩ := List.mem_map.mp hmem
    exact isLiteral_shellWord

theorem commandOf_commandLine : commandOf (commandLine installBin args) =
    some (Command.words ⟨installBin, args⟩) := by
  rw [commandLine, commandOf_words isLiteral_commandWords (by decide) (by decide),
    map_words]
  rfl

theorem commandOf_exec : commandOf (.word (bare "exec".toList) :: commandLine installBin args) =
    some ("exec".toList :: Command.words ⟨installBin, args⟩) := by
  have hliteral : ∀ w ∈ bare "exec".toList :: bare installBin.toList :: args.map shellWord,
      isLiteral w = true :=
    List.forall_mem_cons.mpr ⟨by decide, isLiteral_commandWords⟩
  have hmap : (bare "exec".toList :: bare installBin.toList :: args.map shellWord).map
      (List.map Prod.fst) = "exec".toList :: Command.words ⟨installBin, args⟩ := by
    rw [List.map_cons, map_words]
    rfl
  rw [← hmap]
  exact commandOf_words hliteral (by decide) (by decide)

theorem stmtOf_command : stmtOf functions (Command.words ⟨installBin, args⟩) =
    some (.run (Command.words ⟨installBin, args⟩)) := by
  have hset : installBin.toList ≠ "set".toList := by decide
  have htrap : installBin.toList ≠ "trap".toList := by decide
  have hexec : installBin.toList ≠ "exec".toList := by decide
  simp only [stmtOf, Command.words, List.map_cons, if_neg hset, if_neg htrap, if_neg hexec]

theorem stmtOf_exec : stmtOf functions ("exec".toList :: Command.words ⟨installBin, args⟩) =
    some (.exec (Command.words ⟨installBin, args⟩)) := by
  have hset : "exec".toList ≠ "set".toList := by decide
  have htrap : "exec".toList ≠ "trap".toList := by decide
  have hwords : Command.words ⟨installBin, args⟩ ≠ [] := List.cons_ne_nil _ _
  simp only [stmtOf, if_neg hset, if_neg htrap, if_neg hwords, if_true]

variable {lines : List (List Token)}

theorem readLines_set : readLines functions none (bareLine ["set", "-euo", "pipefail"] :: lines) =
    (readLines functions none lines).map (.errexit :: ·) := by
  have hwords : commandOf (bareLine ["set", "-euo", "pipefail"]) =
      some (["set", "-euo", "pipefail"].map String.toList) := by decide
  exact readLines_stmt rfl hwords rfl

/-- The definition of `cleanup`. -/
theorem readLines_cleanup : readLines functions none
    ([.word (bare "cleanup".toList), .operator '(', .operator ')', .word (bare ['\x7b'])] ::
      bareLine [installBin, "--teardown-firewall"] :: [.word (bare ['\x7d'])] :: lines) =
    readLines (("cleanup".toList, [teardownCommand.words]) :: functions) none lines := by
  have hhead : functionHead [.word (bare "cleanup".toList), .operator '(', .operator ')',
      .word (bare ['\x7b'])] = some "cleanup".toList := by decide
  have hwords : commandOf (bareLine [installBin, "--teardown-firewall"]) =
      some teardownCommand.words := by decide
  rw [readLines_functionHead hhead]
  refine (readLines_body ?_ hwords).trans readLines_functionEnd
  simp

theorem readLines_trap : readLines (("cleanup".toList, [teardownCommand.words]) :: functions) none
    (bareLine ["trap", "cleanup", "EXIT"] :: lines) =
      (readLines (("cleanup".toList, [teardownCommand.words]) :: functions) none lines).map
        (.trapExit [teardownCommand.words] :: ·) := by
  have hwords : commandOf (bareLine ["trap", "cleanup", "EXIT"]) =
      some (["trap", "cleanup", "EXIT"].map String.toList) := by decide
  have hstmt : stmtOf (("cleanup".toList, [teardownCommand.words]) :: functions)
      (["trap", "cleanup", "EXIT"].map String.toList) =
        some (.trapExit [teardownCommand.words]) := by
    simp [stmtOf]
  exact readLines_stmt rfl hwords hstmt

theorem readLines_command : readLines functions none (commandLine installBin args :: lines) =
    (readLines functions none lines).map (.run (Command.words ⟨installBin, args⟩) :: ·) := by
  have hhead := @functionHead_words (bare installBin.toList :: args.map shellWord)
  exact readLines_stmt hhead commandOf_commandLine stmtOf_command

theorem readLines_exec : readLines functions none
    ((.word (bare "exec".toList) :: commandLine installBin args) :: lines) =
      (readLines functions none lines).map (.exec (Command.words ⟨installBin, args⟩) :: ·) := by
  have hhead := @functionHead_words
    (bare "exec".toList :: bare installBin.toList :: args.map shellWord)
  exact readLines_stmt hhead commandOf_exec stmtOf_exec

end Statements

theorem readScript_wrapper (args : List String) : readScript (generateWrapper args).toList =
    some ((wrapperScript args).map (Stmt.map Command.words)) := by
  have hnewline : ∀ line ∈ wrapperTokens args, .operator '\n' ∉ line := by
    simp [wrapperTokens, bareLine, commandLine]
  rw [readScript, toList_generateWrapper, scriptLines_of_spells (spellsLine_wrapperTokens args)
    hnewline, Option.bind_some, wrapperTokens]
  simp only [List.cons_append, List.nil_append, readLines_blank, readLines_set, readLines_cleanup,
    readLines_trap, readLines_command, readLines_exec]
  rfl

theorem words_injective : Function.Injective Command.words := by
  rintro ⟨program, args⟩ ⟨program', args'⟩ h
  obtain ⟨hprogram, hargs⟩ := List.cons.inj h
  obtain rfl : program = program' := String.toList_inj.mp hprogram
  obtain rfl : args = args' :=
    List.map_injective_iff.mpr (fun _ _ => String.toList_inj.mp) hargs
  rfl

/-- The shell reads the wrapper as its statements, each command with the arguments that it was
written for, whatever characters they have. Different commands have different wrappers. -/
theorem readScript_generateWrapper (args : List String) :
    readScript (generateWrapper args).toList =
      some ((wrapperScript args).map (Stmt.map Command.words)) ∧
    ∀ args', generateWrapper args' = generateWrapper args →
      wrapperSetup args' = wrapperSetup args ∧ proxyCommand args' = proxyCommand args := by
  refine ⟨readScript_wrapper args, fun args' heq => ?_⟩
  have hread := readScript_wrapper args'
  rw [heq, readScript_wrapper] at hread
  simp only [wrapperScript, List.map_cons, List.map_nil, Stmt.map, Option.some.injEq,
    List.cons.injEq, Stmt.run.injEq, Stmt.exec.injEq, true_and, and_true] at hread
  exact ⟨words_injective hread.1.symm, words_injective hread.2.symm⟩

end TransProxy.Service
