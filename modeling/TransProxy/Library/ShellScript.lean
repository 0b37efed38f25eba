import TransProxy.Library.Shell
import TransProxy.Library.ShellWords

/-!
# Scripts as the shell reads them

A text is cut into lines of tokens, and the lines are read as statements: commands of words, with
the builtins `set -e`, `trap … EXIT` and `exec`, and definitions of functions that a trap can name.
Everything else is not read.
-/
namespace TransProxy.Library

def Stmt.map {γ δ : Type*} (f : γ → δ) : Stmt γ → Stmt δ
  | .errexit => .errexit
  | .trapExit body => .trapExit (body.map f)
  | .run c => .run (f c)
  | .exec c => .exec (f c)

namespace ShellWords

def scriptLines (text : List Char) : Option (List (List Token)) :=
  (tokensFrom false .plain none text).map fun tokens => tokens.splitOn (.operator '\n')

/-- A line that is one command without assignments. -/
def commandOf (line : List Token) : Option (List (List Char)) :=
  ((line.mapM Token.word?).bind simpleCommand).bind fun c =>
    if c.assignments = [] then some c.words else none

abbrev Functions : Type := List (List Char × List (List (List Char)))

/-- The options other than `-e` say what happens in expansions and pipelines, of which a script
that is read has none. -/
def stmtOf (functions : Functions) (words : List (List Char)) : Option (Stmt (List (List Char))) :=
  match words with
  | [] => none
  | program :: args =>
    if program = "set".toList then
      if args = ["-euo".toList, "pipefail".toList] then some .errexit else none
    else if program = "trap".toList then
      match args with
      | [name, event] =>
        if event = "EXIT".toList then (functions.lookup name).map .trapExit else none
      | _ => none
    else if program = "exec".toList then
      if args = [] then none else some (.exec args)
    else some (.run (program :: args))

def functionHead : List Token → Option (List Char)
  | [.word name, .operator '(', .operator ')', .word brace] =>
    if brace = bare ['\x7b'] ∧ isName (name.map Prod.fst) then some (name.map Prod.fst) else none
  | _ => none

/-- `inside` is the function whose body is being read. -/
def readLines (functions : Functions) (inside : Option (List Char × List (List (List Char)))) :
    List (List Token) → Option (List (Stmt (List (List Char))))
  | [] => if inside = none then some [] else none
  | [] :: lines => readLines functions inside lines
  | line :: lines =>
    match inside with
    | some (name, body) =>
      if line = [.word (bare ['\x7d'])] then readLines ((name, body) :: functions) none lines
      else (commandOf line).bind fun c => readLines functions (some (name, body ++ [c])) lines
    | none =>
      match functionHead line with
      | some name => readLines functions (some (name, [])) lines
      | none => do
        let words ← commandOf line
        let stmt ← stmtOf functions words
        let rest ← readLines functions none lines
        return stmt :: rest

/-- The statements of a script whose commands are lists of words. -/
def readScript (text : List Char) : Option (List (Stmt (List (List Char)))) :=
  (scriptLines text).bind (readLines [] none)

/-- What is read as the tokens and the end of a line, whatever is behind it. -/
def SpellsLine (spelling : List Char) (line : List Token) : Prop :=
  ∀ rest, tokensFrom false .plain none (spelling ++ '\n' :: rest) =
    (tokensFrom false .plain none rest).map (line ++ .operator '\n' :: ·)

section Lines
variable {text rest : List Char} {line : List Token} {w : Word}

theorem spellsLine_nil : SpellsLine [] [] := by
  intro rest
  simp [tokensFrom, isBlank, isOperator]

theorem tokensFrom_comment (h : '\n' ∉ text) :
    tokensFrom false .comment none (text ++ '\n' :: rest) =
      (tokensFrom false .plain none rest).map (.operator '\n' :: ·) := by
  induction text with
  | nil => simp [tokensFrom]
  | cons c text ih =>
    obtain ⟨hc, htext⟩ := not_or.mp (mt List.mem_cons.mpr h)
    simp [tokensFrom, Ne.symm hc, ih htext]

theorem spellsLine_comment (h : '\n' ∉ text) : SpellsLine ('#' :: text) [] := by
  intro rest
  have hopen : tokensFrom false .plain none ('#' :: text ++ '\n' :: rest) =
      tokensFrom false .comment none (text ++ '\n' :: rest) := by
    simp [tokensFrom]
  rw [hopen, tokensFrom_comment h]
  rfl

theorem spellsLine_blank (h : SpellsLine text line) : SpellsLine (' ' :: text) line := by
  intro rest
  have hblank : tokensFrom false .plain none (' ' :: text ++ '\n' :: rest) =
      tokensFrom false .plain none (text ++ '\n' :: rest) := by
    simp [tokensFrom, isBlank]
  rw [hblank, h]

/-- Words up to the end of the line. -/
theorem tokensFrom_words {spellings : List (List Char)} {words : List Word}
    (h : List.Forall₂ Spells spellings words) :
    tokensFrom false .plain (some w) (spellings.flatMap (' ' :: ·) ++ '\n' :: rest) =
      (tokensFrom false .plain none rest).map ((w :: words).map .word ++ .operator '\n' :: ·) := by
  induction h generalizing w with
  | nil => simp [tokensFrom, isBlank, isOperator]
  | cons hspells _ ih =>
    rw [List.flatMap_cons, List.cons_append, List.cons_append, tokensFrom_blank, List.append_assoc,
      hspells, ih, Option.map_map]
    rfl

theorem spellsLine_words {first : List Char} {spellings : List (List Char)} {words : List Word}
    (hfirst : Spells first w) (h : List.Forall₂ Spells spellings words) :
    SpellsLine (first ++ spellings.flatMap (' ' :: ·)) ((w :: words).map .word) := by
  intro rest
  rw [List.append_assoc, hfirst, tokensFrom_words h]

/-- A text of lines is read as its lines, and nothing is behind the last one. -/
theorem scriptLines_of_spells {spellings : List (List Char)} {lines : List (List Token)}
    (h : List.Forall₂ SpellsLine spellings lines)
    (hlines : ∀ line ∈ lines, .operator '\n' ∉ line) :
    scriptLines (spellings.flatMap (· ++ ['\n'])) = some (lines ++ [[]]) := by
  have htokens : tokensFrom false .plain none (spellings.flatMap (· ++ ['\n'])) =
      some (lines.flatMap (· ++ [.operator '\n'])) := by
    clear hlines
    induction h with
    | nil => simp [tokensFrom]
    | cons hspells _ ih =>
      rw [List.flatMap_cons, List.append_assoc, List.singleton_append, hspells, ih, Option.map_some,
        List.flatMap_cons, List.append_assoc, List.singleton_append]
  have hjoin : ∀ lines : List (List Token), lines.flatMap (· ++ [.operator '\n']) =
      [.operator '\n'].intercalate (lines ++ [[]]) := by
    intro lines
    induction lines with
    | nil => simp
    | cons line lines ih =>
      cases lines with
      | nil => simp
      | cons next lines =>
        rw [List.flatMap_cons, ih]
        simp
  rw [scriptLines, htokens, Option.map_some, hjoin, List.splitOn_intercalate]
  · intro line hline
    rcases List.mem_append.mp hline with hmem | hlast
    · exact hlines line hmem
    · obtain rfl := List.mem_singleton.mp hlast
      exact List.not_mem_nil
  · simp

/-- A command of literal words. -/
theorem commandOf_words {words : List Word} (h : ∀ v ∈ w :: words, isLiteral v = true)
    (hreserved : isReserved w = false) (hassign : isAssignment w = false) :
    commandOf ((w :: words).map .word) = some ((w :: words).map (List.map Prod.fst)) := by
  have hwords : ((w :: words).map Token.word).mapM Token.word? = some (w :: words) := by
    generalize w :: words = all
    induction all with
    | nil => rfl
    | cons v all ih =>
      rw [List.map_cons, List.mapM_cons, ih]
      rfl
  rw [commandOf, hwords, Option.bind_some, (simpleCommand_eq_iff h).mpr ⟨hreserved, hassign⟩]
  rfl

end Lines

section Statements
variable {functions : Functions} {inside : Option (List Char × List (List (List Char)))}
  {lines : List (List Token)} {token : Token} {line : List Token} {words : List (List Char)}
  {ws : List Word}

@[simp] theorem readLines_blank :
    readLines functions inside ([] :: lines) = readLines functions inside lines := by
  rw [readLines]

theorem functionHead_words : functionHead (ws.map .word) = none := by
  match ws with
  | [] => rfl
  | [_] => rfl
  | _ :: _ :: _ => rfl

theorem readLines_stmt {stmt : Stmt (List (List Char))}
    (hhead : functionHead (token :: line) = none) (hwords : commandOf (token :: line) = some words)
    (hstmt : stmtOf functions words = some stmt) :
    readLines functions none ((token :: line) :: lines) =
      (readLines functions none lines).map (stmt :: ·) := by
  rw [readLines]
  · simp only [hhead, hwords, hstmt, Option.bind_eq_bind, Option.bind_some]
    cases readLines functions none lines <;> rfl
  · exact List.cons_ne_nil token line

theorem readLines_functionHead {name : List Char}
    (hhead : functionHead (token :: line) = some name) :
    readLines functions none ((token :: line) :: lines) =
      readLines functions (some (name, [])) lines := by
  rw [readLines]
  · simp only [hhead]
  · exact List.cons_ne_nil token line

theorem readLines_body {name : List Char} {body : List (List (List Char))}
    (hend : token :: line ≠ [.word (bare ['\x7d'])])
    (hwords : commandOf (token :: line) = some words) :
    readLines functions (some (name, body)) ((token :: line) :: lines) =
      readLines functions (some (name, body ++ [words])) lines := by
  rw [readLines]
  · simp only [if_neg hend, hwords, Option.bind_some]
  · exact List.cons_ne_nil token line

theorem readLines_functionEnd {name : List Char} {body : List (List (List Char))} :
    readLines functions (some (name, body)) ([.word (bare ['\x7d'])] :: lines) =
      readLines ((name, body) :: functions) none lines := by
  rw [readLines]
  · exact if_pos rfl
  · exact List.cons_ne_nil _ _

end Statements
end ShellWords
end TransProxy.Library
