import TransProxy.Library.Text

/-!
# Simple commands of the shell

A text is cut into words and operators, where quotes and backslashes make characters literal.
What is read here is one command of words only: an operator, and everything that the shell would
expand, makes the text one that is not read.
-/
namespace TransProxy.Library.ShellWords

/-- The characters of a word, with whether they are quoted. -/
abbrev Word : Type := List (Char × Bool)

inductive Token where
  | word (w : Word)
  | operator (c : Char)
deriving DecidableEq

def Token.word? : Token → Option Word
  | word w => some w
  | operator _ => none

inductive Mode where
  | plain
  | singleQuoted
  | doubleQuoted
  | comment
deriving DecidableEq

def isBlank (c : Char) : Bool := c == ' ' || c == '\t'

/-- The beginnings of the operators; the end of a line is one. -/
def isOperator (c : Char) : Bool := ['|', '&', ';', '<', '>', '(', ')', '\n'].contains c

/-- What keeps its meaning in double quotes. -/
def expandsInQuotes (c : Char) : Bool := c == '$' || c == '\x60'

/-- What a backslash in double quotes escapes. -/
def escapesInQuotes (c : Char) : Bool := expandsInQuotes c || c == '\x22' || c == '\x5c'

/-- The tokens, where `word` is what has been read of the word, if one has begun. A quote that is
not closed is an error. -/
def tokensFrom (escaped : Bool) (mode : Mode) (word : Option Word) :
    List Char → Option (List Token)
  | [] =>
    if escaped ∨ mode = .singleQuoted ∨ mode = .doubleQuoted then none
    else some (word.toList.map .word)
  | c :: text =>
    if escaped then
      -- A line goes on behind an escaped line feed.
      if c = '\n' then tokensFrom false mode word text
      else if mode = .doubleQuoted ∧ ¬ escapesInQuotes c then
        tokensFrom false mode (some (word.getD [] ++ [('\x5c', true), (c, true)])) text
      else tokensFrom false mode (some (word.getD [] ++ [(c, true)])) text
    else if mode = .singleQuoted then
      if c = '\x27' then tokensFrom false .plain word text
      else tokensFrom false mode (some (word.getD [] ++ [(c, true)])) text
    else if mode = .doubleQuoted then
      if c = '\x22' then tokensFrom false .plain word text
      else if c = '\x5c' then tokensFrom true mode word text
      else tokensFrom false mode (some (word.getD [] ++ [(c, !expandsInQuotes c)])) text
    else if mode = .comment then
      if c = '\n' then (tokensFrom false .plain none text).map (.operator c :: ·)
      else tokensFrom false mode word text
    else if c = '\x5c' then tokensFrom true mode word text
    else if c = '\x27' then tokensFrom false .singleQuoted (some (word.getD [])) text
    else if c = '\x22' then tokensFrom false .doubleQuoted (some (word.getD [])) text
    else if c = '#' ∧ word = none then tokensFrom false .comment none text
    else if isBlank c then
      (tokensFrom false .plain none text).map (word.toList.map .word ++ ·)
    else if isOperator c then
      (tokensFrom false .plain none text).map (word.toList.map .word ++ .operator c :: ·)
    else tokensFrom false .plain (some (word.getD [] ++ [(c, false)])) text

theorem tokensFrom_blank {w : Word} {rest : List Char} :
    tokensFrom false .plain (some w) (' ' :: rest) =
      (tokensFrom false .plain none rest).map (.word w :: ·) := by
  simp [tokensFrom, isBlank]

def bare (text : List Char) : Word := text.map (fun c => (c, false))

def quoted (text : List Char) : Word := text.map (fun c => (c, true))

def isNameChar (c : Char) : Bool := c.isAlphanum || c == '_'

/-- A name, as variables have them. -/
def isName : List Char → Bool
  | [] => false
  | c :: text => !c.isDigit && (c :: text).all isNameChar

/-- What is behind a name and the character, neither of which is quoted. -/
def afterName (stop : Char) (w : Word) : Option Word :=
  let isBareNameChar := fun (e : Char × Bool) => !e.2 && isNameChar e.1
  match w.dropWhile isBareNameChar with
  | (c, false) :: rest =>
    if c = stop ∧ isName ((w.takeWhile isBareNameChar).map Prod.fst) then some rest else none
  | _ => none

def isAssignment (w : Word) : Bool := (afterName '=' w).isSome

def reservedWords : List String :=
  ["!", "\x7b", "\x7d", "case", "do", "done", "elif", "else", "esac", "fi", "for", "if", "in",
    "then", "until", "while", "[[", "]]", "function", "select"]

/-- A name in front of a colon is reserved too. -/
def isReserved (w : Word) : Bool :=
  reservedWords.any (fun name => w == bare name.toList) || afterName ':' w == some []

/-- The beginnings of expansions. -/
def expands (c : Char) : Bool := ['$', '\x60', '*', '?', '[', '~'].contains c

def isLiteral (w : Word) : Bool := w.all (fun e => e.2 || !expands e.1)

structure SimpleCommand where
  assignments : List (List Char)
  words : List (List Char)
deriving DecidableEq

/-- The first word says what the command is, and assignments stand in front of the others. -/
def simpleCommand (words : List Word) : Option SimpleCommand :=
  if words.head?.any isReserved ∨ ¬ words.all isLiteral then none
  else some
    { assignments := (words.takeWhile isAssignment).map (List.map Prod.fst)
      words := (words.dropWhile isAssignment).map (List.map Prod.fst) }

/-- The text as one command, if it is one, and the shell leaves its words as they are. -/
def evaluate (text : List Char) : Option SimpleCommand :=
  (tokensFrom false .plain none text).bind (fun tokens =>
    (tokens.mapM Token.word?).bind simpleCommand)

section Command
variable {text : List Char} {words : List Word} {c : SimpleCommand}

theorem not_isNameChar_equals : isNameChar '=' = false := by decide

theorem all_of_isName (h : isName text = true) : ∀ c ∈ text, isNameChar c = true := by
  cases text with
  | nil => cases h
  | cons c text => exact List.all_eq_true.mp (Bool.and_eq_true_iff.mp h).2

/-- Without quotes, an assignment is what it looks like. -/
theorem isAssignment_bare_iff : isAssignment (bare text) = true ↔
    ∃ name value, isName name = true ∧ text = name ++ '=' :: value := by
  have hcomp : (fun e : Char × Bool => !e.2 && isNameChar e.1) ∘ (fun c => (c, false)) =
      isNameChar := by
    funext c
    simp
  have hname : ((bare text).takeWhile (fun e => !e.2 && isNameChar e.1)).map Prod.fst =
      text.takeWhile isNameChar := by
    rw [bare, List.takeWhile_map, hcomp, List.map_map]
    exact List.map_id _
  have hrest : (bare text).dropWhile (fun e => !e.2 && isNameChar e.1) =
      bare (text.dropWhile isNameChar) := by
    rw [bare, List.dropWhile_map, hcomp, bare]
  rw [isAssignment, afterName, hname, hrest]
  constructor
  · intro h
    cases hdrop : text.dropWhile isNameChar with
    | nil => simp [hdrop, bare] at h
    | cons c value =>
      obtain ⟨rfl, hisName⟩ : c = '=' ∧ isName (text.takeWhile isNameChar) = true := by
        simpa [hdrop, bare, Option.isSome_ite] using h
      refine ⟨text.takeWhile isNameChar, value, hisName, ?_⟩
      rw [← hdrop, List.takeWhile_append_dropWhile]
  · rintro ⟨name, value, hisName, rfl⟩
    have hall := all_of_isName hisName
    rw [List.takeWhile_append_of_pos hall, List.dropWhile_append_of_pos hall]
    simp [not_isNameChar_equals, bare, hisName]

/-- No word is lost. -/
theorem length_simpleCommand (h : simpleCommand words = some c) :
    c.assignments.length + c.words.length = words.length := by
  rw [simpleCommand] at h
  split_ifs at h
  obtain rfl := Option.some.inj h
  rw [List.length_map, List.length_map, ← List.length_append, List.takeWhile_append_dropWhile]

/-- The words are those of a command if the first one is no reserved word and no assignment. -/
theorem simpleCommand_eq_iff {w : Word} (h : ∀ v ∈ w :: words, isLiteral v = true) :
    simpleCommand (w :: words) =
        some { assignments := [], words := (w :: words).map (List.map Prod.fst) } ↔
      isReserved w = false ∧ isAssignment w = false := by
  have hall : (w :: words).all isLiteral = true := List.all_eq_true.mpr h
  rw [simpleCommand]
  cases hreserved : isReserved w with
  | true => simp [hreserved]
  | false =>
    cases hassign : isAssignment w with
    | true => simp [hreserved, hassign]
    | false => simp [hreserved, hassign, hall]

end Command

def isPlain (c : Char) : Bool :=
  !isBlank c && !isOperator c && !(['\x5c', '\x27', '\x22', '#'].contains c)

/-- A quote in single quotes is put behind them, escaped. -/
def escape (text : List Char) : List Char :=
  text.flatMap (fun c => if c = '\x27' then ['\x27', '\x5c', '\x27', '\x27'] else [c])

/-- What is read as the word, whatever is behind it. -/
def Spells (spelling : List Char) (w : Word) : Prop :=
  ∀ rest, tokensFrom false .plain none (spelling ++ rest) = tokensFrom false .plain (some w) rest

section Writing
variable {text rest : List Char} {w : Word}

theorem tokensFrom_plain {c : Char} {word : Option Word} (h : isPlain c = true) :
    tokensFrom false .plain word (c :: rest) =
      tokensFrom false .plain (some (word.getD [] ++ [(c, false)])) rest := by
  simp only [isPlain, Bool.and_eq_true, Bool.not_eq_true', List.contains_eq_mem, List.mem_cons,
    List.not_mem_nil, or_false, decide_eq_false_iff_not, not_or] at h
  obtain ⟨⟨hblank, hoperator⟩, hslash, hsingle, hdouble, hhash⟩ := h
  simp [tokensFrom, hblank, hoperator, hslash, hsingle, hdouble, hhash]

theorem tokensFrom_plains {word : Option Word} (hne : text ≠ [])
    (h : ∀ c ∈ text, isPlain c = true) :
    tokensFrom false .plain word (text ++ rest) =
      tokensFrom false .plain (some (word.getD [] ++ bare text)) rest := by
  induction text generalizing word with
  | nil => exact absurd rfl hne
  | cons c text ih =>
    rw [List.cons_append, tokensFrom_plain (h c List.mem_cons_self)]
    by_cases hnil : text = []
    · simp [hnil, bare]
    · rw [ih hnil (fun d hd => h d (List.mem_cons_of_mem c hd))]
      simp [bare]

theorem spells_bare (hne : text ≠ []) (h : ∀ c ∈ text, isPlain c = true) :
    Spells text (bare text) :=
  fun _ => tokensFrom_plains hne h

/-- In single quotes, the escaped text stands for itself. -/
theorem tokensFrom_escape :
    tokensFrom false .singleQuoted (some w) (escape text ++ rest) =
      tokensFrom false .singleQuoted (some (w ++ quoted text)) rest := by
  induction text generalizing w with
  | nil => simp [escape, quoted]
  | cons c text ih =>
    have hcons : escape (c :: text) =
        (if c = '\x27' then ['\x27', '\x5c', '\x27', '\x27'] else [c]) ++ escape text := rfl
    rw [hcons, List.append_assoc]
    by_cases hquote : c = '\x27'
    · subst hquote
      simp [tokensFrom, quoted, ih]
    · simp [tokensFrom, quoted, hquote, ih]

theorem spells_quoted (text : List Char) :
    Spells ('\x27' :: escape text ++ ['\x27']) (quoted text) := by
  intro rest
  have hopen : tokensFrom false .plain none ('\x27' :: escape text ++ ['\x27'] ++ rest) =
      tokensFrom false .singleQuoted (some []) (escape text ++ '\x27' :: rest) := by
    simp [tokensFrom]
  rw [hopen, tokensFrom_escape]
  simp [tokensFrom]

/-- Words with blanks in front of them. -/
theorem tokensFrom_spelled {spellings : List (List Char)} {words : List Word}
    (h : List.Forall₂ Spells spellings words) :
    tokensFrom false .plain (some w) (spellings.flatMap (' ' :: ·)) =
      some ((w :: words).map .word) := by
  induction h generalizing w with
  | nil => simp [tokensFrom]
  | cons hspells _ ih =>
    rw [List.flatMap_cons, List.cons_append, tokensFrom_blank, hspells, ih, Option.map_some]
    rfl

end Writing
end TransProxy.Library.ShellWords
