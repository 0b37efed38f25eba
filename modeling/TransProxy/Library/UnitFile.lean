import TransProxy.Library.Text

/-!
# The syntax of systemd units

A unit file is read in three steps: the text is cut into lines, of which a backslash joins two;
the value of a command setting is split into words, with quotes and escapes; and the specifiers
and the variables of the words are replaced.
-/
namespace TransProxy.Library.UnitFile

def isLineEnd (c : Char) : Bool := c == '\n' || c == '\r' || c == '\x00'

/-- The text has no end of line. -/
def OneLine (text : List Char) : Prop := ∀ c ∈ text, isLineEnd c = false

instance (text : List Char) : Decidable (OneLine text) :=
  List.decidableBAll (fun c => isLineEnd c = false) text

/-- Whether the next character is escaped. -/
def escapeStep (escaped : Bool) (c : Char) : Bool := !escaped && c == '\x5c'

/-- The lines, where `line` is what has been read of the first. An escaped end of line is a
blank in the middle of a line. -/
def unitLinesFrom (escaped : Bool) (line : List Char) : List Char → List (List Char)
  | [] => [line]
  | c :: text =>
    if isLineEnd c then
      if escaped then unitLinesFrom false (line.dropLast ++ [' ']) text
      else line :: unitLinesFrom false [] text
    else unitLinesFrom (escapeStep escaped c) (line ++ [c]) text

def unitLines (text : List Char) : List (List Char) := unitLinesFrom false [] text

/-- The value that a line gives to the setting. -/
def settingOf (key : List Char) (line : List Char) : Option (List Char) :=
  match splitOnce '=' line with
  | some (name, value) => if name = key then some value else none
  | none => none

def settings (key text : List Char) : List (List Char) := (unitLines text).filterMap (settingOf key)

section Lines
variable {text rest line : List Char} {escaped : Bool}

theorem OneLine.append (h : OneLine text) (hrest : OneLine rest) : OneLine (text ++ rest) :=
  List.forall_mem_append.mpr ⟨h, hrest⟩

theorem OneLine.cons {c : Char} (hc : isLineEnd c = false) (h : OneLine text) : OneLine (c :: text) :=
  List.forall_mem_cons.mpr ⟨hc, h⟩

/-- The first end of line. -/
theorem exists_lineEnd_of_not_oneLine (h : ¬ OneLine text) :
    ∃ front c back, text = front ++ c :: back ∧ isLineEnd c = true ∧ OneLine front := by
  have hsome : (text.find? isLineEnd).isSome = true := by
    simpa [OneLine] using h
  obtain ⟨c, hfind⟩ := Option.isSome_iff_exists.mp hsome
  obtain ⟨hc, front, back, heq, hfront⟩ := List.find?_eq_some_iff_append.mp hfind
  exact ⟨front, c, back, heq, hc, by simpa [OneLine] using hfront⟩

theorem escapeStep_of_lineEnd {c : Char} (h : isLineEnd c = true) : escapeStep escaped c = false := by
  have hc : c ≠ '\x5c' := by
    rintro rfl
    cases h
  simp [escapeStep, hc]

/-- An end of line that is not escaped separates what is before it from what is behind it. -/
theorem unitLinesFrom_append {c : Char} (hc : isLineEnd c = true)
    (h : text.foldl escapeStep escaped = false) :
    unitLinesFrom escaped line (text ++ c :: rest) =
      unitLinesFrom escaped line text ++ unitLines rest := by
  induction text generalizing escaped line with
  | nil =>
    obtain rfl : escaped = false := h
    simp [unitLinesFrom, unitLines, hc]
  | cons d text ih =>
    rw [List.foldl_cons] at h
    rw [List.cons_append, unitLinesFrom, unitLinesFrom]
    by_cases hd : isLineEnd d = true
    · rw [escapeStep_of_lineEnd hd] at h
      cases escaped with
      | true => simpa [hd] using ih h
      | false => simpa [hd] using ih h
    · simpa [hd] using ih h

theorem unitLines_append {c : Char} (hc : isLineEnd c = true)
    (h : text.foldl escapeStep false = false) :
    unitLines (text ++ c :: rest) = unitLines text ++ unitLines rest :=
  unitLinesFrom_append hc h

theorem unitLinesFrom_eq_singleton (h : OneLine text) :
    unitLinesFrom escaped line text = [line ++ text] := by
  induction text generalizing escaped line with
  | nil => simp [unitLinesFrom]
  | cons c text ih =>
    have hc := h c List.mem_cons_self
    have hrest := fun d hd => h d (List.mem_cons_of_mem c hd)
    simp [unitLinesFrom, hc, ih hrest]

theorem unitLines_eq_singleton (h : OneLine text) : unitLines text = [text] :=
  unitLinesFrom_eq_singleton h

theorem settings_append {key : List Char} {c : Char} (hc : isLineEnd c = true)
    (h : text.foldl escapeStep false = false) :
    settings key (text ++ c :: rest) = settings key text ++ settings key rest := by
  simp [settings, unitLines_append hc h]

/-- The setting on a line of its own. -/
theorem settings_of_line {key name value : List Char} (hname : '=' ∉ name)
    (h : OneLine (name ++ '=' :: value)) :
    settings key (name ++ '=' :: value) = if name = key then [value] else [] := by
  rw [settings, unitLines_eq_singleton h]
  have hline : settingOf key (name ++ '=' :: value) = if name = key then some value else none := by
    rw [settingOf, splitOnce_append hname]
  split_ifs at hline ⊢
  · rw [List.filterMap_cons_some hline, List.filterMap_nil]
  · rw [List.filterMap_cons_none hline, List.filterMap_nil]

end Lines

def isBlank (c : Char) : Bool := c == ' ' || c == '\t' || c == '\n' || c == '\r'

def isQuote (c : Char) : Bool := c == '\x22' || c == '\x27'

/-- The escapes of one character. Those with digits are left out. -/
def escapes : List (Char × Char) :=
  [('a', '\x07'), ('b', '\x08'), ('f', '\x0c'), ('n', '\n'), ('r', '\r'), ('t', '\t'),
    ('v', '\x0b'), ('\x5c', '\x5c'), ('\x22', '\x22'), ('\x27', '\x27'), ('s', ' ')]

/-- The character that a backslash in front of `c` stands for. -/
def escapeOf (c : Char) : Option Char := (escapes.find? (fun e => e.1 == c)).map (fun e => e.2)

/-- A semicolon that stands alone separates two commands. -/
def startsCommand (text : List Char) : Bool :=
  match text with
  | ';' :: c :: _ => isBlank c
  | ';' :: [] => true
  | _ => false

/-- The words of one command, where `quote` is the open quote and `word` is what has been read of
the word, if one has begun. A quote that is not closed and an unknown escape are errors. -/
def splitFrom (escaped : Bool) (quote : Option Char) (word : Option (List Char)) :
    List Char → Option (List (List Char))
  | [] => if escaped ∨ quote ≠ none then none else some word.toList
  | c :: text =>
    if escaped then
      (escapeOf c).bind (fun d => splitFrom false quote (some (word.getD [] ++ [d])) text)
    else if c = '\x5c' then splitFrom true quote word text
    else if quote = some c then splitFrom false none word text
    else if quote = none ∧ isQuote c then splitFrom false (some c) (some (word.getD [])) text
    else if quote = none ∧ isBlank c then (splitFrom false none none text).map (word.toList ++ ·)
    else if quote = none ∧ word = none ∧ startsCommand (c :: text) then none
    else splitFrom false quote (some (word.getD [] ++ [c])) text

/-- Two of the character stand for one, and a single one is not itself; `pending` says that the
first of two has been read. -/
def undoubleFrom (special : Char) (pending : Bool) : List Char → Option (List Char)
  | [] => if pending then none else some []
  | c :: text =>
    if pending then
      if c = special then (undoubleFrom special false text).map (special :: ·) else none
    else if c = special then undoubleFrom special true text
    else (undoubleFrom special false text).map (c :: ·)

def undouble (special : Char) (text : List Char) : Option (List Char) :=
  undoubleFrom special false text

/-- A word without specifiers and variables. -/
def expand (word : List Char) : Option (List Char) := (undouble '%' word).bind (undouble '$')

/-- The arguments of a command setting that has one command. -/
def splitCommand (value : List Char) : Option (List (List Char)) :=
  (splitFrom false none none value).bind (fun words => words.mapM expand)

/-- The character is two of itself. -/
def double (special : Char) (text : List Char) : List Char :=
  text.flatMap (fun c => if c = special then [c, c] else [c])

/-- What is to stand in double quotes. -/
def escape (text : List Char) : List Char :=
  text.flatMap (fun c => if c = '\x22' ∨ c = '\x5c' then ['\x5c', c] else [c])

def isPlain (c : Char) : Bool := c ≠ '\x5c' && !isQuote c && !isBlank c && c ≠ ';'

/-- What is read as the word, whatever is behind it. -/
def Spells (spelling word : List Char) : Prop :=
  ∀ rest, splitFrom false none none (spelling ++ rest) = splitFrom false none (some word) rest

section Writing
variable {text rest word : List Char}

theorem undouble_double (special : Char) (text : List Char) :
    undouble special (double special text) = some text := by
  induction text with
  | nil => rfl
  | cons c text ih =>
    have hrest : undoubleFrom special false (double special text) = some text := ih
    rw [double, List.flatMap_cons, ← double]
    by_cases hc : c = special
    · simp [undouble, undoubleFrom, hc, hrest]
    · simp [undouble, undoubleFrom, hc, hrest]

theorem expand_double (text : List Char) : expand (double '%' (double '$' text)) = some text := by
  rw [expand, undouble_double, Option.bind_some, undouble_double]

/-- In double quotes, the escaped text stands for itself. -/
theorem splitFrom_escape :
    splitFrom false (some '\x22') (some word) (escape text ++ rest) =
      splitFrom false (some '\x22') (some (word ++ text)) rest := by
  induction text generalizing word with
  | nil => simp [escape]
  | cons c text ih =>
    have hcons : escape (c :: text) =
        (if c = '\x22' ∨ c = '\x5c' then ['\x5c', c] else [c]) ++ escape text := rfl
    rw [hcons, List.append_assoc]
    by_cases hquote : c = '\x22'
    · subst hquote
      simp [splitFrom, escapeOf, escapes, ih]
    · by_cases hslash : c = '\x5c'
      · subst hslash
        simp [splitFrom, escapeOf, escapes, ih]
      · simp [splitFrom, hquote, hslash, Ne.symm hquote, ih]

theorem spells_quoted (text : List Char) : Spells ('\x22' :: escape text ++ ['\x22']) text := by
  intro rest
  have hopen : splitFrom false none none ('\x22' :: escape text ++ ['\x22'] ++ rest) =
      splitFrom false (some '\x22') (some []) (escape text ++ '\x22' :: rest) := by
    simp [splitFrom, isQuote]
  rw [hopen, splitFrom_escape]
  simp [splitFrom]

/-- A quote that is not closed makes the command unreadable. -/
theorem splitFrom_unclosed (text : List Char) : splitFrom false none none ('\x22' :: escape text) = none := by
  have hopen : splitFrom false none none ('\x22' :: escape text) =
      splitFrom false (some '\x22') (some []) (escape text ++ []) := by
    simp [splitFrom, isQuote]
  rw [hopen, splitFrom_escape]
  simp [splitFrom]

theorem splitFrom_plain {c : Char} {word : Option (List Char)} (h : isPlain c = true) :
    splitFrom false none word (c :: rest) = splitFrom false none (some (word.getD [] ++ [c])) rest := by
  simp only [isPlain, Bool.and_eq_true, decide_eq_true_eq, Bool.not_eq_true', ne_eq] at h
  obtain ⟨⟨⟨hslash, hquote⟩, hblank⟩, hsemicolon⟩ := h
  have hstart : startsCommand (c :: rest) = false := by
    unfold startsCommand
    split
    · rename_i heq
      exact absurd (List.cons.inj heq).1 hsemicolon
    · rename_i heq
      exact absurd (List.cons.inj heq).1 hsemicolon
    · rfl
  simp [splitFrom, hslash, hquote, hblank, hstart]

theorem splitFrom_plains {word : Option (List Char)} (hne : text ≠ [])
    (h : ∀ c ∈ text, isPlain c = true) :
    splitFrom false none word (text ++ rest) = splitFrom false none (some (word.getD [] ++ text)) rest := by
  induction text generalizing word with
  | nil => exact absurd rfl hne
  | cons c text ih =>
    rw [List.cons_append, splitFrom_plain (h c List.mem_cons_self)]
    by_cases hnil : text = []
    · simp [hnil]
    · rw [ih hnil (fun d hd => h d (List.mem_cons_of_mem c hd))]
      simp

theorem spells_plain (hne : text ≠ []) (h : ∀ c ∈ text, isPlain c = true) : Spells text text :=
  fun _ => splitFrom_plains hne h

theorem splitFrom_blank : splitFrom false none (some word) (' ' :: rest) =
    (splitFrom false none none rest).map (word :: ·) := by
  simp [splitFrom, isBlank, isQuote]

/-- Words with blanks between them. -/
theorem splitFrom_spelled {spellings words : List (List Char)}
    (h : List.Forall₂ Spells spellings words) :
    splitFrom false none (some word) (spellings.flatMap (' ' :: ·)) = some (word :: words) := by
  induction h generalizing word with
  | nil => simp [splitFrom]
  | cons hspells _ ih =>
    rw [List.flatMap_cons, List.cons_append, splitFrom_blank, hspells, ih, Option.map_some]

theorem mem_double_iff {special c : Char} : c ∈ double special text ↔ c ∈ text := by
  have hmem : ∀ d : Char, (c ∈ if d = special then [d, d] else [d]) ↔ c = d := by
    intro d
    split_ifs <;> simp
  simp [double, List.mem_flatMap, hmem]

theorem oneLine_escape (h : OneLine text) : OneLine (escape text) := by
  intro c hc
  obtain ⟨d, hd, hmem⟩ := List.mem_flatMap.mp hc
  have hor : c = '\x5c' ∨ c = d := by
    split_ifs at hmem
    · simpa using hmem
    · exact .inr (List.mem_singleton.mp hmem)
  rcases hor with rfl | rfl
  · rfl
  · exact h c hd

theorem foldl_escapeStep (h : '\x5c' ∉ text) : text.foldl escapeStep false = false := by
  induction text with
  | nil => rfl
  | cons c text ih =>
    simp only [List.mem_cons, not_or] at h
    have hstep : escapeStep false c = false := by simp [escapeStep, Ne.symm h.1]
    rw [List.foldl_cons, hstep, ih h.2]

/-- The escapes of a text are complete. -/
theorem foldl_escapeStep_escape (text : List Char) :
    (escape text).foldl escapeStep false = false := by
  induction text with
  | nil => rfl
  | cons c text ih =>
    have hcons : escape (c :: text) =
        (if c = '\x22' ∨ c = '\x5c' then ['\x5c', c] else [c]) ++ escape text := rfl
    rw [hcons, List.foldl_append]
    split_ifs with hc
    · simpa [escapeStep] using ih
    · have hstep : escapeStep false c = false := by simp [escapeStep, (not_or.mp hc).2]
      rw [List.foldl_cons, List.foldl_nil, hstep, ih]

end Writing
end TransProxy.Library.UnitFile
