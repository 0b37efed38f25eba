import TransProxy.Library.Lines

/-!
# The main ruleset of pf

An anchor that the main ruleset does not refer to is not evaluated. The references are put
behind a copy of the ruleset of the system, and pf loads the result only if its statements are
still in order.
-/
namespace TransProxy.Firewall
open Library

def anchorName : String := "trans_proxy"

def rdrAnchorLine : String := "rdr-anchor \x22" ++ anchorName ++ "\x22"

def anchorLine : String := "anchor \x22" ++ anchorName ++ "\x22"

def hasPfConfLine (conf line : String) : Bool :=
  (strLines conf.toList).any (fun candidate => trim candidate == line.toList)

def appendPfConfLine (conf line : String) : String :=
  let conf := if conf ≠ "" ∧ conf.toList.getLast? ≠ some '\n' then conf ++ "\n" else conf
  conf ++ line ++ "\n"

def mainRulesetWithAnchorReferences (base : String) : String :=
  let fullConf := base
  let fullConf :=
    if !hasPfConfLine fullConf rdrAnchorLine then appendPfConfLine fullConf rdrAnchorLine
    else fullConf
  if !hasPfConfLine fullConf anchorLine then appendPfConfLine fullConf anchorLine else fullConf

/-- The kinds of statements that pf wants in this order. -/
inductive PfSection where
  | options
  | normalization
  | queueing
  | translation
  | filtering
deriving DecidableEq

namespace PfSection

def rank : PfSection → ℕ
  | options => 0
  | normalization => 1
  | queueing => 2
  | translation => 3
  | filtering => 4

def keywords : List (String × PfSection) :=
  [("set", options), ("scrub", normalization), ("scrub-anchor", normalization),
    ("altq", queueing), ("queue", queueing), ("nat", translation), ("rdr", translation),
    ("binat", translation), ("nat-anchor", translation), ("rdr-anchor", translation),
    ("binat-anchor", translation), ("block", filtering), ("pass", filtering),
    ("antispoof", filtering), ("anchor", filtering)]

def isKeywordChar (c : Char) : Bool := c.isAlphanum || c == '-' || c == '_'

def firstWord (text : List Char) : String × List Char :=
  let text := text.dropWhile isWhiteSpace
  (String.ofList (text.takeWhile isKeywordChar), text.dropWhile isKeywordChar)

/-- The kind of the statement on a line. Comments, macros, tables and the like have none, and a
`no` in front of a statement does not change it. -/
def of (line : List Char) : Option PfSection :=
  let (word, rest) := firstWord line
  let word := if word = "no" then (firstWord rest).1 else word
  (keywords.find? (fun e => e.1 = word)).map (fun e => e.2)

end PfSection

/-- The places of the statements in the order. -/
def statementRanks (text : String) : List ℕ :=
  ((linesOf text.toList).filterMap PfSection.of).map PfSection.rank

def InOrder (text : String) : Prop := (statementRanks text).Pairwise (· ≤ ·)

instance (text : String) : Decidable (InOrder text) := inferInstanceAs (Decidable (List.Pairwise _ _))

/-- The line is a statement of its own, if it is one, and not one about the order. -/
structure PlainLine (line : List Char) : Prop where
  option : (PfSection.firstWord (PfSection.firstWord line).2).1 ≠ "require-order"
  ends : line.getLast? ≠ some '\\'
  closed : line.count '\x7b' = line.count '\x7d'

instance (line : List Char) : Decidable (PlainLine line) :=
  decidable_of_iff ((PfSection.firstWord (PfSection.firstWord line).2).1 ≠ "require-order" ∧
    line.getLast? ≠ some '\\' ∧ line.count '\x7b' = line.count '\x7d')
    ⟨fun ⟨h, h', h''⟩ => ⟨h, h', h''⟩, fun ⟨h, h', h''⟩ => ⟨h, h', h''⟩⟩

def PlainLines (text : String) : Prop := ∀ line ∈ linesOf text.toList, PlainLine line

instance (text : String) : Decidable (PlainLines text) :=
  inferInstanceAs (Decidable (∀ line ∈ linesOf text.toList, PlainLine line))

def missingReferences (base : String) : List (List Char) :=
  (if hasPfConfLine base rdrAnchorLine then [] else [rdrAnchorLine.toList]) ++
    if hasPfConfLine base anchorLine then [] else [anchorLine.toList]

/-- The ruleset is still one that pf takes, and it is the given one with the references. -/
structure KeepsRuleset (base : String) : Prop where
  inOrder : InOrder (mainRulesetWithAnchorReferences base)
  lines : linesOf (mainRulesetWithAnchorReferences base).toList =
    linesOf base.toList ++ missingReferences base
  rdrAnchor : hasPfConfLine (mainRulesetWithAnchorReferences base) rdrAnchorLine = true
  anchor : hasPfConfLine (mainRulesetWithAnchorReferences base) anchorLine = true
  again : mainRulesetWithAnchorReferences (mainRulesetWithAnchorReferences base) =
    mainRulesetWithAnchorReferences base

section Lines
variable {base conf line : String}

theorem hasPfConfLine_iff : hasPfConfLine conf line = true ↔
    line.toList ∈ (linesOf conf.toList).map trim := by
  rw [← map_trim_strLines, hasPfConfLine, List.any_eq_true, List.mem_map]
  simp only [beq_iff_eq]

/-- What is appended is one line more. -/
theorem linesOf_appendPfConfLine (h : '\n' ∉ line.toList) :
    linesOf (appendPfConfLine conf line).toList = linesOf conf.toList ++ [line.toList] := by
  rw [appendPfConfLine]
  split_ifs with hopen
  · have hne : conf.toList ≠ [] := by simpa using hopen.1
    simpa using linesOf_append_newline_line h hne hopen.2
  · have hended : conf.toList = [] ∨ conf.toList.getLast? = some '\n' := by
      rw [not_and_or, not_not, not_not] at hopen
      simpa using hopen
    simpa using linesOf_append_line h hended

theorem hasPfConfLine_appendPfConfLine {other : String} (h : '\n' ∉ line.toList) :
    hasPfConfLine (appendPfConfLine conf line) other = true ↔
      hasPfConfLine conf other = true ∨ other.toList = trim line.toList := by
  rw [hasPfConfLine_iff, hasPfConfLine_iff, linesOf_appendPfConfLine h]
  simp

theorem inline_references : '\n' ∉ rdrAnchorLine.toList ∧ '\n' ∉ anchorLine.toList := by decide

theorem trim_references : trim rdrAnchorLine.toList = rdrAnchorLine.toList ∧
    trim anchorLine.toList = anchorLine.toList := by
  decide

theorem anchorLine_ne : anchorLine.toList ≠ rdrAnchorLine.toList := by decide

/-- The first reference is none for the second. -/
theorem hasPfConfLine_anchorLine : hasPfConfLine (appendPfConfLine conf rdrAnchorLine) anchorLine =
    hasPfConfLine conf anchorLine := by
  rw [Bool.eq_iff_iff, hasPfConfLine_appendPfConfLine inline_references.1, trim_references.1]
  simp [anchorLine_ne]

theorem mainRuleset_eq (base : String) : mainRulesetWithAnchorReferences base =
    if hasPfConfLine base rdrAnchorLine then
      if hasPfConfLine base anchorLine then base else appendPfConfLine base anchorLine
    else if hasPfConfLine base anchorLine then appendPfConfLine base rdrAnchorLine
    else appendPfConfLine (appendPfConfLine base rdrAnchorLine) anchorLine := by
  unfold mainRulesetWithAnchorReferences
  cases hrdr : hasPfConfLine base rdrAnchorLine with
  | true => cases hanchor : hasPfConfLine base anchorLine <;> simp [hrdr, hanchor]
  | false =>
    cases hanchor : hasPfConfLine base anchorLine <;>
      simp [hrdr, hasPfConfLine_anchorLine, hanchor]

theorem linesOf_mainRuleset (base : String) :
    linesOf (mainRulesetWithAnchorReferences base).toList =
      linesOf base.toList ++ missingReferences base := by
  rw [mainRuleset_eq, missingReferences]
  split_ifs
  · simp
  · rw [linesOf_appendPfConfLine inline_references.2]
    rfl
  · rw [linesOf_appendPfConfLine inline_references.1]
    rfl
  · rw [linesOf_appendPfConfLine inline_references.2, linesOf_appendPfConfLine inline_references.1,
      List.append_assoc]

theorem plainLines_mainRuleset (h : PlainLines base) :
    PlainLines (mainRulesetWithAnchorReferences base) := by
  have hreferences : PlainLine rdrAnchorLine.toList ∧ PlainLine anchorLine.toList := by decide
  intro line hline
  rw [linesOf_mainRuleset, missingReferences] at hline
  rcases List.mem_append.mp hline with hold | hnew
  · exact h line hold
  · rcases List.mem_append.mp hnew with hrdr | hanchor
    · split_ifs at hrdr
      · cases hrdr
      · exact List.mem_singleton.mp hrdr ▸ hreferences.1
    · split_ifs at hanchor
      · cases hanchor
      · exact List.mem_singleton.mp hanchor ▸ hreferences.2

theorem hasPfConfLine_mainRuleset : hasPfConfLine (mainRulesetWithAnchorReferences base) line = true ↔
    hasPfConfLine base line = true ∨ line.toList ∈ (missingReferences base).map trim := by
  rw [hasPfConfLine_iff, hasPfConfLine_iff, linesOf_mainRuleset, List.map_append, List.mem_append]

/-- Both references are there. -/
theorem hasPfConfLine_references (base : String) :
    hasPfConfLine (mainRulesetWithAnchorReferences base) rdrAnchorLine = true ∧
      hasPfConfLine (mainRulesetWithAnchorReferences base) anchorLine = true := by
  simp only [hasPfConfLine_mainRuleset, missingReferences]
  constructor
  · cases hrdr : hasPfConfLine base rdrAnchorLine <;> simp [trim_references]
  · cases hanchor : hasPfConfLine base anchorLine <;> simp [trim_references]

theorem mainRuleset_again (base : String) :
    mainRulesetWithAnchorReferences (mainRulesetWithAnchorReferences base) =
      mainRulesetWithAnchorReferences base := by
  obtain ⟨hrdr, hanchor⟩ := hasPfConfLine_references base
  rw [mainRuleset_eq, if_pos hrdr, if_pos hanchor]

end Lines

section Order
variable {base : String}

theorem of_references : PfSection.of rdrAnchorLine.toList = some .translation ∧
    PfSection.of anchorLine.toList = some .filtering := by
  decide

/-- The places of the statements that are added. -/
def missingRanks (base : String) : List ℕ :=
  (if hasPfConfLine base rdrAnchorLine then [] else [PfSection.translation.rank]) ++
    if hasPfConfLine base anchorLine then [] else [PfSection.filtering.rank]

theorem statementRanks_mainRuleset (base : String) :
    statementRanks (mainRulesetWithAnchorReferences base) =
      statementRanks base ++ missingRanks base := by
  rw [statementRanks, linesOf_mainRuleset, List.filterMap_append, List.map_append, statementRanks,
    missingReferences, missingRanks]
  congr 1
  split_ifs <;> simp [of_references]

/-- No statement comes behind those for filtering. -/
theorem rank_le (s : PfSection) : s.rank ≤ PfSection.filtering.rank := by cases s <;> decide

theorem rank_le_translation_iff (s : PfSection) :
    s.rank ≤ PfSection.translation.rank ↔ s ≠ .filtering := by
  cases s <;> decide

theorem forall_statementRanks {P : ℕ → Prop} : (∀ n ∈ statementRanks base, P n) ↔
    ∀ line ∈ linesOf base.toList, ∀ s, PfSection.of line = some s → P s.rank := by
  simp only [statementRanks, List.forall_mem_map, List.mem_filterMap]
  constructor
  · exact fun h line hline s hs => h s ⟨line, hline, hs⟩
  · rintro h s ⟨line, hline, hs⟩
    exact h line hline s hs

/-- The translation reference may stand behind everything but statements for filtering, and the
filter reference behind everything. -/
theorem inOrder_mainRuleset_iff (h : InOrder base) :
    InOrder (mainRulesetWithAnchorReferences base) ↔
      hasPfConfLine base rdrAnchorLine = true ∨
        ∀ line ∈ linesOf base.toList, PfSection.of line ≠ some .filtering := by
  have hlast : ∀ n ∈ statementRanks base, n ≤ PfSection.filtering.rank :=
    forall_statementRanks.mpr fun _ _ s _ => rank_le s
  have hrdr : (∀ n ∈ statementRanks base, n ≤ PfSection.translation.rank) ↔
      ∀ line ∈ linesOf base.toList, PfSection.of line ≠ some .filtering := by
    rw [forall_statementRanks]
    refine forall₂_congr fun line _ => ?_
    simp only [rank_le_translation_iff]
    constructor
    · exact fun hs heq => hs _ heq rfl
    · rintro hne s hs rfl
      exact hne hs
  have hbase : (statementRanks base).Pairwise (· ≤ ·) := h
  have hranks : PfSection.translation.rank ≤ PfSection.filtering.rank := by decide
  rw [InOrder, statementRanks_mainRuleset, List.pairwise_append, missingRanks, ← hrdr]
  cases hasPfConfLine base rdrAnchorLine with
  | true =>
    cases hasPfConfLine base anchorLine with
    | true => simp [hbase]
    | false => simpa [hbase] using hlast
  | false =>
    cases hasPfConfLine base anchorLine with
    | true => simp [hbase]
    | false => simpa [hbase, hranks, forall_and] using fun _ => hlast

/-- pf takes the ruleset with the references exactly if no translation has to be put behind
the filter statements: the reference is there already, or there are none. -/
theorem keepsRuleset_iff (h : InOrder base) : KeepsRuleset base ↔
    hasPfConfLine base rdrAnchorLine = true ∨
      ∀ line ∈ linesOf base.toList, PfSection.of line ≠ some .filtering := by
  rw [← inOrder_mainRuleset_iff h]
  constructor
  · exact KeepsRuleset.inOrder
  · intro horder
    obtain ⟨hrdr, hanchor⟩ := hasPfConfLine_references base
    exact ⟨horder, linesOf_mainRuleset base, hrdr, hanchor, mainRuleset_again base⟩

end Order

/-- A ruleset whose last statement is a translation. -/
theorem keepsRuleset_iff_sample :
    KeepsRuleset "scrub-anchor \x22com.apple/*\x22\nrdr-anchor \x22com.apple/*\x22" :=
  (keepsRuleset_iff (by decide)).mpr (.inr (by decide))

/-- The anchors of the system, of which the last one is for filtering. -/
def stockRuleset : String :=
  "scrub-anchor \x22com.apple/*\x22\n" ++ "nat-anchor \x22com.apple/*\x22\n" ++
    "rdr-anchor \x22com.apple/*\x22\n" ++ "anchor \x22com.apple/*\x22\n"

theorem not_keepsRuleset_stock : InOrder stockRuleset ∧ ¬KeepsRuleset stockRuleset := by
  have horder : InOrder stockRuleset := by decide
  have hrdr : hasPfConfLine stockRuleset rdrAnchorLine = false := by decide
  have hanchor : "anchor \x22com.apple/*\x22".toList ∈ linesOf stockRuleset.toList := by
    decide
  have hfilter : PfSection.of "anchor \x22com.apple/*\x22".toList = some .filtering := by
    decide
  refine ⟨horder, fun h => ?_⟩
  rcases (inOrder_mainRuleset_iff horder).mp h.inOrder with hthere | hnone
  · rw [hrdr] at hthere
    cases hthere
  · exact hnone _ hanchor hfilter

end TransProxy.Firewall
