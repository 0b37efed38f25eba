import TransProxy.Library.Text

/-!
# Lines of a text

The text between the line feeds. A line feed at the end of a text does not begin a further
line, so that a line can be put behind every text without changing those that it has.
-/
namespace TransProxy.Library

def linesOf (text : List Char) : List (List Char) :=
  if (text.splitOn '\n').getLast? = some [] then (text.splitOn '\n').dropLast
  else text.splitOn '\n'

/-- A carriage return in front of the line feed belongs to it. -/
def dropCarriageReturn (line : List Char) : List Char :=
  if line.getLast? = some '\r' then line.dropLast else line

/-- `str::lines`: a carriage return at the end of the text is kept. -/
def strLines (text : List Char) : List (List Char) :=
  if text.getLast? = some '\n' then (linesOf text).map dropCarriageReturn
  else (linesOf text).dropLast.map dropCarriageReturn ++ (linesOf text).getLast?.toList

variable {text line : List Char}

@[simp] theorem linesOf_nil : linesOf [] = [] := rfl

theorem linesOf_append_newline (text : List Char) : linesOf (text ++ ['\n']) = text.splitOn '\n' := by
  have hsplit : (text ++ ['\n']).splitOn '\n' = text.splitOn '\n' ++ [[]] :=
    List.splitOn_append_cons_self text []
  simp [linesOf, hsplit]

theorem intercalate_concat_nil {parts : List (List Char)} (h : parts ≠ []) :
    ['\n'].intercalate (parts ++ [[]]) = ['\n'].intercalate parts ++ ['\n'] := by
  induction parts with
  | nil => exact absurd rfl h
  | cons part parts ih =>
    cases parts with
    | nil => simp
    | cons next parts => simpa using ih (List.cons_ne_nil next parts)

/-- A text that does not end in a line feed ends in a line that is not empty. -/
theorem linesOf_of_unterminated (hne : text ≠ []) (hlast : text.getLast? ≠ some '\n') :
    linesOf text = text.splitOn '\n' := by
  apply if_neg
  intro hempty
  obtain ⟨parts, hparts⟩ := List.getLast?_eq_some_iff.mp hempty
  have hjoin : ['\n'].intercalate (parts ++ [[]]) = text := by
    rw [← hparts]
    exact List.intercalate_splitOn '\n'
  by_cases hnil : parts = []
  · subst hnil
    exact hne hjoin.symm
  · rw [intercalate_concat_nil hnil] at hjoin
    rw [← hjoin, List.getLast?_concat] at hlast
    exact hlast rfl

/-- A line behind a text whose last line has ended, or that has none. -/
theorem linesOf_append_line (hline : '\n' ∉ line) (h : text = [] ∨ text.getLast? = some '\n') :
    linesOf (text ++ line ++ ['\n']) = linesOf text ++ [line] := by
  rw [linesOf_append_newline]
  rcases h with rfl | hlast
  · rw [List.nil_append, List.splitOn_eq_singleton hline, linesOf_nil, List.nil_append]
  · obtain ⟨front, rfl⟩ := List.getLast?_eq_some_iff.mp hlast
    rw [linesOf_append_newline, List.append_assoc, List.singleton_append,
      List.splitOn_append_cons_self, List.splitOn_eq_singleton hline]

/-- A line behind a text whose last line is ended first. -/
theorem linesOf_append_newline_line (hline : '\n' ∉ line) (hne : text ≠ [])
    (hlast : text.getLast? ≠ some '\n') :
    linesOf (text ++ ['\n'] ++ line ++ ['\n']) = linesOf text ++ [line] := by
  rw [linesOf_append_line hline (.inr List.getLast?_concat), linesOf_append_newline,
    linesOf_of_unterminated hne hlast]

theorem dropWhile_append_of_blank {c : Char} (h : isWhiteSpace c = true) :
    (line ++ [c]).dropWhile isWhiteSpace =
      if line.dropWhile isWhiteSpace = [] then [] else line.dropWhile isWhiteSpace ++ [c] := by
  rw [List.dropWhile_append]
  by_cases hnil : line.dropWhile isWhiteSpace = []
  · simp [hnil, h]
  · simp [hnil]

/-- White space behind a line is trimmed with the rest. -/
theorem trim_append_of_blank {c : Char} (h : isWhiteSpace c = true) : trim (line ++ [c]) = trim line := by
  rw [trim, trim, dropWhile_append_of_blank h]
  by_cases hnil : line.dropWhile isWhiteSpace = []
  · simp [hnil]
  · simp [hnil, h]

theorem trim_dropCarriageReturn (line : List Char) : trim (dropCarriageReturn line) = trim line := by
  rw [dropCarriageReturn]
  split_ifs with hlast
  · obtain ⟨front, rfl⟩ := List.getLast?_eq_some_iff.mp hlast
    rw [List.dropLast_concat, trim_append_of_blank (by decide)]
  · rfl

/-- To what is trimmed, the carriage returns make no difference. -/
theorem map_trim_strLines (text : List Char) :
    (strLines text).map trim = (linesOf text).map trim := by
  have hdrop : ∀ ls : List (List Char), (ls.map dropCarriageReturn).map trim = ls.map trim := by
    intro ls
    simp [trim_dropCarriageReturn]
  rw [strLines]
  split_ifs
  · exact hdrop _
  · rw [List.map_append, hdrop, ← List.map_append]
    congr 1
    cases hlast : (linesOf text).getLast? with
    | none => simp [List.getLast?_eq_none_iff.mp hlast]
    | some line => exact List.dropLast_append_getLast? line hlast

/-- Lines that are each ended by a line feed. -/
theorem strLines_flatMap_newline {lines : List (List Char)} (h : ∀ line ∈ lines, '\n' ∉ line) :
    strLines (lines.flatMap (fun line => line ++ ['\n'])) = lines.map dropCarriageReturn := by
  cases lines with
  | nil => rfl
  | cons first rest =>
    have htext : ∀ (first : List Char) (rest : List (List Char)),
        (first :: rest).flatMap (fun line => line ++ ['\n']) =
          ['\n'].intercalate (first :: rest) ++ ['\n'] := by
      intro first rest
      induction rest generalizing first with
      | nil => simp
      | cons next rest ih =>
        rw [List.flatMap_cons, ih next, List.intercalate_cons_cons]
        simp
    rw [htext, strLines, if_pos List.getLast?_concat, linesOf_append_newline,
      List.splitOn_intercalate '\n' h (List.cons_ne_nil first rest)]

end TransProxy.Library
