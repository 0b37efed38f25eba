import TransProxy.Library.Lines

/-!
# Words of a line

The parts of a text between runs of white space.
-/
namespace TransProxy.Library

/-- `split_whitespace`. -/
def splitWhitespace (text : List Char) : List (List Char) :=
  (text.splitOnP isWhiteSpace).filter (fun word => word ≠ [])

variable {word rest : List Char} {c : Char}

@[simp] theorem splitWhitespace_nil : splitWhitespace [] = [] := rfl

/-- A word in front of a blank. -/
theorem splitWhitespace_append (hword : ∀ d ∈ word, isWhiteSpace d = false) (hne : word ≠ [])
    (hc : isWhiteSpace c = true) :
    splitWhitespace (word ++ c :: rest) = word :: splitWhitespace rest := by
  rw [splitWhitespace, List.splitOnP_append_cons_of_forall_mem hword c hc]
  simp [splitWhitespace, hne]

/-- White space at the end. -/
theorem splitWhitespace_concat (text : List Char) (hc : isWhiteSpace c = true) :
    splitWhitespace (text ++ [c]) = splitWhitespace text := by
  have hsplit : (text ++ [c]).splitOnP isWhiteSpace = text.splitOnP isWhiteSpace ++ [[]] :=
    List.splitOnP_append_cons text [] hc
  rw [splitWhitespace, splitWhitespace, hsplit, List.filter_append]
  simp

theorem splitWhitespace_dropCarriageReturn (line : List Char) :
    splitWhitespace (dropCarriageReturn line) = splitWhitespace line := by
  by_cases h : line.getLast? = some '\r'
  · obtain ⟨start, rfl⟩ := List.getLast?_eq_some_iff.mp h
    rw [dropCarriageReturn, if_pos h, List.dropLast_concat, splitWhitespace_concat _ (by decide)]
  · rw [dropCarriageReturn, if_neg h]

theorem dropWhile_of_word (hword : ∀ d ∈ word, isWhiteSpace d = false) :
    word.dropWhile isWhiteSpace = word := by
  cases word with
  | nil => rfl
  | cons d word => simp [hword d List.mem_cons_self]

theorem trim_of_word (hword : ∀ d ∈ word, isWhiteSpace d = false) : trim word = word := by
  have hrev : ∀ d ∈ word.reverse, isWhiteSpace d = false := fun d hd =>
    hword d (List.mem_reverse.mp hd)
  rw [trim, dropWhile_of_word hword, dropWhile_of_word hrev, List.reverse_reverse]

end TransProxy.Library
