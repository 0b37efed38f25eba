import TransProxy.Library.Ascii

/-!
# Request heads

The head of an HTTP/1.1 request, read without tolerance: single spaces in the request line,
every line ended by CR and LF, neither of the two anywhere else, and an empty line at the
end.
-/
namespace TransProxy.Library

structure RequestHead where
  method : Bytes
  target : Bytes
  version : Bytes
  headers : List (Bytes × Bytes)
deriving DecidableEq

namespace RequestHead

/-- The lines up to the empty one, and what follows it. The first argument is what has been
read of a line. -/
def lines (line : Bytes) : Bytes → Option (List Bytes × Bytes)
  | [] => none
  | 13 :: 10 :: rest =>
    if line = [] then some ([], rest)
    else (lines [] rest).map fun (more, rest) => (line :: more, rest)
  | b :: rest => if b = 13 ∨ b = 10 then none else lines (line ++ [b]) rest

/-- Optional whitespace. -/
def isBlank (b : UInt8) : Bool := b == 32 || b == 9

def trimBlanks (value : Bytes) : Bytes :=
  ((value.dropWhile isBlank).reverse.dropWhile isBlank).reverse

/-- A name, a colon and a value. -/
def headerOf (line : Bytes) : Option (Bytes × Bytes) :=
  match line.dropWhile (· != 58) with
  | [] => none
  | _ :: value =>
    let name := line.takeWhile (· != 58)
    if name = [] ∨ name.any isBlank then none else some (name, trimBlanks value)

def parse (input : Bytes) : Option (RequestHead × Bytes) := do
  let (lines, rest) ← lines [] input
  match lines with
  | [] => none
  | first :: more =>
    match first.splitOn 32 with
    | [method, target, version] =>
      if method = [] ∨ target = [] ∨ version = [] then none
      else
        let headers ← more.mapM headerOf
        some (⟨method, target, version, headers⟩, rest)
    | _ => none

theorem lines_of_append {line input rest more : Bytes} {found : List Bytes}
    (h : lines line input = some (found, rest)) :
    lines line (input ++ more) = some (found, rest ++ more) := by
  induction line, input using lines.induct generalizing found rest with
  | case1 line => cases h
  | case2 input =>
    obtain ⟨rfl, rfl⟩ := by simpa [lines] using h
    rfl
  | case3 line input hne ih =>
    rw [lines, if_neg hne] at h
    obtain ⟨⟨lines', rest'⟩, hlines, heq⟩ := Option.map_eq_some_iff.mp h
    obtain ⟨rfl, rfl⟩ := Prod.mk.inj heq
    rw [List.cons_append, List.cons_append, lines, if_neg hne, ih hlines]
    rfl
  | case4 line b input hcrlf hend =>
    rw [lines, if_pos hend] at h
    · cases h
    · exact hcrlf
  | case5 line b input hcrlf hend ih =>
    rw [lines, if_neg hend] at h
    · rw [List.cons_append, lines, if_neg hend]
      · exact ih h
      · rintro rest' rfl
        exact absurd (.inl rfl) hend
    · exact hcrlf

/-- A head is read up to its end only. -/
theorem parse_of_append {input rest more : Bytes} {head : RequestHead}
    (h : parse input = some (head, rest)) : parse (input ++ more) = some (head, rest ++ more) := by
  obtain ⟨⟨found, rest'⟩, hlines, h⟩ := Option.bind_eq_some_iff.mp h
  rw [parse, lines_of_append hlines]
  cases found with
  | nil => cases h
  | cons first found =>
    simp only [Option.bind_eq_bind, Option.bind_some] at h ⊢
    split at h
    · split_ifs at h ⊢
      obtain ⟨headers, hheaders, heq⟩ := Option.bind_eq_some_iff.mp h
      obtain ⟨rfl, rfl⟩ := Prod.mk.inj (Option.some.inj heq)
      rw [hheaders]
      rfl
    · cases h

def newline : Bytes := [13, 10]

def renderHeader (header : Bytes × Bytes) : Bytes := header.1 ++ [58, 32] ++ header.2

/-- The lines before the empty one. -/
def texts (head : RequestHead) : List Bytes :=
  [32].intercalate [head.method, head.target, head.version] :: head.headers.map renderHeader

def render (head : RequestHead) : Bytes :=
  head.texts.flatMap (fun text => text ++ newline) ++ newline

/-- No byte of it ends a line. -/
def Inline (text : Bytes) : Prop := ∀ b ∈ text, b ≠ 13 ∧ b ≠ 10

/-- Neither blanks nor the ends of lines are in it, and it is not empty. -/
def Token (text : Bytes) : Prop := text ≠ [] ∧ ∀ b ∈ text, b ≠ 13 ∧ b ≠ 10 ∧ isBlank b = false

/-- What is rendered can be read. -/
structure WellFormed (head : RequestHead) : Prop where
  method : Token head.method
  target : Token head.target
  version : Token head.version
  headers : ∀ header ∈ head.headers, (Token header.1 ∧ 58 ∉ header.1) ∧ Token header.2

theorem lines_append {text : Bytes} (h : Inline text) (line rest : Bytes) :
    lines line (text ++ rest) = lines (line ++ text) rest := by
  induction text generalizing line with
  | nil => simp
  | cons b text ih =>
    obtain ⟨hb, htext⟩ := List.forall_mem_cons.mp h
    have hstep : lines line (b :: (text ++ rest)) = lines (line ++ [b]) (text ++ rest) := by
      rw [lines.eq_def]
      split
      · next heq => cases heq
      · next heq => exact absurd (List.cons.inj heq).1 hb.1
      · next heq =>
        obtain ⟨rfl, rfl⟩ := List.cons.inj heq
        rw [if_neg (by simp [hb])]
    rw [List.cons_append, hstep, ih htext, List.append_assoc]
    rfl

theorem lines_newline (line rest : Bytes) :
    lines line (newline ++ rest) =
      if line = [] then some ([], rest)
      else (lines [] rest).map fun (more, rest) => (line :: more, rest) := by
  simp [newline, lines]

theorem lines_render {texts : List Bytes} (h : ∀ text ∈ texts, text ≠ [] ∧ Inline text)
    (rest : Bytes) :
    lines [] (texts.flatMap (fun text => text ++ newline) ++ newline ++ rest) =
      some (texts, rest) := by
  induction texts with
  | nil => simpa using lines_newline [] rest
  | cons text texts ih =>
    obtain ⟨⟨hne, hinline⟩, htexts⟩ := List.forall_mem_cons.mp h
    rw [List.flatMap_cons, List.append_assoc, List.append_assoc, List.append_assoc,
      lines_append hinline, List.nil_append, lines_newline, if_neg hne, ← List.append_assoc,
      ih htexts]
    rfl

theorem trimBlanks_of_token {value : Bytes} (h : Token value) : trimBlanks value = value := by
  have hkeep : ∀ text : Bytes, (∀ b ∈ text, isBlank b = false) → text.dropWhile isBlank = text := by
    intro text htext
    cases text with
    | nil => rfl
    | cons b text => rw [List.dropWhile_cons_of_neg (by simp [htext b])]
  have hblank : ∀ b ∈ value, isBlank b = false := fun b hb => (h.2 b hb).2.2
  rw [trimBlanks, hkeep value hblank, hkeep value.reverse (by simpa using hblank),
    List.reverse_reverse]

theorem headerOf_renderHeader {header : Bytes × Bytes} (hname : Token header.1)
    (hcolon : 58 ∉ header.1) (hvalue : Token header.2) :
    headerOf (renderHeader header) = some header := by
  obtain ⟨name, value⟩ := header
  have hall : ∀ b ∈ name, (b != 58) = true := by
    intro b hb
    exact bne_iff_ne.mpr fun heq => hcolon (heq ▸ hb)
  have htake : (renderHeader (name, value)).takeWhile (· != 58) = name := by
    simp [renderHeader, List.takeWhile_append_of_pos hall]
  have hdrop : (renderHeader (name, value)).dropWhile (· != 58) = 58 :: 32 :: value := by
    simp [renderHeader, List.dropWhile_append_of_pos hall]
  have htrim : trimBlanks (32 :: value) = trimBlanks value := rfl
  have hblank : ¬ (name = [] ∨ name.any isBlank = true) := by
    rw [List.any_eq_true]
    rintro (hnil | ⟨b, hb, hb'⟩)
    · exact hname.1 hnil
    · rw [(hname.2 b hb).2.2] at hb'
      cases hb'
  rw [headerOf, hdrop, htake]
  simp only [htrim, trimBlanks_of_token hvalue]
  exact if_neg hblank

theorem Token.inline {text : Bytes} (h : Token text) : Inline text :=
  fun b hb => ⟨(h.2 b hb).1, (h.2 b hb).2.1⟩

theorem inline_append {text more : Bytes} : Inline (text ++ more) ↔ Inline text ∧ Inline more := by
  simp only [Inline, List.forall_mem_append]

theorem token_of_visible {text : String} (hne : text.toList ≠ [])
    (h : ∀ c ∈ text.toList, IsVisible c) : Token (strBytes text) := by
  have hascii : ∀ c ∈ text.toList, c.toNat < 128 := fun c hc => (h c hc).ascii
  rw [strBytes_of_ascii hascii]
  refine ⟨by simpa using hne, fun b hb => ?_⟩
  obtain ⟨c, hc, rfl⟩ := List.mem_map.mp hb
  have hbyte : (asciiByte c).toNat = c.toNat :=
    UInt8.toNat_ofNat_of_lt' (Nat.lt_trans (hascii c hc) (by decide))
  have hlow : 32 < (asciiByte c).toNat := hbyte ▸ (h c hc).1
  have hcontrol : ∀ b : UInt8, b.toNat ≤ 32 → asciiByte c ≠ b := by
    rintro b hle rfl
    omega
  refine ⟨hcontrol 13 (by decide), hcontrol 10 (by decide), ?_⟩
  simp [isBlank, hcontrol 32 (by decide), hcontrol 9 (by decide)]

theorem WellFormed.texts {head : RequestHead} (h : WellFormed head) :
    ∀ text ∈ head.texts, text ≠ [] ∧ Inline text := by
  have hspace : Inline [32] := by simp [Inline]
  have hcolon : Inline [58, 32] := by simp [Inline]
  intro text htext
  rcases List.mem_cons.mp htext with rfl | hheader
  · refine ⟨intercalate_ne_nil h.method.1, ?_⟩
    simp only [List.intercalate_cons_cons, List.intercalate_singleton, inline_append]
    exact ⟨⟨h.method.inline, hspace⟩, ⟨h.target.inline, hspace⟩, h.version.inline⟩
  · obtain ⟨header, hmem, rfl⟩ := List.mem_map.mp hheader
    obtain ⟨⟨hname, -⟩, hvalue⟩ := h.headers header hmem
    refine ⟨by simp [renderHeader], ?_⟩
    rw [renderHeader, inline_append, inline_append]
    exact ⟨⟨hname.inline, hcolon⟩, hvalue.inline⟩

/-- What is written of a head is read as that head, up to where it ends. -/
theorem parse_render {head : RequestHead} (h : WellFormed head) (rest : Bytes) :
    parse (render head ++ rest) = some (head, rest) := by
  have hspace : ∀ {text : Bytes}, Token text → 32 ∉ text := by
    intro text htext hmem
    exact absurd (htext.2 32 hmem).2.2 (by decide)
  have hsplit : ([32].intercalate [head.method, head.target, head.version]).splitOn 32 =
      [head.method, head.target, head.version] := by
    apply List.splitOn_intercalate
    · simp [hspace h.method, hspace h.target, hspace h.version]
    · simp
  have hread : ∀ headers : List (Bytes × Bytes), (∀ header ∈ headers,
      (Token header.1 ∧ 58 ∉ header.1) ∧ Token header.2) →
      (headers.map renderHeader).mapM headerOf = some headers := by
    intro headers hheaders
    induction headers with
    | nil => rfl
    | cons header headers ih =>
      obtain ⟨⟨⟨hname, hcolon⟩, hvalue⟩, hrest⟩ := List.forall_mem_cons.mp hheaders
      rw [List.map_cons, List.mapM_cons, headerOf_renderHeader hname hcolon hvalue, ih hrest]
      rfl
  have hne : ¬ (head.method = [] ∨ head.target = [] ∨ head.version = []) := by
    simp [h.method.1, h.target.1, h.version.1]
  rw [parse, render, lines_render h.texts rest]
  simp only [texts, Option.bind_eq_bind, Option.bind_some, hsplit, hne, if_false,
    hread head.headers h.headers]

end RequestHead
end TransProxy.Library
