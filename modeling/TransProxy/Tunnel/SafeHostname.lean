import TransProxy.Library.Ascii
import TransProxy.Tunnel.Request

/-!
# What a safe hostname is

The check on the bytes of a hostname accepts the hostnames of the grammar, which is stated
on its characters.
-/
namespace TransProxy.Tunnel
open Library

def IsLabelChar (c : Char) : Prop := c.isAlphanum = true ∨ c = '-' ∨ c = '_'

structure IsLabel (label : List Char) : Prop where
  ne_nil : label ≠ []
  length_le : label.length ≤ 63
  chars : ∀ c ∈ label, IsLabelChar c

/-- Labels with dots between them, and at most one dot behind. -/
structure IsHostname (host : String) : Prop where
  labels : ∃ labels : List (List Char), labels ≠ [] ∧ (∀ label ∈ labels, IsLabel label) ∧
    ∃ dot ∈ [[], ['.']], host.toList = ['.'].intercalate labels ++ dot
  length_le : (strBytes host).length ≤ 253

instance (c : Char) : Decidable (IsLabelChar c) := inferInstanceAs (Decidable (_ ∨ _))

theorem IsLabelChar.visible {c : Char} (h : IsLabelChar c) : IsVisible c := by
  rcases h with halnum | rfl | rfl
  · exact isVisible_of_isAlphanum halnum
  · decide
  · decide

theorem IsHostname.visible {host : String} (h : IsHostname host) :
    ∀ c ∈ host.toList, IsVisible c := by
  obtain ⟨labels, -, hlabels, dot, hdot, hlist⟩ := h.labels
  intro c hc
  have hsep : c ∈ ['.'] → IsVisible c := by
    intro hmem
    rw [List.mem_singleton.mp hmem]
    decide
  rw [hlist, List.mem_append] at hc
  rcases hc with hjoined | hdotted
  · rcases mem_intercalate hjoined with hmem | ⟨label, hmem, hc⟩
    · exact hsep hmem
    · exact ((hlabels label hmem).chars c hc).visible
  · rcases List.mem_pair.mp hdot with rfl | rfl
    · cases hdotted
    · exact hsep hdotted

theorem isLabelByte_iff (b : UInt8) : isLabelByte b = true ↔ IsLabelChar (asciiChar b) := by
  have hall : ∀ n : Fin 256, isLabelByte (UInt8.ofNat n) = true ↔
      IsLabelChar (asciiChar (UInt8.ofNat n)) := by
    decide +kernel
  simpa using hall ⟨b.toNat, b.toNat_lt⟩

def labelOk (label : Bytes) : Bool :=
  !label.isEmpty && label.length ≤ 63 && label.all isLabelByte

theorem labelOk_iff (label : Bytes) : labelOk label = true ↔ IsLabel (label.map asciiChar) := by
  simp only [labelOk, Bool.and_eq_true, decide_eq_true_eq, List.all_eq_true, isLabelByte_iff,
    Bool.not_eq_true', List.isEmpty_eq_false_iff]
  constructor
  · rintro ⟨⟨hne, hlen⟩, hchars⟩
    exact ⟨by simpa using hne, by simpa using hlen, by simpa using hchars⟩
  · rintro ⟨hne, hlen, hchars⟩
    exact ⟨⟨by simpa using hne, by simpa using hlen⟩, by simpa using hchars⟩

def withoutDot (bytes : Bytes) : Bytes := if bytes.getLast? = some 46 then bytes.dropLast else bytes

theorem isSafeProxyHostname_eq (host : String) :
    isSafeProxyHostname host =
      (!(withoutDot (strBytes host)).isEmpty && (strBytes host).length ≤ 253 &&
        ((withoutDot (strBytes host)).splitOn 46).all labelOk) :=
  rfl

theorem getLast?_intercalate_ne {labels : List Bytes} (h : ∀ label ∈ labels, label ≠ [] ∧ 46 ∉ label) :
    ([46].intercalate labels).getLast? ≠ some 46 := by
  induction labels with
  | nil => simp
  | cons label labels ih =>
    obtain ⟨⟨hne, hdot⟩, hrest⟩ := List.forall_mem_cons.mp h
    cases labels with
    | nil =>
      rw [List.intercalate_singleton]
      exact fun hlast => hdot (List.mem_of_getLast? hlast)
    | cons next labels =>
      have hnext : [46].intercalate (next :: labels) ≠ [] :=
        intercalate_ne_nil (List.forall_mem_cons.mp hrest).1.1
      rw [List.intercalate_cons_cons, List.getLast?_append_of_ne_nil _ hnext]
      exact ih hrest

theorem withoutDot_intercalate {labels : List Bytes} (hlabels : ∀ label ∈ labels, label ≠ [] ∧ 46 ∉ label)
    {dot : Bytes} (hdot : dot ∈ [[], [46]]) :
    withoutDot ([46].intercalate labels ++ dot) = [46].intercalate labels := by
  rcases List.mem_pair.mp hdot with rfl | rfl
  · rw [List.append_nil, withoutDot, if_neg (getLast?_intercalate_ne hlabels)]
  · simp [withoutDot]

theorem exists_dot (bytes : Bytes) : ∃ dot ∈ [[], [46]], bytes = withoutDot bytes ++ dot := by
  rw [withoutDot]
  split_ifs with hlast
  · exact ⟨[46], by simp, (List.dropLast_append_getLast? 46 hlast).symm⟩
  · exact ⟨[], by simp, (List.append_nil bytes).symm⟩

theorem labelOk_dot {label : Bytes} (h : labelOk label = true) : label ≠ [] ∧ 46 ∉ label := by
  have hlabel := (labelOk_iff label).mp h
  refine ⟨by simpa using hlabel.ne_nil, fun hmem => ?_⟩
  exact absurd (hlabel.chars _ (List.mem_map_of_mem hmem)) (by decide)

/-- What the check accepts is read byte by byte as a hostname of the grammar. -/
theorem isHostname_of_safe {host : String} {labels : List Bytes} {dot : Bytes}
    (hbytes : strBytes host = [46].intercalate labels ++ dot) (hdot : dot ∈ [[], [46]])
    (hne : labels ≠ []) (hlabels : ∀ label ∈ labels, labelOk label = true)
    (hlen : (strBytes host).length ≤ 253) : IsHostname host := by
  have hlabel : ∀ label ∈ labels, IsLabel (label.map asciiChar) := fun label hmem =>
    (labelOk_iff label).mp (hlabels label hmem)
  have hascii : ∀ b ∈ strBytes host, b.toNat < 128 := by
    intro b hb
    rw [hbytes, List.mem_append] at hb
    rcases hb with hjoined | hdotted
    · rcases mem_intercalate hjoined with hsep | ⟨label, hmem, hb⟩
      · simp_all
      · rw [← toNat_asciiChar]
        exact ((hlabel label hmem).chars _ (List.mem_map_of_mem hb)).visible.ascii
    · rcases List.mem_pair.mp hdot with rfl | rfl <;> simp_all
  refine ⟨⟨labels.map (List.map asciiChar), by simpa using hne, ?_, dot.map asciiChar, ?_, ?_⟩, hlen⟩
  · simpa using hlabel
  · rcases List.mem_pair.mp hdot with rfl | rfl <;> decide
  · rw [toList_of_ascii hascii, hbytes, List.map_append, map_intercalate]
    rfl

theorem map_asciiByte_asciiChar {label : List Char} (h : IsLabel label) :
    (label.map asciiByte).map asciiChar = label := by
  rw [List.map_map]
  refine (List.map_congr_left fun c hc => ?_).trans label.map_id
  exact asciiChar_asciiByte (h.chars c hc).visible.ascii

theorem safe_of_isHostname {host : String} (h : IsHostname host) :
    ∃ labels : List Bytes, labels ≠ [] ∧ (∀ label ∈ labels, labelOk label = true) ∧
      ∃ dot ∈ [[], [46]], strBytes host = [46].intercalate labels ++ dot := by
  obtain ⟨labels, hne, hlabels, dot, hdot, hlist⟩ := h.labels
  have hascii : ∀ c ∈ host.toList, c.toNat < 128 := fun c hc => (h.visible c hc).ascii
  refine ⟨labels.map (List.map asciiByte), by simpa using hne, ?_, dot.map asciiByte, ?_, ?_⟩
  · intro label hmem
    obtain ⟨text, htext, rfl⟩ := List.mem_map.mp hmem
    rw [labelOk_iff, map_asciiByte_asciiChar (hlabels text htext)]
    exact hlabels text htext
  · rcases List.mem_pair.mp hdot with rfl | rfl <;> decide
  · rw [strBytes_of_ascii hascii, hlist, List.map_append, map_intercalate]
    rfl

/-- Exactly the hostnames of the grammar pass the check. -/
theorem isSafeProxyHostname_iff (host : String) :
    isSafeProxyHostname host = true ↔ IsHostname host := by
  rw [isSafeProxyHostname_eq]
  simp only [Bool.and_eq_true, decide_eq_true_eq, List.all_eq_true, Bool.not_eq_true',
    List.isEmpty_eq_false_iff]
  constructor
  · rintro ⟨⟨-, hlen⟩, hlabels⟩
    obtain ⟨dot, hdot, hbytes⟩ := exists_dot (strBytes host)
    have hjoined := @List.intercalate_splitOn _ (withoutDot (strBytes host)) _ _ 46
    exact isHostname_of_safe (hbytes.trans (by rw [hjoined])) hdot (List.splitOn_ne_nil 46 _)
      hlabels hlen
  · intro h
    obtain ⟨labels, hne, hlabels, dot, hdot, hbytes⟩ := safe_of_isHostname h
    have hdots : ∀ label ∈ labels, label ≠ [] ∧ 46 ∉ label := fun label hmem =>
      labelOk_dot (hlabels label hmem)
    have hname : withoutDot (strBytes host) = [46].intercalate labels := by
      rw [hbytes, withoutDot_intercalate hdots hdot]
    rw [hname, List.splitOn_intercalate 46 (fun label hmem => (hdots label hmem).2) hne]
    refine ⟨⟨?_, h.length_le⟩, hlabels⟩
    obtain ⟨label, rest, rfl⟩ := List.exists_cons_of_ne_nil hne
    exact intercalate_ne_nil (List.forall_mem_cons.mp hdots).1.1

end TransProxy.Tunnel
