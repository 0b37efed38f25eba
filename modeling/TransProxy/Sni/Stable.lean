import TransProxy.Sni.ClientHello

/-!
# Server names in truncated messages

A name that is found in a part of a message is the name of the message: no level takes a
cut for the end of what it reads.
-/
namespace TransProxy.Sni
open Library

variable {v w : Window} {pos : ℕ} {name : String}

theorem sniNames_end (h : v.stop < pos + 3) : sniNames v pos = none := by
  rw [sniNames, dif_neg (Nat.not_le_of_lt h)]

theorem sniNames_cut (h : Window.Cut v w) (hname : sniNames v pos = some name) :
    sniNames w pos = some name := by
  induction pos using sniNames.induct (w := v) with
  | case1 pos hpos nameType nameLen hfound =>
    have hpos' := Nat.le_trans hpos h.stop_le
    rw [sniNames, dif_pos hpos, if_pos hfound] at hname
    obtain ⟨htype, hlen⟩ := hfound
    have hbyte := h.byte (show pos < v.stop by omega)
    rw [sniNames, dif_pos hpos', ← hbyte, ← h.u16 hpos,
      if_pos ⟨htype, Nat.le_trans hlen h.stop_le⟩, ← h.bytes_eq hlen]
    exact hname
  | case2 pos hpos nameType nameLen hother ih =>
    have hpos' := Nat.le_trans hpos h.stop_le
    rw [sniNames, dif_pos hpos, if_neg hother] at hname
    -- a name that is cut off is behind the stop, where nothing is found
    have htype : nameType ≠ sniHostNameType := by
      intro htype
      rw [sniNames_end (by simp only [htype, true_and] at hother; omega)] at hname
      cases hname
    have hbyte := h.byte (show pos < v.stop by omega)
    rw [sniNames, dif_pos hpos', ← hbyte, ← h.u16 hpos, if_neg (fun hfound => htype hfound.1)]
    exact ih hname
  | case3 pos hpos =>
    rw [sniNames, dif_neg hpos] at hname
    cases hname

theorem parseSniExtension_prefix {short long : Bytes} (h : short <+: long)
    (hname : parseSniExtension short = some name) : parseSniExtension long = some name := by
  rw [parseSniExtension] at hname
  split_ifs at hname with hshort
  have hlong : ¬ long.length < 2 := fun hlt => hshort (Nat.lt_of_le_of_lt h.length_le hlt)
  have hcut := Window.Cut.of_prefix h
  rw [parseSniExtension, dif_neg hlong]
  have hlen := hcut.u16 (Nat.le_of_not_lt hshort)
  simp only [hlen] at hname
  exact sniNames_cut (hcut.clamp (Nat.le_of_not_lt hshort) _) hname

theorem sniExtensions_cut (h : Window.Cut v w) (hname : sniExtensions v pos = some name) :
    sniExtensions w pos = some name := by
  induction pos using sniExtensions.induct (w := v) with
  | case1 pos hpos extType hfound =>
    have hpos' := Nat.le_trans hpos h.stop_le
    rw [sniExtensions, dif_pos hpos, if_pos hfound] at hname
    have htype := h.u16 (show pos + 2 ≤ v.stop by omega)
    rw [sniExtensions, dif_pos hpos', ← htype, ← h.u16 hpos, if_pos hfound]
    have hle := h.stop_le
    refine parseSniExtension_prefix (h.bytes_prefix ?_ ?_) hname
    · omega
    · omega
  | case2 pos hpos extType extLen hother ih =>
    have hpos' := Nat.le_trans hpos h.stop_le
    rw [sniExtensions, dif_pos hpos, if_neg hother] at hname
    have htype := h.u16 (show pos + 2 ≤ v.stop by omega)
    rw [sniExtensions, dif_pos hpos', ← htype, ← h.u16 hpos, if_neg hother]
    exact ih hname
  | case3 pos hpos =>
    rw [sniExtensions, dif_neg hpos] at hname
    cases hname

theorem skipField8_cut (h : Window.Cut v w) {next : ℕ} (hnext : skipField8 v pos = some next) :
    skipField8 w pos = some next := by
  rw [skipField8] at hnext
  split_ifs at hnext with hpos
  rw [skipField8, dif_pos (Nat.le_trans hpos h.stop_le), ← h.byte hpos]
  exact hnext

theorem skipField16_cut (h : Window.Cut v w) {next : ℕ} (hnext : skipField16 v pos = some next) :
    skipField16 w pos = some next := by
  rw [skipField16] at hnext
  split_ifs at hnext with hpos
  rw [skipField16, dif_pos (Nat.le_trans hpos h.stop_le), ← h.u16 hpos]
  exact hnext

theorem helloExtensions_cut (h : Window.Cut v w) (hname : helloExtensions v pos = some name) :
    helloExtensions w pos = some name := by
  rw [helloExtensions] at hname
  split_ifs at hname with hpos
  rw [helloExtensions, dif_pos (Nat.le_trans hpos h.stop_le), ← h.u16 hpos]
  exact sniExtensions_cut (h.clamp hpos _) hname

theorem parseHello_cut (h : Window.Cut v w) (hname : parseHello v = some name) :
    parseHello w = some name := by
  have hle := h.stop_le
  rw [parseHello] at hname
  split_ifs at hname with hheader htype hrandom
  simp only [Option.bind_eq_bind, Option.bind_eq_some_iff] at hname
  obtain ⟨session, hsession, suites, hsuites, compression, hcompression, hname⟩ := hname
  rw [parseHello, dif_neg (by omega), ← h.byte (by omega), if_neg htype, if_neg (by omega),
    skipField8_cut h hsession]
  simp only [Option.bind_eq_bind, Option.bind_some, skipField16_cut h hsuites,
    skipField8_cut h hcompression, helloExtensions_cut h hname]

/-- What is parsed from the beginning of a byte string is parsed from all of it. -/
theorem parseSniFromClientHello_prefix {short long : Bytes} (h : short <+: long)
    (hname : parseSniFromClientHello short = some name) :
    parseSniFromClientHello long = some name := by
  have hcut := Window.Cut.of_prefix h
  rw [parseSniFromClientHello] at hname
  split_ifs at hname with hshort
  have hlong : ¬ long.length < 5 := fun hlt => hshort (Nat.lt_of_le_of_lt h.length_le hlt)
  have hheader : 3 + 2 ≤ (Window.whole short).stop := Nat.le_of_not_lt hshort
  have hbyte := hcut.byte (Nat.lt_of_lt_of_le (by decide : 0 < 3 + 2) hheader)
  rw [parseSniFromClientHello, dif_neg hlong]
  simp only [hbyte, hcut.u16 hheader] at hname ⊢
  split_ifs at hname with htype
  rw [if_neg htype]
  exact parseHello_cut (hcut.clamp hheader _) hname

theorem parseSniFromClientHello_of_ne {first : UInt8} (h : first ≠ tlsRecordHandshake)
    (rest : Bytes) : parseSniFromClientHello (first :: rest) = none := by
  rw [parseSniFromClientHello]
  split_ifs with hshort
  · rfl
  · exact if_pos h

/-- What is behind the first record is not read. -/
theorem parseSniFromClientHello_of_record {short long : Bytes} (h : short <+: long) {len : ℕ}
    (hlen : recordLength short = some len) (hle : len ≤ short.length) :
    parseSniFromClientHello short = parseSniFromClientHello long := by
  have hcut := Window.Cut.of_prefix h
  rw [recordLength] at hlen
  split_ifs at hlen with hshort
  have hlong : ¬ long.length < 5 := fun hlt => hshort (Nat.lt_of_le_of_lt h.length_le hlt)
  have hheader : 3 + 2 ≤ (Window.whole short).stop := Nat.le_of_not_lt hshort
  have hrecord := Option.some.inj hlen
  rw [hcut.u16 hheader] at hrecord
  have hbyte := hcut.byte (Nat.lt_of_lt_of_le (by decide : 0 < 3 + 2) hheader)
  rw [parseSniFromClientHello, parseSniFromClientHello, dif_neg hshort, dif_neg hlong]
  simp only [hbyte, hcut.u16 hheader]
  have hclamp := hcut.clamp hheader ((Window.whole long).u16 3 (Nat.le_of_not_lt hlong))
  have hstop : 5 + min ((Window.whole long).u16 3 (Nat.le_of_not_lt hlong)) (short.length - 5) =
      5 + min ((Window.whole long).u16 3 (Nat.le_of_not_lt hlong)) (long.length - 5) := by
    have hlength := h.length_le
    omega
  have hback := hclamp.symm hstop
  have hsame : parseHello _ = parseHello _ :=
    Option.ext fun name => ⟨parseHello_cut hclamp, parseHello_cut hback⟩
  rw [hsame]

end TransProxy.Sni
