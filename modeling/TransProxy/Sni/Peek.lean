import TransProxy.Sni.Stable

/-!
# Peeking at a ClientHello

The stream is peeked at until its first record is buffered, which may never happen, and
what was seen last is parsed.
-/
namespace TransProxy.Sni
open Library

def maxClientHello : ℕ := 4096

def maxPeekAttempts : ℕ := 20

/-- The first record is there, or as much of it as is inspected. -/
def recordBuffered (buf : Bytes) : Bool :=
  (recordLength buf).any fun len => decide (min len maxClientHello ≤ buf.length)

variable {ε : Type}

/-- The loop, with what the last peek saw. -/
def extractLoop (peeks : ℕ → Except ε Bytes) (attempts : ℕ) (buf : Bytes) :
    Except ε (Option String) :=
  match buf with
  | [] => .ok none
  | first :: _ =>
    if first ≠ tlsRecordHandshake then .ok none
    else if recordBuffered buf then .ok (parseSniFromClientHello buf)
    else if maxPeekAttempts ≤ attempts + 1 then .ok (parseSniFromClientHello buf)
    else
      match peeks (attempts + 1) with
      | .error e => .error e
      | .ok buf => extractLoop peeks (attempts + 1) buf
termination_by maxPeekAttempts - attempts

/-- `extract_sni` on the results of its peeks. -/
def extractSni (peeks : ℕ → Except ε Bytes) : Except ε (Option String) :=
  match peeks 0 with
  | .error e => .error e
  | .ok buf => extractLoop peeks 0 buf

/-- A peek sees a beginning of the stream, and an empty one only if nothing was sent before
the end. -/
structure PeeksAt (stream : Bytes) (peeks : ℕ → Except ε Bytes) : Prop where
  seen_prefix : ∀ {i buf}, peeks i = .ok buf → buf <+: stream ∧ buf.length ≤ maxClientHello
  empty : ∀ {i}, peeks i = .ok [] → stream = []

def HoldsRecord (buf : Bytes) : Prop :=
  ∃ kind major minor hi lo body rest,
    buf = kind :: major :: minor :: hi :: lo :: (body ++ rest) ∧
      body.length = 256 * hi.toNat + lo.toNat

variable {stream buf : Bytes} {peeks : ℕ → Except ε Bytes} {i : ℕ} {name : String}

theorem PeeksAt.prefix_take (h : PeeksAt stream peeks) (hi : peeks i = .ok buf) :
    buf <+: stream.take maxClientHello := by
  obtain ⟨hstart, hlen⟩ := h.seen_prefix hi
  exact List.prefix_take_iff.mpr ⟨hstart, hlen⟩

theorem recordBuffered_of_holdsRecord (h : HoldsRecord buf) : recordBuffered buf = true := by
  obtain ⟨kind, major, minor, hi, lo, body, rest, rfl, hbody⟩ := h
  have hlen : recordLength (kind :: major :: minor :: hi :: lo :: (body ++ rest)) =
      some (5 + body.length) := by
    rw [recordLength, dif_neg (by simp)]
    simp only [Window.u16, Window.byte, Window.whole, toNat_u16FromBeBytes, hbody]
    rfl
  rw [recordBuffered, hlen, Option.any_some, decide_eq_true_eq]
  exact Nat.le_trans (Nat.min_le_left _ _) (by simp; omega)

theorem recordBuffered_of_length (h : maxClientHello ≤ buf.length) : recordBuffered buf = true := by
  have hheader : ¬ buf.length < 5 := Nat.not_lt_of_le (Nat.le_trans (by decide) h)
  rw [recordBuffered, recordLength, dif_neg hheader, Option.any_some, decide_eq_true_eq]
  exact Nat.le_trans (Nat.min_le_right _ _) h

theorem parse_of_buffered (hstart : buf <+: stream.take maxClientHello)
    (h : recordBuffered buf = true) :
    parseSniFromClientHello buf = parseSniFromClientHello (stream.take maxClientHello) := by
  obtain ⟨len, hlen, hle⟩ := (Option.any_eq_true _ _).mp h
  rcases Nat.le_total len maxClientHello with hshort | hlong
  · rw [Nat.min_eq_left hshort] at hle
    exact parseSniFromClientHello_of_record hstart hlen (of_decide_eq_true hle)
  · -- all that is inspected was seen
    have hfull : maxClientHello ≤ buf.length := by
      rw [Nat.min_eq_right hlong] at hle
      exact of_decide_eq_true hle
    have htake : (stream.take maxClientHello).length ≤ buf.length :=
      Nat.le_trans (List.length_take_le _ _) hfull
    rw [hstart.eq_of_length_le htake]

/-- No iteration finds another name than the stream begins with. -/
theorem extractLoop_name (h : PeeksAt stream peeks) {attempts : ℕ}
    (hbuf : buf <+: stream.take maxClientHello)
    (hname : extractLoop peeks attempts buf = .ok (some name)) :
    parseSniFromClientHello (stream.take maxClientHello) = some name := by
  induction attempts, buf using @extractLoop.induct _ peeks with
  | case1 attempts =>
    rw [extractLoop] at hname
    cases hname
  | case2 attempts first rest hkind =>
    rw [extractLoop, if_pos hkind] at hname
    cases hname
  | case3 attempts first rest hkind hbuffered =>
    rw [extractLoop, if_neg hkind, if_pos hbuffered] at hname
    exact parseSniFromClientHello_prefix hbuf (Except.ok.inj hname)
  | case4 attempts first rest hkind hlast hpartial =>
    rw [extractLoop, if_neg hkind, if_neg hpartial, if_pos hlast] at hname
    exact parseSniFromClientHello_prefix hbuf (Except.ok.inj hname)
  | case5 attempts first rest hkind hmore e hpeek hpartial =>
    rw [extractLoop, if_neg hkind, if_neg hpartial, if_neg hmore, hpeek] at hname
    cases hname
  | case6 attempts first rest hkind hmore buf hpeek hpartial ih =>
    rw [extractLoop, if_neg hkind, if_neg hpartial, if_neg hmore, hpeek] at hname
    exact ih (h.prefix_take hpeek) hname

/-- The loop goes on until the record is buffered. -/
theorem extractLoop_buffered (h : PeeksAt stream peeks) (hstream : stream ≠ []) {last : Bytes}
    (hlast : peeks i = .ok last) (hbuffered : recordBuffered last = true)
    (hbudget : i < maxPeekAttempts) (hok : ∀ j < i, ∃ buf, peeks j = .ok buf) {attempts : ℕ}
    (hle : attempts ≤ i) (hbuf : peeks attempts = .ok buf) :
    extractLoop peeks attempts buf =
      .ok (parseSniFromClientHello (stream.take maxClientHello)) := by
  have hwaits : ∀ {attempts : ℕ} {buf : Bytes}, attempts ≤ i → peeks attempts = .ok buf →
      recordBuffered buf ≠ true → attempts < i := by
    intro attempts buf hle hbuf hpartial
    apply Nat.lt_of_le_of_ne hle
    rintro rfl
    rw [hbuf] at hlast
    exact hpartial (Except.ok.inj hlast ▸ hbuffered)
  induction attempts, buf using @extractLoop.induct _ peeks with
  | case1 attempts => exact absurd (h.empty hbuf) hstream
  | case2 attempts first rest hkind =>
    obtain ⟨more, hmore⟩ := h.prefix_take hbuf
    rw [extractLoop, if_pos hkind, ← hmore, List.cons_append,
      parseSniFromClientHello_of_ne hkind]
  | case3 attempts first rest hkind hbuffered' =>
    rw [extractLoop, if_neg hkind, if_pos hbuffered',
      parse_of_buffered (h.prefix_take hbuf) hbuffered']
  | case4 attempts first rest hkind hbudget' hpartial =>
    have hlt := hwaits hle hbuf hpartial
    omega
  | case5 attempts first rest hkind hmore e hpeek hpartial =>
    have hlt := hwaits hle hbuf hpartial
    rcases Nat.lt_or_eq_of_le (Nat.succ_le_of_lt hlt) with hbefore | heq
    · obtain ⟨next, hnext⟩ := hok _ hbefore
      rw [hpeek] at hnext
      cases hnext
    · rw [← heq, hpeek] at hlast
      cases hlast
  | case6 attempts first rest hkind hmore buf hpeek hpartial ih =>
    have hlt := hwaits hle hbuf hpartial
    rw [extractLoop, if_neg hkind, if_neg hpartial, if_neg hmore, hpeek]
    exact ih (Nat.succ_le_of_lt hlt) hpeek

/-- A truncated ClientHello has the name of the whole one or none. Hence the peeks at a stream,
whatever each of them sees of it, find no other name than its first 4096 bytes have, and find
what these have as soon as the first record or all of them are buffered in time. -/
theorem extraction_stable (stream : Bytes) :
    (∀ n, parseSniFromClientHello (stream.take n) = none ∨
      parseSniFromClientHello (stream.take n) = parseSniFromClientHello stream) ∧
    ∀ (ε : Type) (peeks : ℕ → Except ε Bytes), PeeksAt stream peeks →
      (∀ name, extractSni peeks = .ok (some name) →
        parseSniFromClientHello (stream.take maxClientHello) = some name) ∧
      ∀ i < maxPeekAttempts, (∀ j < i, ∃ buf, peeks j = .ok buf) →
        (∃ buf, peeks i = .ok buf ∧ (HoldsRecord buf ∨ maxClientHello ≤ buf.length)) →
          extractSni peeks = .ok (parseSniFromClientHello (stream.take maxClientHello)) := by
  refine ⟨?_, fun ε peeks h => ⟨?_, ?_⟩⟩
  · intro n
    rcases hshort : parseSniFromClientHello (stream.take n) with _ | name
    · exact .inl rfl
    · have hsame := parseSniFromClientHello_prefix (List.take_prefix n stream) hshort
      exact .inr hsame.symm
  · intro name hname
    rw [extractSni] at hname
    split at hname
    · cases hname
    · next buf hfirst => exact extractLoop_name h (h.prefix_take hfirst) hname
  · rintro i hbudget hok ⟨last, hlast, hcomplete⟩
    have hbuffered : recordBuffered last = true :=
      hcomplete.elim recordBuffered_of_holdsRecord recordBuffered_of_length
    have hstream : stream ≠ [] := by
      rintro rfl
      rw [List.prefix_nil.mp (h.seen_prefix hlast).1] at hbuffered
      cases hbuffered
    obtain ⟨first, hfirst⟩ : ∃ buf, peeks 0 = .ok buf := by
      rcases Nat.eq_zero_or_pos i with rfl | hpos
      · exact ⟨last, hlast⟩
      · exact hok 0 hpos
    rw [extractSni, hfirst]
    exact extractLoop_buffered h hstream hlast hbuffered hbudget hok (Nat.zero_le i) hfirst

def sampleHello : Bytes :=
  [0x16, 3, 1, 0, 60, 1, 0, 0, 56, 3, 3] ++ List.replicate 32 7 ++
    [0, 0, 2, 0x13, 1, 1, 0, 0, 13, 0, 0, 0, 9, 0, 7, 0, 0, 4, 97, 46, 98, 99]

def samplePeeks (i : ℕ) : Except Unit Bytes := .ok (sampleHello.take (if i = 0 then 62 else 65))

theorem parse_sampleHello : parseSniFromClientHello sampleHello = some "a.bc" := by
  have hnames : parseSniExtension (sampleHello.drop 56) = some "a.bc" := by
    change sniNames ((Window.whole (sampleHello.drop 56)).clamp 2 7 (by decide)) 2 = _
    rw [sniNames, dif_pos (by decide)]
    exact (if_pos (by decide)).trans (fromUtf8_eq_some_iff.mpr rfl)
  change sniExtensions (((Window.whole sampleHello).clamp 5 60 (by decide)).clamp 52 13 (by decide))
    52 = _
  rw [sniExtensions, dif_pos (by decide)]
  exact (if_pos rfl).trans hnames

theorem extraction_stable_sample :
    parseSniFromClientHello (sampleHello.take 62) ∈ [none, some "a.bc"] ∧
      extractSni samplePeeks = .ok (some "a.bc") := by
  have hpeeks : PeeksAt sampleHello samplePeeks := by
    refine ⟨fun {i buf} hi => ?_, fun {i} hi => ?_⟩
    · rw [← Except.ok.inj hi]
      exact ⟨List.take_prefix _ _, Nat.le_trans (List.length_take_le' _ _) (by decide)⟩
    · have hempty := Except.ok.inj hi
      rw [List.take_eq_nil_iff] at hempty
      split_ifs at hempty <;> simp_all [sampleHello]
  have hfull : HoldsRecord sampleHello :=
    ⟨0x16, 3, 1, 0, 60, sampleHello.drop 5, [], by decide, by decide⟩
  obtain ⟨hstable, hexact⟩ := extraction_stable sampleHello
  have hresult := (hexact Unit samplePeeks hpeeks).2 1 (by decide) (fun j _ => ⟨_, rfl⟩)
    ⟨sampleHello, rfl, .inl hfull⟩
  have hcut := hstable 62
  have htake : sampleHello.take maxClientHello = sampleHello := rfl
  rw [htake, parse_sampleHello] at hresult
  rw [parse_sampleHello] at hcut
  exact ⟨by simpa using hcut, hresult⟩

end TransProxy.Sni
