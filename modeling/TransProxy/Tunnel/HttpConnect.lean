import TransProxy.Library.Text
import TransProxy.Tunnel.Request

/-!
# The HTTP CONNECT handshake

The response is read into a buffer of bounded size until the empty line that ends
its header turns up; what is behind the empty line is handed back.
-/
namespace TransProxy.Tunnel
open Library Net

def maxResponseSize : ℕ := 8192

/-- The empty line behind a header line. -/
def headerTerminator : Bytes := [13, 10, 13, 10]

/-- `data.windows(n)`. -/
def windows (n : ℕ) (data : Bytes) : List Bytes :=
  (List.range (data.length + 1 - n)).map (fun i => (data.drop i).take n)

def findHeaderEnd (data : Bytes) : Option ℕ :=
  ((windows 4 data).findIdx? (· == headerTerminator)).map (· + 4)

/-- `lines().next()`: up to the first newline, without it and a carriage return before it. -/
def firstLine (text : List Char) : Option (List Char) :=
  if text = [] then none
  else if '\n' ∈ text then
    let line := text.takeWhile (· != '\n')
    some (if line.getLast? = some '\r' then line.dropLast else line)
  else some text

/-- `splitn`: at most so many parts, the last of which is not split further. -/
def splitn (sep : Char) : ℕ → List Char → List (List Char)
  | 0, _ => []
  | 1, text => [text]
  | n + 2, text =>
    match text.span (· != sep) with
    | (part, []) => [part]
    | (part, _ :: rest) => part :: splitn sep (n + 1) rest

/-- `parse::<u16>()`. -/
def parseU16 (text : List Char) : Option UInt16 := (parseUnsigned 65536 text).map UInt16.ofNat

def parseConnectResponse (header : String) : Except String Unit :=
  match firstLine header.toList with
  | none => .error "Empty CONNECT response"
  | some line =>
    let statusLine := String.ofList line
    match splitn ' ' 3 line with
    | _ :: part :: _ =>
      match parseU16 part with
      | none => .error "Invalid status code"
      | some code =>
        if code = 200 then .ok ()
        else .error (s!"CONNECT failed with status {code}: " ++ statusLine)
    | _ => .error ("Malformed CONNECT response: " ++ statusLine)

/-- What follows the discovery of the empty line. -/
def acceptHeader (buf : Bytes) (pos : ℕ) : Except String Bytes :=
  match fromUtf8 (buf.take pos) with
  | none => .error "Invalid UTF-8 in CONNECT response"
  | some header =>
    match parseConnectResponse header with
    | .error e => .error e
    | .ok () => .ok (buf.drop pos)

/-- The read loop, with the bytes read so far. -/
def readResponse (buf : Bytes) : Handshake Bytes :=
  if maxResponseSize ≤ buf.length then .fail "CONNECT response too large"
  else
    .recv .httpResponse (maxResponseSize - buf.length) fun data =>
      if data = [] then .fail "Connection closed during CONNECT handshake"
      else
        match findHeaderEnd (buf ++ data) with
        | some pos =>
          match acceptHeader (buf ++ data) pos with
          | .error e => .fail e
          | .ok leftover => .done leftover
        | none => readResponse (buf ++ data)
termination_by maxResponseSize - buf.length
decreasing_by
  have hpos := List.length_pos_iff.mpr ‹data ≠ []›
  rw [List.length_append]
  omega

def handshakeHttpConnect (dest : SocketAddr) (hostname : Option String) : Handshake Bytes := do
  .sendAll .httpRequest (strBytes (httpConnectRequest dest hostname))
  readResponse []

theorem findHeaderEnd_eq_some_iff {data : Bytes} {pos : ℕ} :
    findHeaderEnd data = some pos ↔ ∃ i, i + 4 = pos ∧ (data.drop i).take 4 = headerTerminator ∧
      ∀ j < i, (data.drop j).take 4 ≠ headerTerminator := by
  have hlen : ∀ i, (data.drop i).take 4 = headerTerminator → i < data.length + 1 - 4 := by
    intro i h
    have h4 := congrArg List.length h
    simp only [List.length_take, List.length_drop, headerTerminator, List.length_cons,
      List.length_nil] at h4
    omega
  rw [findHeaderEnd, Option.map_eq_some_iff]
  constructor
  · rintro ⟨i, hi, rfl⟩
    obtain ⟨_, hfound, hfirst⟩ := List.findIdx?_eq_some_iff_getElem.mp hi
    refine ⟨i, rfl, by simpa [windows] using hfound, fun j hj => ?_⟩
    simpa [windows] using hfirst j hj
  · rintro ⟨i, rfl, hfound, hfirst⟩
    refine ⟨i, List.findIdx?_eq_some_iff_getElem.mpr ⟨by simpa [windows] using hlen i hfound, ?_⟩, rfl⟩
    simp only [windows, List.getElem_map, List.getElem_range, beq_iff_eq]
    exact ⟨hfound, fun j hj => hfirst j hj⟩

/-- The empty line is seen in a prefix when it ends in it. -/
theorem take_drop_take_eq_iff {data : Bytes} {k i : ℕ} :
    ((data.take k).drop i).take 4 = headerTerminator ↔
      i + 4 ≤ k ∧ (data.drop i).take 4 = headerTerminator := by
  rw [List.drop_take, List.take_take]
  by_cases h : i + 4 ≤ k
  · rw [Nat.min_eq_left (by omega)]
    simp [h]
  · simp only [h, false_and, iff_false]
    intro heq
    have h4 := congrArg List.length heq
    simp only [List.length_take, List.length_drop, headerTerminator, List.length_cons,
      List.length_nil] at h4
    omega

theorem findHeaderEnd_take_eq_some_iff {data : Bytes} {k pos : ℕ} :
    findHeaderEnd (data.take k) = some pos ↔ findHeaderEnd data = some pos ∧ pos ≤ k := by
  simp only [findHeaderEnd_eq_some_iff, ne_eq, take_drop_take_eq_iff]
  constructor
  · rintro ⟨i, rfl, ⟨hk, hfound⟩, hfirst⟩
    exact ⟨⟨i, rfl, hfound, fun j hj heq => hfirst j hj ⟨by omega, heq⟩⟩, hk⟩
  · rintro ⟨⟨i, rfl, hfound, hfirst⟩, hk⟩
    exact ⟨i, rfl, ⟨hk, hfound⟩, fun j hj h => hfirst j hj h.2⟩

theorem findHeaderEnd_take_eq_none_iff {data : Bytes} {k : ℕ} :
    findHeaderEnd (data.take k) = none ↔ ∀ pos, findHeaderEnd data = some pos → k < pos := by
  rw [Option.eq_none_iff_forall_ne_some]
  constructor
  · intro h pos hpos
    by_contra hk
    exact h pos (findHeaderEnd_take_eq_some_iff.mpr ⟨hpos, Nat.le_of_not_lt hk⟩)
  · intro h pos hpos
    obtain ⟨hfull, hk⟩ := findHeaderEnd_take_eq_some_iff.mp hpos
    exact absurd (h pos hfull) (Nat.not_lt.mpr hk)

/-- The outcome for a stream as a whole: what comes behind the header, or an error. -/
def connectOutcome (stream : Bytes) : Except String Bytes :=
  match findHeaderEnd (stream.take maxResponseSize) with
  | some pos => acceptHeader stream pos
  | none =>
    if maxResponseSize ≤ stream.length then .error "CONNECT response too large"
    else .error "Connection closed during CONNECT handshake"

/-- The header is read from the bytes in front of its end. -/
theorem acceptHeader_take {stream : Bytes} {k pos : ℕ} (h : pos ≤ k) :
    (acceptHeader (stream.take k) pos).map (· ++ stream.drop k) = acceptHeader stream pos := by
  have hleft : (stream.take k).drop pos ++ stream.drop k = stream.drop pos := by
    rw [List.drop_take]
    have hdrop : stream.drop k = (stream.drop pos).drop (k - pos) := by
      rw [List.drop_drop, Nat.add_sub_cancel' h]
    rw [hdrop, List.take_append_drop]
  rw [acceptHeader, acceptHeader, List.take_take, Nat.min_eq_left h]
  cases fromUtf8 (stream.take pos) with
  | none => rfl
  | some header =>
    dsimp only
    cases parseConnectResponse header with
    | error e => rfl
    | ok _ => exact congrArg Except.ok hleft

/-- The leftover of an outcome together with the bytes that are still unread. -/
def restOf (o : Dialogue.Outcome Op String Bytes) : Except String Bytes :=
  o.result.map (· ++ o.unread)

theorem connectOutcome_of_full {stream : Bytes} {k : ℕ} (hk : k ≤ stream.length)
    (hnone : findHeaderEnd (stream.take k) = none) (hfull : maxResponseSize ≤ k) :
    connectOutcome stream = .error "CONNECT response too large" := by
  have hnone' : findHeaderEnd (stream.take maxResponseSize) = none := by
    rw [findHeaderEnd_take_eq_none_iff] at hnone ⊢
    exact fun pos hpos => Nat.lt_of_le_of_lt hfull (hnone pos hpos)
  rw [connectOutcome, hnone']
  simp [Nat.le_trans hfull hk]

theorem connectOutcome_of_closed {stream : Bytes} (hnone : findHeaderEnd stream = none)
    (hshort : stream.length < maxResponseSize) :
    connectOutcome stream = .error "Connection closed during CONNECT handshake" := by
  rw [connectOutcome, List.take_of_length_le (Nat.le_of_lt hshort), hnone]
  simp [Nat.not_le.mpr hshort]

theorem connectOutcome_of_found {stream : Bytes} {k pos : ℕ} (hk : k ≤ maxResponseSize)
    (hfound : findHeaderEnd (stream.take k) = some pos) :
    connectOutcome stream = acceptHeader stream pos := by
  obtain ⟨hpos, hle⟩ := findHeaderEnd_take_eq_some_iff.mp hfound
  rw [connectOutcome, findHeaderEnd_take_eq_some_iff.mpr ⟨hpos, Nat.le_trans hle hk⟩]

/-- However the stream is split, the loop has the outcome of the whole stream. The
induction is on the room left in the buffer, which holds no empty line yet. -/
theorem run_readResponse (split : ℕ → ℕ) (stream : Bytes) (k i : ℕ) (hk : k ≤ stream.length)
    (hnone : findHeaderEnd (stream.take k) = none) :
    restOf ((readResponse (stream.take k)).run ioError (.clean split) i (stream.drop k)) =
      connectOutcome stream := by
  induction hroom : maxResponseSize - k using Nat.strongRecOn generalizing k i with
  | _ room ih =>
    rw [readResponse, List.length_take_of_le hk]
    by_cases hfull : maxResponseSize ≤ k
    · rw [if_pos hfull, connectOutcome_of_full hk hnone hfull]
      rfl
    rw [if_neg hfull]
    have hbuf : ∀ n, stream.take k ++ (stream.drop k).take n = stream.take (k + n) := by
      intro n
      rw [List.take_add]
    simp only [Dialogue.run, Dialogue.Network.clean, hbuf, List.drop_drop, List.length_drop]
    generalize hn : min (min (maxResponseSize - k) (split i + 1)) (stream.length - k) = n
    by_cases hend : (stream.drop k).take n = []
    · -- the stream has ended, since the read asked for a byte at least
      have hshort : stream.length = k := by
        have hlen := congrArg List.length hend
        rw [List.length_take, List.length_drop, List.length_nil] at hlen
        omega
      rw [if_pos hend]
      rw [← hshort, List.take_length] at hnone
      rw [connectOutcome_of_closed hnone (by omega)]
      rfl
    · have hpos : n ≠ 0 := by
        rintro rfl
        exact hend rfl
      rw [if_neg hend]
      cases hfind : findHeaderEnd (stream.take (k + n)) with
      | none => exact ih _ (by omega) (k + n) (i + 1) (by omega) hfind rfl
      | some pos =>
        have hle := (findHeaderEnd_take_eq_some_iff.mp hfind).2
        rw [connectOutcome_of_found (by omega) hfind, ← acceptHeader_take hle]
        dsimp only
        cases acceptHeader (stream.take (k + n)) pos with
        | error e => rfl
        | ok leftover => rfl

/-- The handshake does not depend on the chunks: its leftover and the unread bytes are
what a single look at the whole stream finds behind the header. -/
theorem run_handshakeHttpConnect (dest : SocketAddr) (hostname : Option String) (split : ℕ → ℕ)
    (stream : Bytes) :
    restOf ((handshakeHttpConnect dest hostname).run ioError (.clean split) 0 stream) =
      connectOutcome stream :=
  run_readResponse split stream 0 1 (Nat.zero_le _) rfl

/-- The first empty line of the stream is the one between the two parts. -/
def SplitsAtFirst (stream header payload : Bytes) : Prop :=
  stream = header ++ headerTerminator ++ payload ∧
    ∀ j < header.length, (stream.drop j).take 4 ≠ headerTerminator

/-- `parse_connect_response` accepts the header with the empty line behind it. -/
def StatusAccepted (header : Bytes) : Prop :=
  ∃ text, strBytes text = header ++ headerTerminator ∧ parseConnectResponse text = .ok ()

theorem findHeaderEnd_eq_some_iff_splits {stream : Bytes} {pos : ℕ} :
    findHeaderEnd stream = some pos ↔
      ∃ header payload, SplitsAtFirst stream header payload ∧ header.length + 4 = pos := by
  rw [findHeaderEnd_eq_some_iff]
  constructor
  · rintro ⟨i, rfl, hfound, hfirst⟩
    have hlen : (stream.take i).length = i := by
      have h4 := congrArg List.length hfound
      simp only [List.length_take, List.length_drop, headerTerminator, List.length_cons,
        List.length_nil] at h4
      exact List.length_take_of_le (by omega)
    refine ⟨stream.take i, stream.drop (i + 4), ⟨?_, ?_⟩, by rw [hlen]⟩
    · rw [← hfound, List.append_assoc, ← List.drop_drop, List.take_append_drop,
        List.take_append_drop]
    · rwa [hlen]
  · rintro ⟨header, payload, ⟨rfl, hfirst⟩, rfl⟩
    refine ⟨header.length, rfl, ?_, hfirst⟩
    simp [headerTerminator]

/-- A stream has one first empty line. -/
theorem SplitsAtFirst.unique {stream header header' payload payload' : Bytes}
    (h : SplitsAtFirst stream header payload) (h' : SplitsAtFirst stream header' payload') :
    payload = payload' := by
  have hpos := findHeaderEnd_eq_some_iff_splits.mpr ⟨header, payload, h, rfl⟩
  have hpos' := findHeaderEnd_eq_some_iff_splits.mpr ⟨header', payload', h', rfl⟩
  have hlen := Option.some.inj (hpos.symm.trans hpos')
  have heq := h.1.symm.trans h'.1
  exact (List.append_inj heq (by simp only [List.length_append]; omega)).2

theorem acceptHeader_eq_ok_iff {header payload leftover : Bytes} :
    acceptHeader (header ++ headerTerminator ++ payload) (header.length + 4) = .ok leftover ↔
      StatusAccepted header ∧ leftover = payload := by
  have hpos : header.length + 4 = (header ++ headerTerminator).length := by
    simp [headerTerminator]
  rw [acceptHeader, hpos, List.take_left, List.drop_left]
  constructor
  · intro h
    cases htext : fromUtf8 (header ++ headerTerminator) with
    | none => simp [htext] at h
    | some text =>
      cases hparse : parseConnectResponse text with
      | error e => simp [htext, hparse] at h
      | ok _ =>
        simp only [htext, hparse, Except.ok.injEq] at h
        exact ⟨⟨text, fromUtf8_eq_some_iff.mp htext, hparse⟩, h.symm⟩
  · rintro ⟨⟨text, htext, hparse⟩, rfl⟩
    rw [fromUtf8_eq_some_iff.mpr htext]
    simp [hparse]

/-- The empty line is ASCII, so the header is UTF-8 with it or without it. -/
theorem StatusAccepted.isSome_fromUtf8 {header : Bytes} (h : StatusAccepted header) :
    (fromUtf8 header).isSome := by
  obtain ⟨text, htext, _⟩ := h
  have hc : (13 : UInt8) &&& 0x80 = 0 := by decide
  have hrest : (fromUtf8 headerTerminator).isSome := by decide
  rw [← isSome_fromUtf8_append_ascii hc hrest]
  exact isSome_fromUtf8_iff.mpr ⟨text, htext⟩

/-- A stream is accepted when its first empty line ends within the buffer, behind a
header in UTF-8 with a status line that is accepted. -/
theorem connectOutcome_eq_ok_iff {stream payload : Bytes} :
    connectOutcome stream = .ok payload ↔ ∃ header, SplitsAtFirst stream header payload ∧
      header.length + 4 ≤ maxResponseSize ∧ (fromUtf8 header).isSome ∧
        StatusAccepted header := by
  constructor
  · intro h
    cases hfind : findHeaderEnd (stream.take maxResponseSize) with
    | none =>
      rw [connectOutcome, hfind] at h
      split_ifs at h
    | some pos =>
      obtain ⟨hpos, hle⟩ := findHeaderEnd_take_eq_some_iff.mp hfind
      obtain ⟨header, rest, hsplit, rfl⟩ := findHeaderEnd_eq_some_iff_splits.mp hpos
      rw [connectOutcome_of_found (Nat.le_refl _) hfind, hsplit.1, acceptHeader_eq_ok_iff] at h
      obtain ⟨hstatus, rfl⟩ := h
      exact ⟨header, hsplit, hle, hstatus.isSome_fromUtf8, hstatus⟩
  · rintro ⟨header, hsplit, hle, _, hstatus⟩
    have hpos := findHeaderEnd_eq_some_iff_splits.mpr ⟨header, payload, hsplit, rfl⟩
    have hfind := findHeaderEnd_take_eq_some_iff.mpr ⟨hpos, hle⟩
    rw [connectOutcome_of_found (Nat.le_refl _) hfind, hsplit.1, acceptHeader_eq_ok_iff]
    exact ⟨hstatus, rfl⟩

end TransProxy.Tunnel
