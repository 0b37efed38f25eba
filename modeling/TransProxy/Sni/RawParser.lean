import TransProxy.Dns.RawWalkers
import TransProxy.Sni.ClientHello

/-!
# The parser of server names with the accesses as they are written

The positions and the ends of the levels are plain numbers, as in `sni.rs`, and each access and
each subtraction may fault. None does, whatever the lengths in the message are.
-/
namespace TransProxy.Sni.Raw
open Library Checked

/-- `u16::from_be_bytes` of the two bytes at `pos`, as a length. -/
def u16At (data : Bytes) (pos : ℕ) : Checked ℕ := do
  return (u16FromBeBytes (← index data pos) (← index data (pos + 1))).toNat

def sniNames (data : Bytes) (stop pos : ℕ) : Checked (Option String) :=
  loop (fun pos => do
    if ¬ pos + 3 ≤ stop then return .done none
    let nameType ← index data pos
    let nameLen ← u16At data (pos + 1)
    if nameType = sniHostNameType ∧ pos + 3 + nameLen ≤ stop then
      return .done (fromUtf8 (← range data (pos + 3) (pos + 3 + nameLen)))
    return .next (pos + 3 + nameLen)) pos

def parseSniExtension (data : Bytes) : Checked (Option String) := do
  if data.length < 2 then return none
  let listLen ← u16At data 0
  let stop := 2 + min listLen (← sub data.length 2)
  sniNames data stop 2

def sniExtensions (data : Bytes) (extensionsEnd pos : ℕ) : Checked (Option String) :=
  loop (fun pos => do
    if ¬ pos + 4 ≤ extensionsEnd then return .done none
    let extType ← u16At data pos
    let extLen ← u16At data (pos + 2)
    if extType = tlsExtServerName then
      let room ← sub extensionsEnd (pos + 4)
      return .done (← parseSniExtension (← range data (pos + 4) (pos + 4 + min extLen room)))
    return .next (pos + 4 + extLen)) pos

/-- Behind a field whose length is in one byte. -/
def skipField8 (data : Bytes) (recordEnd pos : ℕ) : Checked (Option ℕ) := do
  if recordEnd < pos + 1 then return none
  let len ← index data pos
  return some (pos + 1 + len.toNat)

/-- Behind a field whose length is in two bytes. -/
def skipField16 (data : Bytes) (recordEnd pos : ℕ) : Checked (Option ℕ) := do
  if recordEnd < pos + 2 then return none
  let len ← u16At data pos
  return some (pos + 2 + len)

/-- The extensions of a ClientHello, from their length on. -/
def helloExtensions (data : Bytes) (recordEnd pos : ℕ) : Checked (Option String) := do
  if recordEnd < pos + 2 then return none
  let extensionsLen ← u16At data pos
  let extensionsEnd := pos + 2 + min extensionsLen (← sub recordEnd (pos + 2))
  sniExtensions data extensionsEnd (pos + 2)

/-- The handshake message in the record that begins behind the five bytes of its header. -/
def parseHello (data : Bytes) (recordEnd : ℕ) : Checked (Option String) := do
  if recordEnd < 5 + 4 then return none
  if (← index data 5) ≠ tlsHandshakeClientHello then return none
  if recordEnd < 9 + 34 then return none
  match ← skipField8 data recordEnd 43 with
  | none => return none
  | some pos =>
    match ← skipField16 data recordEnd pos with
    | none => return none
    | some pos =>
      match ← skipField8 data recordEnd pos with
      | none => return none
      | some pos => helloExtensions data recordEnd pos

def parseSniFromClientHello (data : Bytes) : Checked (Option String) := do
  if data.length < 5 then return none
  if (← index data 0) ≠ tlsRecordHandshake then return none
  let recordLen ← u16At data 3
  let recordEnd := 5 + min recordLen (← sub data.length 5)
  parseHello data recordEnd

section Complete
variable {w : Window} {pos : ℕ}

theorem completes_byte (h : pos < w.stop) {P : UInt8 → Prop} (hP : P (w.byte pos h)) :
    Completes (index w.data pos) P :=
  .index (Nat.lt_of_lt_of_le h w.inBounds) hP

theorem completes_u16At (h : pos + 2 ≤ w.stop) {P : ℕ → Prop} (hP : P (w.u16 pos h)) :
    Completes (u16At w.data pos) P := by
  refine .bind (completes_byte (by omega) ?_)
  refine .bind (completes_byte (by omega) ?_)
  exact .pure hP

theorem completes_bytes {lo hi : ℕ} (hlo : lo ≤ hi) (hhi : hi ≤ w.stop) {P : Bytes → Prop}
    (hP : P (w.bytes lo hi)) : Completes (range w.data lo hi) P := by
  rw [Window.bytes, List.drop_take] at hP
  exact .range hlo (Nat.le_trans hhi w.inBounds) hP

theorem completes_sniNames (w : Window) (pos : ℕ) :
    Completes (sniNames w.data w.stop pos) (· = Sni.sniNames w pos) := by
  refine .loop (fun p => w.stop - p) (fun p => Sni.sniNames w p = Sni.sniNames w pos) ?_ rfl
  intro p hp
  rw [← hp, Sni.sniNames]
  by_cases hroom : p + 3 ≤ w.stop
  · simp only [hroom, not_true_eq_false, if_false, dif_pos]
    refine .bind (completes_byte (by omega) ?_)
    refine .bind (completes_u16At hroom ?_)
    split_ifs with hname
    · exact .bind (completes_bytes (by omega) hname.2 (.pure rfl))
    · exact .pure ⟨rfl, by omega⟩
  · simp only [hroom, not_false_eq_true, if_true, dif_neg]
    exact .pure rfl

theorem completes_parseSniExtension (data : Bytes) :
    Completes (parseSniExtension data) (· = Sni.parseSniExtension data) := by
  rw [parseSniExtension, Sni.parseSniExtension]
  refine .guard fun hlen => ?_
  have hdata : 2 ≤ (Window.whole data).stop := Nat.le_of_not_lt hlen
  refine .bind (completes_u16At (w := Window.whole data) hdata ?_)
  exact .bind (.sub hdata (completes_sniNames ((Window.whole data).clamp 2 _ hdata) 2))

theorem completes_sniExtensions (w : Window) (pos : ℕ) :
    Completes (sniExtensions w.data w.stop pos) (· = Sni.sniExtensions w pos) := by
  refine .loop (fun p => w.stop - p) (fun p => Sni.sniExtensions w p = Sni.sniExtensions w pos)
    ?_ rfl
  intro p hp
  rw [← hp, Sni.sniExtensions]
  by_cases hroom : p + 4 ≤ w.stop
  · simp only [hroom, not_true_eq_false, if_false, dif_pos]
    refine .bind (completes_u16At (by omega) ?_)
    refine .bind (completes_u16At hroom ?_)
    split_ifs with hname
    · refine .bind (.sub hroom ?_)
      refine .bind (completes_bytes (by omega) (by omega) ?_)
      refine .bind_eq (completes_parseSniExtension _) ?_
      exact .pure rfl
    · exact .pure ⟨rfl, by omega⟩
  · simp only [hroom, not_false_eq_true, if_true, dif_neg]
    exact .pure rfl

theorem completes_skipField8 (w : Window) (pos : ℕ) :
    Completes (skipField8 w.data w.stop pos) (· = Sni.skipField8 w pos) := by
  rw [skipField8, Sni.skipField8]
  by_cases hroom : pos + 1 ≤ w.stop
  · simp only [Nat.not_lt.mpr hroom, if_false, hroom, dif_pos]
    exact .bind (completes_byte (by omega) (.pure rfl))
  · simp only [Nat.lt_of_not_le hroom, if_true, hroom, dif_neg, not_false_eq_true]
    exact .pure rfl

theorem completes_skipField16 (w : Window) (pos : ℕ) :
    Completes (skipField16 w.data w.stop pos) (· = Sni.skipField16 w pos) := by
  rw [skipField16, Sni.skipField16]
  by_cases hroom : pos + 2 ≤ w.stop
  · simp only [Nat.not_lt.mpr hroom, if_false, hroom, dif_pos]
    exact .bind (completes_u16At hroom (.pure rfl))
  · simp only [Nat.lt_of_not_le hroom, if_true, hroom, dif_neg, not_false_eq_true]
    exact .pure rfl

theorem completes_helloExtensions (w : Window) (pos : ℕ) :
    Completes (helloExtensions w.data w.stop pos) (· = Sni.helloExtensions w pos) := by
  rw [helloExtensions, Sni.helloExtensions]
  by_cases hroom : pos + 2 ≤ w.stop
  · simp only [Nat.not_lt.mpr hroom, if_false, hroom, dif_pos]
    refine .bind (completes_u16At hroom ?_)
    exact .bind (.sub hroom (completes_sniExtensions (w.clamp (pos + 2) _ hroom) (pos + 2)))
  · simp only [Nat.lt_of_not_le hroom, if_true, hroom, dif_neg, not_false_eq_true]
    exact .pure rfl

theorem completes_parseHello (w : Window) :
    Completes (parseHello w.data w.stop) (· = Sni.parseHello w) := by
  rw [parseHello, Sni.parseHello]
  refine .guard fun hhead => ?_
  refine .bind (completes_byte (by omega) ?_)
  split_ifs with htype hfixed
  · exact .pure rfl
  · exact .pure rfl
  refine .bind_eq (completes_skipField8 w 43) ?_
  cases Sni.skipField8 w 43 with
  | none => exact .pure rfl
  | some pos =>
    refine .bind_eq (completes_skipField16 w pos) ?_
    dsimp only [Option.bind_eq_bind, Option.bind_some]
    cases Sni.skipField16 w pos with
    | none => exact .pure rfl
    | some pos =>
      refine .bind_eq (completes_skipField8 w pos) ?_
      dsimp only [Option.bind_some]
      cases Sni.skipField8 w pos with
      | none => exact .pure rfl
      | some pos => exact completes_helloExtensions w pos

theorem completes_parseSniFromClientHello (data : Bytes) :
    Completes (parseSniFromClientHello data) (· = Sni.parseSniFromClientHello data) := by
  rw [parseSniFromClientHello, Sni.parseSniFromClientHello]
  refine .guard fun hlen => ?_
  dsimp only
  have hdata : 5 ≤ (Window.whole data).stop := Nat.le_of_not_lt hlen
  refine .bind (completes_byte (w := Window.whole data) (Nat.lt_of_lt_of_le (by decide) hdata) ?_)
  split_ifs with htype
  · exact .pure rfl
  refine .bind (completes_u16At (w := Window.whole data) hdata ?_)
  exact .bind (.sub hdata (completes_parseHello ((Window.whole data).clamp 5 _ hdata)))

end Complete
end TransProxy.Sni.Raw

namespace TransProxy
open Library Checked

/-- No parser of untrusted bytes faults, and each of them ends. -/
theorem parsers_complete :
    (∀ packet pos, Completes (Dns.Raw.skipDnsName packet pos) (· = Dns.skipDnsName packet pos)) ∧
    (∀ packet, Completes (Dns.Raw.parseQueryName packet) (· = Dns.parseQueryName packet)) ∧
    (∀ packet, Completes (Dns.Raw.parseQueryType packet) (· = Dns.parseQueryType packet)) ∧
    (∀ packet, Completes (Dns.Raw.parseIpRecords packet) (· = Dns.parseIpRecords packet)) ∧
    (∀ packet, Completes (Dns.Raw.extractMinTtl packet) (· = Dns.extractMinTtl packet)) ∧
    (∀ packet elapsedSecs, Completes (Dns.Raw.rewriteTtls packet elapsedSecs)
      (· = Dns.rewriteTtls packet elapsedSecs)) ∧
    (∀ query rcode, Completes (Dns.Raw.buildEmptyResponse query rcode)
      (· = Dns.buildEmptyResponse query rcode)) ∧
    (∀ data, Completes (Sni.Raw.parseSniFromClientHello data)
      (· = Sni.parseSniFromClientHello data)) ∧
    ∀ data, Completes (Sni.Raw.parseSniExtension data) (· = Sni.parseSniExtension data) :=
  ⟨Dns.Raw.completes_skipDnsName, Dns.Raw.completes_parseQueryName,
    Dns.Raw.completes_parseQueryType, Dns.Raw.completes_parseIpRecords,
    Dns.Raw.completes_extractMinTtl, Dns.Raw.completes_rewriteTtls,
    Dns.Raw.completes_buildEmptyResponse, Sni.Raw.completes_parseSniFromClientHello,
    Sni.Raw.completes_parseSniExtension⟩

end TransProxy
