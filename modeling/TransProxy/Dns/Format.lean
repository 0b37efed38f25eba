import Mathlib.Data.List.Infix
import TransProxy.Library.Layout
import TransProxy.Dns.Question

/-!
# The format of DNS messages

Names, questions, records and whole messages, each with its bytes on the wire. Lengths and
counts are part of the types, so that every value of them is a message that can be sent. The
walkers are compared with these bytes: they step over what is encoded, and what they step over
is encoded.
-/
namespace TransProxy.Dns.Format
open Library Net

/-- A label of 1 to 191 bytes: the walkers take more than the 63 of the standard, up to the
length bytes that mark a pointer. -/
structure Label where
  bytes : Bytes
  nonempty : 1 ≤ bytes.length
  short : bytes.length < 192
deriving DecidableEq

/-- A name ends in the root or goes on elsewhere. -/
inductive NameEnd where
  | root
  | pointer (hi lo : UInt8) (marked : 192 ≤ hi.toNat)
deriving DecidableEq

structure Name where
  labels : List Label
  stop : NameEnd
deriving DecidableEq

def Label.encode (l : Label) : Bytes := UInt8.ofNat l.bytes.length :: l.bytes

def encodeLabels (labels : List Label) : Bytes := labels.flatMap Label.encode

def NameEnd.encode : NameEnd → Bytes
  | .root => [0]
  | .pointer hi lo _ => [hi, lo]

def Name.encode (n : Name) : Bytes := encodeLabels n.labels ++ n.stop.encode

@[simp] theorem Label.length_encode (l : Label) : l.encode.length = l.bytes.length + 1 := rfl

theorem encodeLabels_cons (l : Label) (labels : List Label) :
    encodeLabels (l :: labels) = l.encode ++ encodeLabels labels := rfl

theorem Label.toNat_length (l : Label) : (UInt8.ofNat l.bytes.length).toNat = l.bytes.length := by
  have hshort := l.short
  rw [UInt8.toNat_ofNat', Nat.mod_eq_of_lt (by omega)]

/-- The two top bits mark a pointer. -/
theorem and_pointer_iff (b : UInt8) : b &&& 0xC0 = 0xC0 ↔ 192 ≤ b.toNat := by
  revert b
  exact forall_byte (by decide +kernel)

theorem eq_zero_iff (b : UInt8) : b = 0 ↔ b.toNat = 0 := UInt8.toNat_inj.symm

section Walk
variable {packet : Bytes} {pos : ℕ}

theorem skipDnsName_holdsAt_label {l : Label} (h : HoldsAt packet pos l.encode) :
    skipDnsName packet pos = skipDnsName packet (pos + l.encode.length) := by
  have hlen := h.length_le
  rw [Label.length_encode] at hlen
  have hin : pos < packet.length := by omega
  have hbyte := h.getElem hin
  have hnat : packet[pos].toNat = l.bytes.length := by rw [hbyte, l.toNat_length]
  have hpos := l.nonempty
  have hshort := l.short
  rw [skipDnsName_label hin, hnat]
  · congr 1
    rw [Label.length_encode]
    omega
  · rw [ne_eq, eq_zero_iff]
    omega
  · rw [ne_eq, and_pointer_iff]
    omega

theorem skipDnsName_holdsAt_labels {labels : List Label} :
    ∀ {pos : ℕ}, HoldsAt packet pos (encodeLabels labels) →
      skipDnsName packet pos = skipDnsName packet (pos + (encodeLabels labels).length) := by
  induction labels with
  | nil => exact fun _ => rfl
  | cons l labels ih =>
    intro pos h
    rw [encodeLabels_cons, holdsAt_append] at h
    rw [skipDnsName_holdsAt_label h.1, ih h.2, encodeLabels_cons, List.length_append,
      Nat.add_assoc]

/-- The walk over a name stops behind it, and only needs its end to begin. -/
theorem skipDnsName_of_begun {n : Name} (h : HoldsAt packet pos (encodeLabels n.labels))
    (hend : HoldsAt packet (pos + (encodeLabels n.labels).length) (n.stop.encode.take 1)) :
    skipDnsName packet pos = some (pos + n.encode.length) := by
  rw [skipDnsName_holdsAt_labels h, Name.encode, List.length_append, ← Nat.add_assoc]
  cases hstop : n.stop with
  | root =>
    rw [hstop] at hend
    obtain ⟨hin, hbyte⟩ := holdsAt_singleton.mp hend
    exact skipDnsName_zero hin hbyte
  | pointer hi lo marked =>
    rw [hstop] at hend
    obtain ⟨hin, hbyte⟩ := holdsAt_singleton.mp hend
    apply skipDnsName_pointer hin
    · rw [hbyte, ne_eq, eq_zero_iff]
      omega
    · rw [hbyte, and_pointer_iff]
      exact marked

theorem skipDnsName_holdsAt {n : Name} (h : HoldsAt packet pos n.encode) :
    skipDnsName packet pos = some (pos + n.encode.length) := by
  obtain ⟨hlabels, hstop⟩ := holdsAt_append.mp h
  refine skipDnsName_of_begun hlabels ?_
  rw [← List.take_append_drop 1 n.stop.encode] at hstop
  exact hstop.mono

/-- A name of which no more than labels is left is cut off. -/
theorem skipDnsName_of_cut {labels : List Label} :
    ∀ {pos : ℕ}, packet.drop pos <+: encodeLabels labels → skipDnsName packet pos = none := by
  induction labels with
  | nil =>
    intro pos h
    exact skipDnsName_end (List.drop_eq_nil_iff.mp (List.prefix_nil.mp h))
  | cons l labels ih =>
    intro pos h
    by_cases hin : pos < packet.length
    · have hrest : packet.drop (pos + l.encode.length) <+: encodeLabels labels := by
        have hdrop := h.drop l.encode.length
        rwa [List.drop_drop, encodeLabels_cons, List.drop_left] at hdrop
      have hbyte : packet[pos] = UInt8.ofNat l.bytes.length := by
        rw [← List.getElem_cons_drop hin, encodeLabels_cons, Label.encode] at h
        exact (List.cons_prefix_cons.mp h).1
      have hnat : packet[pos].toNat = l.bytes.length := by rw [hbyte, l.toNat_length]
      have hpos := l.nonempty
      have hshort := l.short
      rw [skipDnsName_label hin, hnat, Nat.add_assoc, Nat.add_comm 1]
      · exact ih hrest
      · rw [ne_eq, eq_zero_iff]
        omega
      · rw [ne_eq, and_pointer_iff]
        omega
    · exact skipDnsName_end (Nat.le_of_not_lt hin)

/-- What the walk steps over is a name. -/
theorem exists_name_of_skipDnsName {e : ℕ} (h : skipDnsName packet pos = some e)
    (he : e ≤ packet.length) :
    ∃ n : Name, HoldsAt packet pos n.encode ∧ pos + n.encode.length = e := by
  fun_induction skipDnsName packet pos with
  | case1 pos hend => cases h
  | case2 pos hin b hzero =>
    obtain rfl := Option.some.inj h
    exact ⟨⟨[], .root⟩, holdsAt_singleton.mpr ⟨he, hzero⟩, rfl⟩
  | case3 pos hin b hzero hptr =>
    obtain rfl := Option.some.inj h
    refine ⟨⟨[], .pointer packet[pos] packet[pos + 1] ((and_pointer_iff _).mp hptr)⟩, ?_, rfl⟩
    exact holdsAt_cons.mpr ⟨⟨by omega, rfl⟩, holdsAt_singleton.mpr ⟨by omega, rfl⟩⟩
  | case4 pos hin b hzero hptr ih =>
    obtain ⟨n, hn, hlen⟩ := ih h
    have hbound := hn.1
    rw [eq_zero_iff] at hzero
    rw [and_pointer_iff] at hptr
    have hlabel : ((packet.drop (pos + 1)).take b.toNat).length = b.toNat := by
      rw [List.length_take, List.length_drop]
      omega
    obtain ⟨l, hbytes⟩ : ∃ l : Label, l.bytes = (packet.drop (pos + 1)).take b.toNat :=
      ⟨⟨_, by omega, by omega⟩, rfl⟩
    have hlen' : l.encode.length = b.toNat + 1 := by rw [Label.length_encode, hbytes, hlabel]
    have hl : HoldsAt packet pos l.encode := by
      rw [Label.encode, hbytes, hlabel, UInt8.ofNat_toNat]
      exact holdsAt_cons.mpr ⟨⟨by omega, rfl⟩, holdsAt_take_drop hbound⟩
    have hsplit : Name.encode ⟨l :: n.labels, n.stop⟩ = l.encode ++ n.encode := by
      rw [Name.encode, encodeLabels_cons, List.append_assoc, Name.encode]
    refine ⟨⟨l :: n.labels, n.stop⟩, ?_, ?_⟩
    · rw [hsplit, holdsAt_append, hlen', Nat.add_comm b.toNat, ← Nat.add_assoc]
      exact ⟨hl, hn⟩
    · rw [hsplit, List.length_append, hlen']
      omega

theorem u16At_holdsAt {x : UInt16} (h : HoldsAt packet pos (u16ToBeBytes x))
    (hpos : pos + 2 ≤ packet.length) : u16At packet pos hpos = x := by
  rw [u16ToBeBytes, holdsAt_cons, holdsAt_cons] at h
  obtain ⟨⟨_, hhi⟩, ⟨_, hlo⟩, _⟩ := h
  rw [u16At, hhi, hlo, u16FromBeBytes_u16ToBeBytes]

theorem holdsAt_u16At (hpos : pos + 2 ≤ packet.length) :
    HoldsAt packet pos (u16ToBeBytes (u16At packet pos hpos)) := by
  rw [u16At, u16ToBeBytes_u16FromBeBytes]
  simp only [holdsAt_cons, holdsAt_nil]
  exact ⟨⟨by omega, trivial⟩, ⟨by omega, trivial⟩, by omega⟩

theorem u32At_holdsAt {x : UInt32} (h : HoldsAt packet pos (u32ToBeBytes x))
    (hpos : pos + 4 ≤ packet.length) : u32At packet pos hpos = x := by
  simp only [u32ToBeBytes, holdsAt_cons] at h
  obtain ⟨⟨_, h0⟩, ⟨_, h1⟩, ⟨_, h2⟩, ⟨_, h3⟩, _⟩ := h
  rw [u32At, h0, h1, h2, h3, u32FromBeBytes_u32ToBeBytes]

theorem holdsAt_u32At (hpos : pos + 4 ≤ packet.length) :
    HoldsAt packet pos (u32ToBeBytes (u32At packet pos hpos)) := by
  rw [u32At, u32ToBeBytes_u32FromBeBytes]
  simp only [holdsAt_cons, holdsAt_nil]
  exact ⟨⟨by omega, trivial⟩, ⟨by omega, trivial⟩, ⟨by omega, trivial⟩, ⟨by omega, trivial⟩,
    by omega⟩

@[simp] theorem length_u16ToBeBytes (x : UInt16) : (u16ToBeBytes x).length = 2 := rfl

@[simp] theorem length_u32ToBeBytes (x : UInt32) : (u32ToBeBytes x).length = 4 := rfl

structure Question where
  name : Name
  qtype : UInt16
  qclass : UInt16
deriving DecidableEq

def Question.encode (q : Question) : Bytes :=
  q.name.encode ++ (u16ToBeBytes q.qtype ++ u16ToBeBytes q.qclass)

def encodeQuestions (qs : List Question) : Bytes := qs.flatMap Question.encode

theorem encodeQuestions_cons (q : Question) (qs : List Question) :
    encodeQuestions (q :: qs) = q.encode ++ encodeQuestions qs := rfl

theorem Question.length_encode (q : Question) : q.encode.length = q.name.encode.length + 4 := by
  simp [Question.encode]

theorem skipQuestions_holdsAt {qs : List Question} :
    ∀ {pos : ℕ}, HoldsAt packet pos (encodeQuestions qs) →
      skipQuestions packet qs.length pos = some (pos + (encodeQuestions qs).length) := by
  induction qs with
  | nil => exact fun _ => rfl
  | cons q qs ih =>
    intro pos h
    rw [encodeQuestions_cons, holdsAt_append] at h
    have hlen := h.1.length_le
    have hrest := ih h.2
    rw [q.length_encode] at hlen hrest
    rw [List.length_cons, skipQuestions, skipDnsName_holdsAt (HoldsAt.mono h.1)]
    simp only [if_neg (show ¬ packet.length < pos + q.name.encode.length + 4 by omega)]
    rw [Nat.add_assoc, hrest, encodeQuestions_cons, List.length_append, q.length_encode,
      Nat.add_assoc pos]

/-- What the question loop steps over is questions, as many as it counts. -/
theorem exists_questions_of_skipQuestions {n : ℕ} :
    ∀ {pos e : ℕ}, pos ≤ packet.length → skipQuestions packet n pos = some e →
      ∃ qs : List Question, qs.length = n ∧ HoldsAt packet pos (encodeQuestions qs) ∧
        pos + (encodeQuestions qs).length = e := by
  induction n with
  | zero =>
    intro pos e hpos h
    exact ⟨[], rfl, ⟨hpos, List.nil_prefix⟩, Option.some.inj h⟩
  | succ n ih =>
    intro pos e hpos h
    rw [skipQuestions] at h
    cases hname : skipDnsName packet pos with
    | none => simp [hname] at h
    | some p =>
      by_cases hshort : packet.length < p + 4
      · simp [hname, hshort] at h
      · simp only [hname, if_neg hshort] at h
        obtain ⟨qs, hn, hqs, hlen⟩ := ih (by omega) h
        obtain ⟨name, hheld, hp⟩ := exists_name_of_skipDnsName hname (by omega)
        have htype := holdsAt_u16At (show p + 2 ≤ packet.length by omega)
        have hclass := holdsAt_u16At (show p + 2 + 2 ≤ packet.length by omega)
        obtain ⟨q, hq, hqlen⟩ : ∃ q : Question, HoldsAt packet pos q.encode ∧
            pos + q.encode.length = p + 4 := by
          refine ⟨⟨name, u16At packet p (by omega), u16At packet (p + 2) (by omega)⟩, ?_, ?_⟩
          · rw [Question.encode, holdsAt_append, holdsAt_append, hp]
            exact ⟨hheld, htype, hclass⟩
          · rw [Question.length_encode, ← Nat.add_assoc]
            exact congrArg (· + 4) hp
        refine ⟨q :: qs, by rw [List.length_cons, hn], ?_, ?_⟩
        · rw [encodeQuestions_cons, holdsAt_append, hqlen]
          exact ⟨hq, hqs⟩
        · rw [encodeQuestions_cons, List.length_append]
          omega

end Walk

structure Record where
  name : Name
  rtype : UInt16
  rclass : UInt16
  ttl : UInt32
  rdata : Bytes
  rdata_lt : rdata.length < 65536
deriving DecidableEq

def Record.fields (r : Record) : Bytes :=
  u16ToBeBytes r.rtype ++ (u16ToBeBytes r.rclass ++ (u32ToBeBytes r.ttl ++
    u16ToBeBytes (UInt16.ofNat r.rdata.length)))

def Record.encode (r : Record) : Bytes := r.name.encode ++ (r.fields ++ r.rdata)

def encodeRecords (rs : List Record) : Bytes := rs.flatMap Record.encode

@[simp] theorem encodeRecords_nil : encodeRecords [] = [] := rfl

theorem encodeRecords_cons (r : Record) (rs : List Record) :
    encodeRecords (r :: rs) = r.encode ++ encodeRecords rs := rfl

theorem encodeRecords_append (rs rs' : List Record) :
    encodeRecords (rs ++ rs') = encodeRecords rs ++ encodeRecords rs' := List.flatMap_append

@[simp] theorem Record.length_fields (r : Record) : r.fields.length = 10 := rfl

theorem Record.length_encode (r : Record) :
    r.encode.length = r.name.encode.length + 10 + r.rdata.length := by
  simp [Record.encode, Nat.add_assoc]

section InBounds
variable {packet : Bytes} {pos : ℕ}

theorem rtype_inBounds (h : pos + 10 ≤ packet.length) : pos + 2 ≤ packet.length := by omega

theorem rclass_inBounds (h : pos + 10 ≤ packet.length) : pos + 2 + 2 ≤ packet.length := by omega

theorem ttl_inBounds (h : pos + 10 ≤ packet.length) : pos + 4 + 4 ≤ packet.length := by omega

theorem rdata_inBounds (h : pos + 10 ≤ packet.length) : pos + 8 + 2 ≤ packet.length := by omega

theorem nscount_inBounds (h : ¬packet.length < 12) : 8 + 2 ≤ packet.length := by omega

theorem arcount_inBounds (h : ¬packet.length < 12) : 10 + 2 ≤ packet.length := by omega

end InBounds

/-- What the walkers read of the ten bytes. -/
structure Record.ReadAt (r : Record) (packet : Bytes) (pos : ℕ) : Prop where
  inBounds : pos + 10 ≤ packet.length
  rtype : u16At packet pos (rtype_inBounds inBounds) = r.rtype
  rclass : u16At packet (pos + 2) (rclass_inBounds inBounds) = r.rclass
  ttl : u32At packet (pos + 4) (ttl_inBounds inBounds) = r.ttl
  rdlength : (u16At packet (pos + 8) (rdata_inBounds inBounds)).toNat = r.rdata.length

theorem Record.readAt {r : Record} {packet : Bytes} {pos : ℕ} (h : HoldsAt packet pos r.fields) :
    r.ReadAt packet pos := by
  have hlen := h.length_le
  rw [r.length_fields] at hlen
  obtain ⟨htype, hclass, httl, hrdlength⟩ : _ ∧ _ ∧ _ ∧ _ := by
    simpa only [Record.fields, holdsAt_append, length_u16ToBeBytes, length_u32ToBeBytes,
      Nat.add_assoc, Nat.reduceAdd] using h
  exact
    { inBounds := hlen
      rtype := u16At_holdsAt htype _
      rclass := u16At_holdsAt hclass _
      ttl := u32At_holdsAt httl _
      rdlength := by
        rw [u16At_holdsAt hrdlength, UInt16.toNat_ofNat', Nat.mod_eq_of_lt r.rdata_lt] }

/-- A record, from the position behind its name on. -/
theorem exists_record {packet : Bytes} (name : Name) {pos : ℕ} (h : pos + 10 ≤ packet.length)
    (hdata : pos + 10 + (u16At packet (pos + 8) (rdata_inBounds h)).toNat ≤ packet.length) :
    ∃ r : Record, r.name = name ∧ HoldsAt packet pos (r.fields ++ r.rdata) := by
  obtain ⟨size, hsize⟩ : ∃ size, u16At packet (pos + 8) (by omega) = size := ⟨_, rfl⟩
  rw [hsize] at hdata
  have hlen : ((packet.drop (pos + 10)).take size.toNat).length = size.toNat := by
    rw [List.length_take, List.length_drop]
    omega
  have hlt : ((packet.drop (pos + 10)).take size.toNat).length < 65536 := by
    rw [hlen]
    exact size.toNat_lt
  obtain ⟨r, hname, htype, hclass, httl, hrdata⟩ : ∃ r : Record, r.name = name ∧
      r.rtype = u16At packet pos (by omega) ∧ r.rclass = u16At packet (pos + 2) (by omega) ∧
        r.ttl = u32At packet (pos + 4) (by omega) ∧
          r.rdata = (packet.drop (pos + 10)).take size.toNat :=
    ⟨⟨_, _, _, _, _, hlt⟩, rfl, rfl, rfl, rfl, rfl⟩
  refine ⟨r, hname, ?_⟩
  rw [holdsAt_append, Record.length_fields, hrdata]
  refine ⟨?_, holdsAt_take_drop hdata⟩
  simp only [Record.fields, holdsAt_append, length_u16ToBeBytes, length_u32ToBeBytes,
    Nat.add_assoc, Nat.reduceAdd, htype, hclass, httl, hrdata, hlen, UInt16.ofNat_toNat]
  exact ⟨holdsAt_u16At _, holdsAt_u16At _, holdsAt_u32At _, hsize ▸ holdsAt_u16At _⟩

/-- A response as far as its answers; any bytes may follow, whatever the header says of them. -/
structure Response where
  id : UInt16
  flags : UInt16
  nscount : UInt16
  arcount : UInt16
  questions : List Question
  answers : List Record
  rest : Bytes
  questions_lt : questions.length < 65536
  answers_lt : answers.length < 65536

namespace Response

def header (m : Response) : Bytes :=
  u16ToBeBytes m.id ++ (u16ToBeBytes m.flags ++
    (u16ToBeBytes (UInt16.ofNat m.questions.length) ++
      (u16ToBeBytes (UInt16.ofNat m.answers.length) ++
        (u16ToBeBytes m.nscount ++ u16ToBeBytes m.arcount))))

/-- The bytes up to the end of the question section. -/
def opening (m : Response) : Bytes := m.header ++ encodeQuestions m.questions

def encode (m : Response) : Bytes := m.opening ++ (encodeRecords m.answers ++ m.rest)

@[simp] theorem length_header (m : Response) : m.header.length = 12 := rfl

theorem length_opening (m : Response) :
    m.opening.length = 12 + (encodeQuestions m.questions).length := by
  rw [opening, List.length_append, length_header]

/-- What the walkers read of the header. -/
structure ReadBy (m : Response) (packet : Bytes) : Prop where
  inBounds : 12 ≤ packet.length
  qdcount : (u16At packet 4 (by omega)).toNat = m.questions.length
  ancount : (u16At packet 6 (by omega)).toNat = m.answers.length
  nscount : u16At packet 8 (by omega) = m.nscount
  arcount : u16At packet 10 (by omega) = m.arcount
  answers : skipQuestions packet m.questions.length 12 = some m.opening.length

theorem readBy {m : Response} {packet : Bytes} (h : HoldsAt packet 0 m.opening) :
    m.ReadBy packet := by
  have hlen := h.length_le
  rw [length_opening] at hlen
  obtain ⟨hheader, hquestions⟩ := holdsAt_append.mp h
  obtain ⟨_, _, hqd, han, hns, har⟩ : _ ∧ _ ∧ _ ∧ _ ∧ _ ∧ _ := by
    simpa only [header, holdsAt_append, length_u16ToBeBytes, Nat.zero_add, Nat.reduceAdd]
      using hheader
  exact
    { inBounds := by omega
      qdcount := by
        rw [u16At_holdsAt hqd, UInt16.toNat_ofNat', Nat.mod_eq_of_lt m.questions_lt]
      ancount := by
        rw [u16At_holdsAt han, UInt16.toNat_ofNat', Nat.mod_eq_of_lt m.answers_lt]
      nscount := u16At_holdsAt hns _
      arcount := u16At_holdsAt har _
      answers := by
        rw [length_opening]
        exact skipQuestions_holdsAt hquestions }

/-- A cut behind the question section leaves the opening. -/
theorem holdsAt_opening (m : Response) {cut : ℕ} (h : m.opening.length ≤ cut) :
    HoldsAt (m.encode.take cut) 0 m.opening := by
  refine ⟨Nat.zero_le _, ?_⟩
  rw [encode, List.take_append, List.take_of_length_le h]
  exact List.prefix_append _ _

end Response
end TransProxy.Dns.Format
