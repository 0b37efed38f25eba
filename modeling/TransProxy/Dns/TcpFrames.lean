import TransProxy.Dns.Tcp

/-!
# Messages behind their lengths

The stream of a DNS connection over TCP, cut into messages: strictly, where nothing may be
left over, and as a server reads it, up to the first message that is not there in full or
too short.
-/
namespace TransProxy.Dns.Tcp
open Library Net

def frames (messages : List Bytes) : Bytes := messages.flatMap frame

/-- A length that fits into the two bytes before the message. -/
def Framable (message : Bytes) : Prop := message.length ≤ 65535

def readFrame : Bytes → Option (Bytes × Bytes)
  | hi :: lo :: input =>
    let len := (u16FromBeBytes hi lo).toNat
    if len ≤ input.length then some (input.take len, input.drop len) else none
  | _ => none

theorem length_of_readFrame {input message rest : Bytes} (h : readFrame input = some (message, rest)) :
    rest.length < input.length := by
  match input, h with
  | hi :: lo :: input, h =>
    rw [readFrame] at h
    split_ifs at h
    obtain ⟨-, rfl⟩ := Prod.mk.inj (Option.some.inj h)
    simp only [List.length_drop, List.length_cons]
    omega

def readFrames (input : Bytes) : Option (List Bytes) :=
  match _hread : readFrame input with
  | none => if input = [] then some [] else none
  | some (message, rest) => (readFrames rest).map (message :: ·)
termination_by input.length
decreasing_by exact length_of_readFrame _hread

/-- The queries of a client's stream, before the first one that is shorter than a header. -/
def clientQueries (stream : Bytes) : List Bytes :=
  match _hread : readFrame stream with
  | none => []
  | some (query, rest) => if query.length < 12 then [] else query :: clientQueries rest
termination_by stream.length
decreasing_by exact length_of_readFrame _hread

@[simp] theorem frames_nil : frames [] = [] := rfl

@[simp] theorem frames_append (messages more : List Bytes) :
    frames (messages ++ more) = frames messages ++ frames more :=
  List.flatMap_append

@[simp] theorem frames_singleton (message : Bytes) : frames [message] = frame message := by
  simp [frames]

theorem readFrame_frame {message : Bytes} (h : Framable message) (rest : Bytes) :
    readFrame (frame message ++ rest) = some (message, rest) := by
  have hlen : (u16FromBeBytes (UInt8.ofNat ((UInt16.ofNat message.length).toNat / 256))
      (UInt8.ofNat (UInt16.ofNat message.length).toNat)).toNat = message.length := by
    rw [u16FromBeBytes_u16ToBeBytes]
    exact UInt16.toNat_ofNat_of_lt' (Nat.lt_succ_of_le h)
  simp only [frame, u16ToBeBytes, List.cons_append, List.nil_append, readFrame, hlen,
    List.length_append, Nat.le_add_right, if_true, List.take_left, List.drop_left]

/-- No length is cut to its low bytes. -/
theorem readFrames_frames {messages : List Bytes} (h : ∀ message ∈ messages, Framable message) :
    readFrames (frames messages) = some messages := by
  induction messages with
  | nil =>
    rw [readFrames]
    rfl
  | cons message messages ih =>
    obtain ⟨hmessage, hrest⟩ := List.forall_mem_cons.mp h
    have hread : readFrame (frames (message :: messages)) = some (message, frames messages) :=
      readFrame_frame hmessage _
    rw [readFrames]
    split
    · next hnone =>
      rw [hread] at hnone
      cases hnone
    · next hsome =>
      rw [hread] at hsome
      obtain ⟨rfl, rfl⟩ := Prod.mk.inj (Option.some.inj hsome)
      rw [ih hrest]
      rfl

theorem clientQueries_frame {query : Bytes} (h : Framable query) (hlen : 12 ≤ query.length)
    (rest : Bytes) : clientQueries (frame query ++ rest) = query :: clientQueries rest := by
  have hread := readFrame_frame h rest
  rw [clientQueries]
  split
  · next hnone =>
    rw [hread] at hnone
    cases hnone
  · next hsome =>
    rw [hread] at hsome
    obtain ⟨rfl, rfl⟩ := Prod.mk.inj (Option.some.inj hsome)
    rw [if_neg (Nat.not_lt_of_le hlen)]

theorem clientQueries_frames {queries : List Bytes}
    (h : ∀ query ∈ queries, Framable query ∧ 12 ≤ query.length) (rest : Bytes) :
    clientQueries (frames queries ++ rest) = queries ++ clientQueries rest := by
  induction queries with
  | nil => rfl
  | cons query queries ih =>
    obtain ⟨⟨hframable, hlen⟩, hrest⟩ := List.forall_mem_cons.mp h
    have hsplit : frames (query :: queries) ++ rest = frame query ++ (frames queries ++ rest) := by
      simp [frames, List.append_assoc]
    rw [hsplit, clientQueries_frame hframable hlen, ih hrest]
    rfl

theorem clientQueries_of_readFrame_none {stream : Bytes} (h : readFrame stream = none) :
    clientQueries stream = [] := by
  rw [clientQueries]
  split
  · rfl
  · next hsome =>
    rw [h] at hsome
    cases hsome

/-- A length below that of a header ends the queries. -/
theorem clientQueries_short {hi lo : UInt8} (h : (u16FromBeBytes hi lo).toNat < 12) (rest : Bytes) :
    clientQueries (hi :: lo :: rest) = [] := by
  rw [clientQueries]
  split
  · rfl
  · next hsome =>
    rw [readFrame] at hsome
    split_ifs at hsome
    obtain ⟨rfl, -⟩ := Prod.mk.inj (Option.some.inj hsome)
    rw [if_pos (Nat.lt_of_le_of_lt (List.length_take_le _ _) h)]

end TransProxy.Dns.Tcp
