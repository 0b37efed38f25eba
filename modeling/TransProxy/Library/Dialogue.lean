import TransProxy.Library.Bytes

/-!
# Dialogues with a peer over a byte stream

A dialogue is the tree of the sends and receives of a program. It is run against
the bytes the peer will ever send, a network that decides how many of them each
receive is given, and faults that may strike any operation. `Plays` relates a
dialogue to everything that can be observed of it, whatever the peer does.
-/
namespace TransProxy.Library

/-- What can keep an operation from being completed. -/
inductive Fault where
  | timedOut
  | failed
deriving DecidableEq

/-- A program whose operations carry tags from `τ`, with errors in `ε`. -/
inductive Dialogue (τ ε α : Type) where
  | done (a : α)
  | fail (e : ε)
  | send (tag : τ) (data : Bytes) (next : Dialogue τ ε α)
  /-- Receive `n` bytes, no less. -/
  | recvExact (tag : τ) (n : ℕ) (next : Vector UInt8 n → Dialogue τ ε α)
  /-- Receive some bytes, `max` of them or less; none at the end of the stream. -/
  | recv (tag : τ) (max : ℕ) (next : Bytes → Dialogue τ ε α)

/-- What the peer can see of an operation. -/
inductive Event (τ : Type) where
  | sent (tag : τ) (data : Bytes)
  | got (tag : τ) (data : Bytes)
deriving DecidableEq

namespace Dialogue
variable {τ ε α β : Type}

def bind : Dialogue τ ε α → (α → Dialogue τ ε β) → Dialogue τ ε β
  | done a, f => f a
  | fail e, _ => fail e
  | send tag data next, f => send tag data (next.bind f)
  | recvExact tag n next, f => recvExact tag n (fun data => (next data).bind f)
  | recv tag max next, f => recv tag max (fun data => (next data).bind f)

instance : Monad (Dialogue τ ε) where
  pure := done
  bind := bind

def sendAll (tag : τ) (data : Bytes) : Dialogue τ ε Unit := send tag data (done ())

def readExact (tag : τ) (n : ℕ) : Dialogue τ ε (Vector UInt8 n) := recvExact tag n done

@[simp] theorem pure_eq (a : α) : (pure a : Dialogue τ ε α) = done a := rfl

@[simp] theorem bind_eq (d : Dialogue τ ε α) (f : α → Dialogue τ ε β) : d >>= f = d.bind f := rfl

@[simp] theorem done_bind (a : α) (f : α → Dialogue τ ε β) : (done a).bind f = f a := rfl

theorem bind_assoc {γ : Type} (d : Dialogue τ ε α) (f : α → Dialogue τ ε β)
    (g : β → Dialogue τ ε γ) : (d.bind f).bind g = d.bind fun a => (f a).bind g := by
  induction d with
  | done a => rfl
  | fail e => rfl
  | send tag data next ih => simp [bind, ih]
  | recvExact tag n next ih => simp [bind, ih]
  | recv tag max next ih => simp [bind, ih]

/-- How the network treats the operations, by their number: how many bytes beyond the
first a receive is given at most, and whether the operation is struck by a fault. -/
structure Network where
  split : ℕ → ℕ
  fault : ℕ → Option Fault

def Network.clean (split : ℕ → ℕ) : Network := { split, fault := fun _ => none }

structure Outcome (τ ε α : Type) where
  trace : List (Event τ)
  unread : Bytes
  result : Except ε α

/-- Put an event in front. -/
def Outcome.cons (event : Event τ) (o : Outcome τ ε α) : Outcome τ ε α :=
  { o with trace := event :: o.trace }

/-- The first `n` bytes of a byte string that has them. -/
def firstBytes (data : Bytes) (n : ℕ) (h : n ≤ data.length) : Vector UInt8 n :=
  ⟨(data.take n).toArray, List.length_take_of_le h⟩

@[simp] theorem toList_firstBytes (data : Bytes) (n : ℕ) (h : n ≤ data.length) :
    (firstBytes data n h).toList = data.take n := rfl

/-- Run a dialogue whose next operation has number `i` against the bytes `unread`. -/
def run (ioError : τ → Fault → ε) (net : Network) : Dialogue τ ε α → ℕ → Bytes → Outcome τ ε α
  | done a, _, unread => { trace := [], unread, result := .ok a }
  | fail e, _, unread => { trace := [], unread, result := .error e }
  | send tag data next, i, unread =>
    match net.fault i with
    | some fault =>
      { trace := [.sent tag data], unread, result := .error (ioError tag fault) }
    | none => (run ioError net next (i + 1) unread).cons (.sent tag data)
  | recvExact tag n next, i, unread =>
    match net.fault i with
    | some fault => { trace := [], unread, result := .error (ioError tag fault) }
    | none =>
      if h : n ≤ unread.length then
        (run ioError net (next (firstBytes unread n h)) (i + 1) (unread.drop n)).cons
          (.got tag (unread.take n))
      else { trace := [.got tag unread], unread := [], result := .error (ioError tag .failed) }
  | recv tag max next, i, unread =>
    match net.fault i with
    | some fault => { trace := [], unread, result := .error (ioError tag fault) }
    | none =>
      let n := min (min max (net.split i + 1)) unread.length
      (run ioError net (next (unread.take n)) (i + 1) (unread.drop n)).cons
        (.got tag (unread.take n))

def received : List (Event τ) → Bytes
  | [] => []
  | .sent _ _ :: trace => received trace
  | .got _ data :: trace => data ++ received trace

/-- Nothing is lost or read twice: what was received, then what is unread, is the stream. -/
theorem received_run (ioError : τ → Fault → ε) (net : Network) (d : Dialogue τ ε α) (i : ℕ)
    (stream : Bytes) :
    received (d.run ioError net i stream).trace ++ (d.run ioError net i stream).unread =
      stream := by
  induction d generalizing i stream with
  | done a => rfl
  | fail e => rfl
  | send tag data next ih =>
    rw [run]
    cases net.fault i with
    | some fault => rfl
    | none => exact ih (i + 1) stream
  | recvExact tag n next ih =>
    rw [run]
    cases net.fault i with
    | some fault => rfl
    | none =>
      by_cases hlen : n ≤ stream.length
      · simp only [hlen, dif_pos, Outcome.cons, received, List.append_assoc,
          ih _ (i + 1) (stream.drop n), List.take_append_drop]
      · simp [hlen, received]
  | recv tag max next ih =>
    rw [run]
    cases net.fault i with
    | some fault => rfl
    | none =>
      simp only [Outcome.cons, received, List.append_assoc, ih, List.take_append_drop]

@[simp] theorem received_append (trace more : List (Event τ)) :
    received (trace ++ more) = received trace ++ received more := by
  induction trace with
  | nil => rfl
  | cons event trace ih =>
    cases event with
    | sent tag data => exact ih
    | got tag data => simp [received, ih]

def sentBytes : List (Event τ) → Bytes
  | [] => []
  | .sent _ data :: trace => data ++ sentBytes trace
  | .got _ _ :: trace => sentBytes trace

@[simp] theorem sentBytes_append (trace more : List (Event τ)) :
    sentBytes (trace ++ more) = sentBytes trace ++ sentBytes more := by
  induction trace with
  | nil => rfl
  | cons event trace ih =>
    cases event with
    | sent tag data => simp [sentBytes, ih]
    | got tag data => exact ih

/-- A run with a result was struck by no fault. -/
theorem run_eq_clean {ioError : τ → Fault → ε} {net : Network} {d : Dialogue τ ε α} {i : ℕ}
    {stream : Bytes} {a : α} (h : (d.run ioError net i stream).result = .ok a) :
    d.run ioError net i stream = d.run ioError (.clean net.split) i stream := by
  induction d generalizing i stream with
  | done a => rfl
  | fail e => rfl
  | send tag data next ih =>
    rw [run] at h ⊢
    cases hfault : net.fault i with
    | some fault => simp [hfault] at h
    | none =>
      simp only [hfault] at h ⊢
      rw [ih h, run]
      rfl
  | recvExact tag n next ih =>
    rw [run] at h ⊢
    cases hfault : net.fault i with
    | some fault => simp [hfault] at h
    | none =>
      simp only [hfault] at h ⊢
      by_cases hlen : n ≤ stream.length
      · simp only [hlen, dif_pos] at h ⊢
        rw [ih _ h, run]
        simp [Network.clean, hlen]
      · simp [hlen] at h
  | recv tag max next ih =>
    rw [run] at h ⊢
    cases hfault : net.fault i with
    | some fault => simp [hfault] at h
    | none =>
      simp only [hfault] at h ⊢
      rw [ih _ h, run]
      rfl

/-- The traces and results of a dialogue, whatever the stream, the network and the
faults. -/
inductive Plays : Dialogue τ ε α → List (Event τ) → Except ε α → Prop
  | done (a : α) : Plays (done a) [] (.ok a)
  | fail (e : ε) : Plays (fail e) [] (.error e)
  | send {tag : τ} {data : Bytes} {next : Dialogue τ ε α} {trace : List (Event τ)}
      {result : Except ε α} (h : Plays next trace result) :
      Plays (send tag data next) (.sent tag data :: trace) result
  | sendFault {tag : τ} {data : Bytes} {next : Dialogue τ ε α} (e : ε) :
      Plays (send tag data next) [.sent tag data] (.error e)
  | recvExact {tag : τ} {n : ℕ} {next : Vector UInt8 n → Dialogue τ ε α} {data : Vector UInt8 n}
      {trace : List (Event τ)} {result : Except ε α} (h : Plays (next data) trace result) :
      Plays (recvExact tag n next) (.got tag data.toList :: trace) result
  | recvExactFault {tag : τ} {n : ℕ} {next : Vector UInt8 n → Dialogue τ ε α} (e : ε) :
      Plays (recvExact tag n next) [] (.error e)
  | recvExactEof {tag : τ} {n : ℕ} {next : Vector UInt8 n → Dialogue τ ε α} {data : Bytes} (e : ε)
      (hlen : data.length < n) : Plays (recvExact tag n next) [.got tag data] (.error e)
  | recv {tag : τ} {max : ℕ} {next : Bytes → Dialogue τ ε α} {data : Bytes}
      {trace : List (Event τ)} {result : Except ε α} (hlen : data.length ≤ max)
      (h : Plays (next data) trace result) :
      Plays (recv tag max next) (.got tag data :: trace) result
  | recvFault {tag : τ} {max : ℕ} {next : Bytes → Dialogue τ ε α} (e : ε) :
      Plays (recv tag max next) [] (.error e)

/-- Every run is among the observations. -/
theorem plays_run (ioError : τ → Fault → ε) (net : Network) (d : Dialogue τ ε α) (i : ℕ)
    (stream : Bytes) :
    Plays d (d.run ioError net i stream).trace (d.run ioError net i stream).result := by
  induction d generalizing i stream with
  | done a => exact .done a
  | fail e => exact .fail e
  | send tag data next ih =>
    rw [run]
    cases net.fault i with
    | some fault => exact .sendFault _
    | none => exact .send (ih (i + 1) stream)
  | recvExact tag n next ih =>
    rw [run]
    cases net.fault i with
    | some fault => exact .recvExactFault _
    | none =>
      by_cases hlen : n ≤ stream.length
      · simp only [hlen, dif_pos]
        rw [← toList_firstBytes stream n hlen]
        exact .recvExact (ih _ (i + 1) _)
      · simpa only [hlen, dif_neg, not_false_eq_true] using
          .recvExactEof _ (Nat.lt_of_not_le hlen)
  | recv tag max next ih =>
    rw [run]
    cases net.fault i with
    | some fault => exact .recvFault _
    | none =>
      have hlen : (stream.take (min (min max (net.split i + 1)) stream.length)).length ≤ max := by
        rw [List.length_take]
        omega
      exact .recv hlen (ih _ (i + 1) _)

/-- A composed dialogue plays its parts one after the other, the second one only when
the first one has a result. -/
theorem plays_bind {d : Dialogue τ ε α} {f : α → Dialogue τ ε β} {trace : List (Event τ)}
    {result : Except ε β} (h : Plays (d.bind f) trace result) :
    (∃ first a second, Plays d first (.ok a) ∧ Plays (f a) second result ∧
      trace = first ++ second) ∨ ∃ e, Plays d trace (.error e) ∧ result = .error e := by
  induction d generalizing trace with
  | done a => exact .inl ⟨[], a, trace, .done a, h, rfl⟩
  | fail e =>
    cases h with
    | fail e => exact .inr ⟨e, .fail e, rfl⟩
  | send tag data next ih =>
    cases h with
    | send h =>
      rcases ih h with ⟨first, a, second, h1, h2, rfl⟩ | ⟨e, h1, h2⟩
      · exact .inl ⟨_, a, second, .send h1, h2, rfl⟩
      · exact .inr ⟨e, .send h1, h2⟩
    | sendFault e => exact .inr ⟨e, .sendFault e, rfl⟩
  | recvExact tag n next ih =>
    cases h with
    | recvExact h =>
      rcases ih _ h with ⟨first, a, second, h1, h2, rfl⟩ | ⟨e, h1, h2⟩
      · exact .inl ⟨_, a, second, .recvExact h1, h2, rfl⟩
      · exact .inr ⟨e, .recvExact h1, h2⟩
    | recvExactFault e => exact .inr ⟨e, .recvExactFault e, rfl⟩
    | recvExactEof e hlen => exact .inr ⟨e, .recvExactEof e hlen, rfl⟩
  | recv tag max next ih =>
    cases h with
    | recv hlen h =>
      rcases ih _ h with ⟨first, a, second, h1, h2, rfl⟩ | ⟨e, h1, h2⟩
      · exact .inl ⟨_, a, second, .recv hlen h1, h2, rfl⟩
      · exact .inr ⟨e, .recv hlen h1, h2⟩
    | recvFault e => exact .inr ⟨e, .recvFault e, rfl⟩

/-- Each event of the trace meets the condition, given all that came before it. -/
def Guarded (P : List (Event τ) → Event τ → Prop) : List (Event τ) → List (Event τ) → Prop
  | _, [] => True
  | past, event :: trace => P past event ∧ Guarded P (past ++ [event]) trace

variable {P : List (Event τ) → Event τ → Prop} {past trace more : List (Event τ)}

@[simp] theorem guarded_nil : Guarded P past [] := trivial

@[simp] theorem guarded_cons {event : Event τ} :
    Guarded P past (event :: trace) ↔ P past event ∧ Guarded P (past ++ [event]) trace := Iff.rfl

theorem guarded_append :
    Guarded P past (trace ++ more) ↔ Guarded P past trace ∧ Guarded P (past ++ trace) more := by
  induction trace generalizing past with
  | nil => simp
  | cons event trace ih => simp [ih, and_assoc]

theorem guarded_iff : Guarded P past trace ↔
    ∀ before event after, trace = before ++ event :: after → P (past ++ before) event := by
  induction trace generalizing past with
  | nil => simp
  | cons event trace ih =>
    rw [guarded_cons, ih]
    constructor
    · rintro ⟨hhead, htail⟩ before event' after heq
      cases before with
      | nil =>
        obtain ⟨rfl, -⟩ := List.cons.inj heq
        simpa using hhead
      | cons e before =>
        obtain ⟨rfl, hrest⟩ := List.cons.inj heq
        simpa using htail before event' after hrest
    · intro h
      refine ⟨by simpa using h [] event trace rfl, fun before event' after heq => ?_⟩
      simpa using h (event :: before) event' after (by rw [heq]; rfl)

/-- From a trace so far, the dialogue keeps to the guard whatever happens, and where it
has a result the postcondition holds of the trace up to there. -/
def Triple (P : List (Event τ) → Event τ → Prop) (past : List (Event τ)) (d : Dialogue τ ε α)
    (Q : List (Event τ) → α → Prop) : Prop :=
  ∀ trace result, Plays d trace result →
    Guarded P past trace ∧ ∀ a, result = .ok a → Q (past ++ trace) a

variable {Q : List (Event τ) → α → Prop} {tag : τ}

theorem triple_done {a : α} (h : Q past a) : Triple (ε := ε) P past (done a) Q := by
  intro trace result hplays
  cases hplays
  refine ⟨guarded_nil, fun b hb => ?_⟩
  cases hb
  simpa using h

theorem triple_fail (e : ε) : Triple P past (fail e) Q := by
  intro trace result hplays
  cases hplays
  exact ⟨guarded_nil, by simp⟩

theorem triple_send {data : Bytes} {next : Dialogue τ ε α} (hguard : P past (.sent tag data))
    (h : Triple P (past ++ [.sent tag data]) next Q) : Triple P past (send tag data next) Q := by
  intro trace result hplays
  cases hplays with
  | send hplays =>
    obtain ⟨hguarded, hok⟩ := h _ _ hplays
    exact ⟨⟨hguard, hguarded⟩, by simpa using hok⟩
  | sendFault e => exact ⟨⟨hguard, guarded_nil⟩, by simp⟩

/-- The guard has to allow a part of the data too, at the end of the stream. -/
theorem triple_recvExact {n : ℕ} {next : Vector UInt8 n → Dialogue τ ε α}
    (hguard : ∀ data, P past (.got tag data))
    (h : ∀ data, Triple P (past ++ [.got tag data.toList]) (next data) Q) :
    Triple P past (recvExact tag n next) Q := by
  intro trace result hplays
  cases hplays with
  | @recvExact _ _ _ data _ _ hplays =>
    obtain ⟨hguarded, hok⟩ := h data _ _ hplays
    exact ⟨⟨hguard _, hguarded⟩, by simpa using hok⟩
  | recvExactFault e => exact ⟨guarded_nil, by simp⟩
  | recvExactEof e hlen => exact ⟨⟨hguard _, guarded_nil⟩, by simp⟩

theorem triple_recv {max : ℕ} {next : Bytes → Dialogue τ ε α} (hguard : ∀ data, P past (.got tag data))
    (h : ∀ data, data.length ≤ max → Triple P (past ++ [.got tag data]) (next data) Q) :
    Triple P past (recv tag max next) Q := by
  intro trace result hplays
  cases hplays with
  | recv hlen hplays =>
    obtain ⟨hguarded, hok⟩ := h _ hlen _ _ hplays
    exact ⟨⟨hguard _, hguarded⟩, by simpa using hok⟩
  | recvFault e => exact ⟨guarded_nil, by simp⟩

theorem triple_mono {d : Dialogue τ ε α} {R : List (Event τ) → α → Prop} (hd : Triple P past d R)
    (himp : ∀ trace a, R trace a → Q trace a) : Triple P past d Q := by
  intro trace result hplays
  obtain ⟨hguarded, hok⟩ := hd trace result hplays
  exact ⟨hguarded, fun a ha => himp _ _ (hok a ha)⟩

/-- In sequence, the postcondition of the first is what the second starts from. -/
theorem triple_bind {d : Dialogue τ ε β} {f : β → Dialogue τ ε α}
    {R : List (Event τ) → β → Prop} (hd : Triple P past d R)
    (hf : ∀ mid b, R mid b → Triple P mid (f b) Q) : Triple P past (d.bind f) Q := by
  intro trace result hplays
  rcases plays_bind hplays with ⟨first, b, second, h1, h2, rfl⟩ | ⟨e, h1, rfl⟩
  · obtain ⟨hfirst, hmid⟩ := hd _ _ h1
    obtain ⟨hsecond, hok⟩ := hf _ b (hmid b rfl) _ _ h2
    refine ⟨guarded_append.mpr ⟨hfirst, hsecond⟩, fun a ha => ?_⟩
    rw [← List.append_assoc]
    exact hok a ha
  · exact ⟨(hd _ _ h1).1, by simp⟩

end Dialogue
end TransProxy.Library
