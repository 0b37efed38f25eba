import TransProxy.Dns.TcpFrames
import TransProxy.Library.Dialogue
import TransProxy.Net.AddrText

/-!
# Forwarding a query of the TCP listener

A connection of its own to the upstream server, or a request of the HTTP client, which is
outside of the program.
-/
namespace TransProxy.Dns.Tcp
open Library Net Dialogue

inductive TcpDnsUpstream where
  | tcp (addr : SocketAddr)
  | doh (url : String)

structure HttpRequest where
  url : String
  headers : List (String × String)
  body : Bytes

structure HttpResponse where
  success : Bool
  /-- As it is displayed. -/
  status : String
  /-- Unless reading it fails. -/
  body : Option Bytes

def dohRequest (url : String) (query : Bytes) : HttpRequest :=
  { url
    headers := [("Content-Type", "application/dns-message"), ("Accept", "application/dns-message")]
    body := query }

def dohQuery (client : HttpRequest → Option HttpResponse) (url : String) (query : Bytes) :
    Except String Bytes :=
  match client (dohRequest url query) with
  | none => .error "DoH request failed"
  | some response =>
    if !response.success then .error ("DoH server returned status " ++ response.status)
    else
      match response.body with
      | none => .error "Failed to read DoH response body"
      | some bytes => .ok bytes

inductive ForwardOp where
  | connect (addr : SocketAddr)
  | queryLength
  | query
  | responseLength
  | response
deriving DecidableEq

def ForwardOp.error : ForwardOp → String
  | .connect addr => "failed to connect to upstream DNS " ++ addr.display ++ " over TCP"
  | .queryLength => "failed to send query length upstream"
  | .query => "failed to send query upstream"
  | .responseLength => "failed to read upstream response length"
  | .response => "failed to read upstream response body"

/-- The time is up for all operations together, which leaves no error. -/
def forwardError (op : ForwardOp) : Fault → Option String
  | .failed => some op.error
  | .timedOut => none

def forwardTcpDnsQuery (client : HttpRequest → Option HttpResponse) :
    TcpDnsUpstream → Bytes → Dialogue ForwardOp (Option String) Bytes
  | .tcp addr, query => do
    sendAll (.connect addr) []
    sendAll .queryLength (u16ToBeBytes (UInt16.ofNat query.length))
    sendAll .query query
    let lenBuf ← readExact .responseLength 2
    let len := u16FromBeBytes (lenBuf.get ⟨0, Nat.zero_lt_two⟩) (lenBuf.get ⟨1, Nat.one_lt_two⟩)
    let response ← readExact .response len.toNat
    pure response.toList
  | .doh url, query =>
    match dohQuery client url query with
    | .error e => .fail (some e)
    | .ok response => .done response

def transmitted : List (Event ForwardOp) → Bytes
  | [] => []
  | .sent _ data :: trace => data ++ transmitted trace
  | .got _ _ :: trace => transmitted trace

variable {client : HttpRequest → Option HttpResponse}

@[simp] theorem transmitted_cons_sent (op : ForwardOp) (data : Bytes) (trace : List (Event ForwardOp)) :
    transmitted (.sent op data :: trace) = data ++ transmitted trace := rfl

def readResponse : Dialogue ForwardOp (Option String) Bytes := do
  let lenBuf ← readExact .responseLength 2
  let len := u16FromBeBytes (lenBuf.get ⟨0, Nat.zero_lt_two⟩) (lenBuf.get ⟨1, Nat.one_lt_two⟩)
  let response ← readExact .response len.toNat
  pure response.toList

theorem forwardTcpDnsQuery_tcp (addr : SocketAddr) (query : Bytes) :
    forwardTcpDnsQuery client (.tcp addr) query =
      .send (.connect addr) [] (.send .queryLength (u16ToBeBytes (UInt16.ofNat query.length))
        (.send .query query readResponse)) := rfl

theorem readResponse_eq : readResponse =
    .recvExact .responseLength 2 (fun lenBuf => .recvExact .response
      (u16FromBeBytes (lenBuf.get ⟨0, Nat.zero_lt_two⟩) (lenBuf.get ⟨1, Nat.one_lt_two⟩)).toNat
      (fun response => .done response.toList)) :=
  rfl

theorem transmitted_readResponse (net : Network) (i : ℕ) (stream : Bytes) :
    transmitted (readResponse.run forwardError net i stream).trace = [] := by
  rw [readResponse_eq, run]
  cases net.fault i with
  | some fault => rfl
  | none =>
    by_cases hlen : 2 ≤ stream.length
    · simp only [hlen, dif_pos, run]
      cases net.fault (i + 1) with
      | some fault => rfl
      | none =>
        simp only [Outcome.cons]
        split_ifs <;> rfl
    · simp only [hlen, dif_neg, not_false_eq_true]
      rfl

theorem result_readResponse_iff {net : Network} {i : ℕ} {stream response : Bytes} :
    (readResponse.run forwardError net i stream).result = .ok response ↔
      net.fault i = none ∧ net.fault (i + 1) = none ∧
        ∃ rest, readFrame stream = some (response, rest) := by
  rw [readResponse_eq, run]
  cases hfault : net.fault i with
  | some fault => simp
  | none =>
    rcases stream with _ | ⟨hi, _ | ⟨lo, input⟩⟩
    · simp [readFrame]
    · simp [readFrame]
    · have hheader : 2 ≤ (hi :: lo :: input).length := Nat.le_add_left 2 input.length
      simp only [hheader, dif_pos, run, Outcome.cons, true_and]
      cases hfault' : net.fault (i + 1) with
      | some fault => simp
      | none =>
        simp only [true_and]
        split_ifs with hlen
        · have hle : (u16FromBeBytes hi lo).toNat ≤ input.length := hlen
          rw [readFrame, if_pos hle]
          constructor
          · intro h
            have hresponse : input.take (u16FromBeBytes hi lo).toNat = response := Except.ok.inj h
            exact ⟨_, by rw [hresponse]⟩
          · rintro ⟨rest, h⟩
            obtain ⟨rfl, -⟩ := Prod.mk.inj (Option.some.inj h)
            rfl
        · have hle : ¬(u16FromBeBytes hi lo).toNat ≤ input.length := hlen
          simp [readFrame, if_neg hle]

/-- What is sent to the upstream server is the query behind its length, as far as it gets, and
it gets there if none of the sends fails. -/
theorem transmitted_forward (addr : SocketAddr) (query : Bytes) (net : Network) (stream : Bytes) :
    transmitted
        ((forwardTcpDnsQuery client (.tcp addr) query).run forwardError net 0 stream).trace <+:
        frame query ∧
      (.sent .query query ∈
          ((forwardTcpDnsQuery client (.tcp addr) query).run forwardError net 0 stream).trace ∨
          (∀ i < 3, net.fault i = none) →
        transmitted
            ((forwardTcpDnsQuery client (.tcp addr) query).run forwardError net 0 stream).trace =
          frame query) := by
  rw [forwardTcpDnsQuery_tcp, run]
  cases hconnect : net.fault 0 with
  | some fault =>
    have hfault : ¬∀ i < 3, net.fault i = none := fun h => by simp [h 0 (by decide)] at hconnect
    simp [transmitted, hfault]
  | none =>
    simp only [run]
    cases hlength : net.fault 1 with
    | some fault =>
      have hfault : ¬∀ i < 3, net.fault i = none := fun h => by simp [h 1 (by decide)] at hlength
      simp [transmitted, Outcome.cons, frame, hfault]
    | none =>
      simp only
      cases net.fault 2 with
      | some fault => simp [transmitted, Outcome.cons, frame]
      | none => simp [transmitted_readResponse, Outcome.cons, frame]

/-- The response is the first message that the server sends, if no operation fails. -/
theorem result_forward_iff {addr : SocketAddr} {query response : Bytes} {net : Network}
    {stream : Bytes} :
    ((forwardTcpDnsQuery client (.tcp addr) query).run forwardError net 0 stream).result =
        .ok response ↔
      (∀ i < 5, net.fault i = none) ∧ ∃ rest, readFrame stream = some (response, rest) := by
  have hfaults : (∀ i < 5, net.fault i = none) ↔ net.fault 0 = none ∧ net.fault 1 = none ∧
      net.fault 2 = none ∧ net.fault 3 = none ∧ net.fault 4 = none := by
    simp only [Nat.forall_lt_succ_right, Nat.not_lt_zero, IsEmpty.forall_iff, implies_true,
      true_and, and_assoc]
  rw [forwardTcpDnsQuery_tcp, run, hfaults]
  cases net.fault 0 with
  | some fault => simp
  | none =>
    simp only [run, Outcome.cons]
    cases net.fault 1 with
    | some fault => simp
    | none =>
      simp only
      cases net.fault 2 with
      | some fault => simp
      | none => simp [result_readResponse_iff, and_assoc]

/-- The query is the body of the one request, and the response the body of its answer. -/
theorem result_forward_doh_iff {url : String} {query response : Bytes} {net : Network} {i : ℕ}
    {stream : Bytes} :
    ((forwardTcpDnsQuery client (.doh url) query).run forwardError net i stream).result =
        .ok response ↔
      ∃ answer, client (dohRequest url query) = some answer ∧ answer.success = true ∧
        answer.body = some response := by
  rw [forwardTcpDnsQuery, dohQuery]
  cases client (dohRequest url query) with
  | none => simp [run]
  | some answer =>
    cases hsuccess : answer.success <;> cases hbody : answer.body <;> simp [run, hsuccess, hbody]

end TransProxy.Dns.Tcp
