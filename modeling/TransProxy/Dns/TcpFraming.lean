import TransProxy.Dns.TcpFrames
import TransProxy.Library.Transition

/-!
# What a client is answered over TCP

The replies that a connection owes to the queries of its stream, and the invariant that
relates them to what it has written.
-/
namespace TransProxy.Dns.Tcp
open Library Net

variable {stripAaaa : Bool}

def Stripped (stripAaaa : Bool) (query : Bytes) : Prop :=
  stripAaaa = true ∧ parseQueryType query = some dnsTypeAaaa

instance (stripAaaa : Bool) (query : Bytes) : Decidable (Stripped stripAaaa query) :=
  inferInstanceAs (Decidable (_ ∧ _))

def Acceptable (response : Bytes) : Prop := 12 ≤ response.length ∧ Framable response

instance (response : Bytes) : Decidable (Acceptable response) :=
  inferInstanceAs (Decidable (12 ≤ response.length ∧ response.length ≤ 65535))

/-- The replies to the queries, given what the upstream made of those that it was asked,
up to the first of them that fails. -/
def replies (stripAaaa : Bool) : List Bytes → List (Option Bytes) → List Bytes
  | [], _ => []
  | query :: queries, outcomes =>
    if Stripped stripAaaa query then
      (buildNodata query).toList ++ replies stripAaaa queries outcomes
    else
      match outcomes with
      | some response :: outcomes =>
        if Acceptable response then response :: replies stripAaaa queries outcomes else []
      | _ => []

def Served (stripAaaa : Bool) (queries : List Bytes) (outcomes : List (Option Bytes)) : Prop :=
  ∀ more outcomes', replies stripAaaa (queries ++ more) (outcomes ++ outcomes') =
    replies stripAaaa queries outcomes ++ replies stripAaaa more outcomes'

section Served
variable {queries : List Bytes} {outcomes : List (Option Bytes)} {query response : Bytes}

theorem served_nil : Served stripAaaa [] [] := fun _ _ => rfl

theorem Served.replies_snoc (h : Served stripAaaa queries outcomes) (query : Bytes)
    (outcomes' : List (Option Bytes)) :
    replies stripAaaa (queries ++ [query]) (outcomes ++ outcomes') =
      replies stripAaaa queries outcomes ++ replies stripAaaa [query] outcomes' :=
  h [query] outcomes'

theorem Served.snoc (h : Served stripAaaa queries outcomes) {outcomes' : List (Option Bytes)}
    (hquery : Served stripAaaa [query] outcomes') :
    Served stripAaaa (queries ++ [query]) (outcomes ++ outcomes') := by
  intro more more'
  rw [List.append_assoc, List.append_assoc, h, hquery, h.replies_snoc, List.append_assoc]

theorem replies_stripped (h : Stripped stripAaaa query) :
    replies stripAaaa [query] [] = (buildNodata query).toList := by
  simp [replies, h]

theorem replies_answered (hstrip : ¬ Stripped stripAaaa query) (hresponse : Acceptable response) :
    replies stripAaaa [query] [some response] = [response] := by
  simp [replies, hstrip, hresponse]

theorem served_stripped (h : Stripped stripAaaa query) : Served stripAaaa [query] [] := by
  intro more outcomes'
  simp [replies, h]

theorem served_answered (hstrip : ¬ Stripped stripAaaa query) (hresponse : Acceptable response) :
    Served stripAaaa [query] [some response] := by
  intro more outcomes'
  simp [replies, hstrip, hresponse]

/-- Nothing is replied to a query that waits or has failed, nor to any after it. -/
def Ends (stripAaaa : Bool) (queries : List Bytes) (outcomes : List (Option Bytes)) : Prop :=
  ∀ more, replies stripAaaa (queries ++ more) outcomes = replies stripAaaa queries outcomes

theorem Served.ends (h : Served stripAaaa queries outcomes) (hstrip : ¬ Stripped stripAaaa query)
    {outcomes' : List (Option Bytes)}
    (hnone : ∀ response rest, outcomes' = some response :: rest → ¬ Acceptable response) :
    replies stripAaaa (queries ++ [query]) (outcomes ++ outcomes') = replies stripAaaa queries outcomes ∧
      Ends stripAaaa (queries ++ [query]) (outcomes ++ outcomes') := by
  have hnothing : ∀ more, replies stripAaaa (query :: more) outcomes' = [] := by
    intro more
    match outcomes', hnone with
    | [], _ => simp [replies, hstrip]
    | none :: _, _ => simp [replies, hstrip]
    | some response :: rest, hnone => simp [replies, hstrip, hnone response rest rfl]
  refine ⟨by rw [h.replies_snoc, hnothing, List.append_nil], fun more => ?_⟩
  rw [List.append_assoc, List.singleton_append, h, hnothing, h.replies_snoc, hnothing]

end Served

/-- An answer without records is no longer than the query. -/
theorem framable_of_buildEmptyResponse {query resp : Bytes} {rcode : UInt8}
    (h : buildEmptyResponse query rcode = some resp) (hquery : Framable query) : Framable resp := by
  unfold buildEmptyResponse at h
  split_ifs at h with hlen
  cases hquestions : skipQuestions query (u16At query 4 (qdcount_inBounds hlen)).toNat 12 with
  | none => simp [hquestions] at h
  | some pos =>
    simp only [hquestions, Option.some.injEq] at h
    subst h
    rw [Framable] at hquery ⊢
    simp only [List.length_append, List.length_take, List.length_set, List.length_replicate, slice,
      List.length_drop]
    omega

theorem framable_replies {queries : List Bytes} (h : ∀ query ∈ queries, Framable query)
    (outcomes : List (Option Bytes)) :
    ∀ reply ∈ replies stripAaaa queries outcomes, Framable reply := by
  induction queries generalizing outcomes with
  | nil => simp [replies]
  | cons query queries ih =>
    obtain ⟨hquery, hrest⟩ := List.forall_mem_cons.mp h
    by_cases hstrip : Stripped stripAaaa query
    · intro reply hreply
      simp only [replies, hstrip, if_true, List.mem_append, Option.mem_toList] at hreply
      rcases hreply with hnodata | hmore
      · exact framable_of_buildEmptyResponse hnodata hquery
      · exact ih hrest outcomes reply hmore
    · match outcomes with
      | [] => simp [replies, hstrip]
      | none :: _ => simp [replies, hstrip]
      | some response :: outcomes =>
        by_cases hresponse : Acceptable response
        · simpa [replies, hstrip, hresponse] using ⟨hresponse.2, ih hrest outcomes⟩
        · simp [replies, hstrip, hresponse]

/-- One connection among others: the table is what it finds in it. -/
def system (stripAaaa : Bool) : System Connection (Action × DnsTable) where
  init := start
  step c act := (step stripAaaa act.2 c act.1).map Prod.fst

def Action.arrived : Action → Bytes
  | .arrive data => data
  | _ => []

def Action.outcome : Action → Option (Option Bytes)
  | .respond outcome => some outcome
  | _ => none

def arrived (acts : List (Action × DnsTable)) : Bytes := acts.flatMap fun act => act.1.arrived

/-- What the upstream made of the queries, in the order in which it was asked. -/
def outcomes (acts : List (Action × DnsTable)) : List (Option Bytes) :=
  acts.filterMap fun act => act.1.outcome

theorem move_of_system_step {c c' : Connection} {act : Action × DnsTable}
    (h : (system stripAaaa).step c act = some c') : Move stripAaaa c act.1 c' := by
  obtain ⟨⟨next, table⟩, hstep, rfl⟩ := Option.map_eq_some_iff.mp h
  exact (step_cases hstep).1

end TransProxy.Dns.Tcp
