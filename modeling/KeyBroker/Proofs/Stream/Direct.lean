import KeyBroker.Proofs.Stream.Exchange

/-! # Requests over the wire and requests handed over

  Two ends with one limit agree with a broker that is handed the requests directly, as
  long as its responses are within the limit. The simulation relates a link to a session:
  nothing is left to be read, the session is served, and it is the one that the requests
  sent so far leave when they are handed over in order. A request that is too long is not
  sent, so it changes neither side.
-/

namespace KeyBroker

open Wire (encode)

/-! ### Requests handed over in order -/

namespace Session

variable {b : Broker} {draws : Draws} {limit : Nat} {s : Session} {r : Request}

/-- The broker's answers to requests that are handed over in order, on one connection. -/
def answers (b : Broker) (draws : Draws) (s : Session) : List Request → List Answer
  | [] => []
  | r :: rest => s.direct b draws r :: answers b draws (s.next b draws r) rest

/-- The session that such requests leave. -/
def past (b : Broker) (draws : Draws) (s : Session) : List Request → Session
  | [] => s
  | r :: rest => past b draws (s.next b draws r) rest

theorem past_append (rs more : List Request) :
    s.past b draws (rs ++ more) = (s.past b draws rs).past b draws more := by
  induction rs generalizing s with
  | nil => rfl
  | cons r rest ih => exact ih

theorem answers_append (rs more : List Request) :
    s.answers b draws (rs ++ more)
      = s.answers b draws rs ++ (s.past b draws rs).answers b draws more := by
  induction rs generalizing s with
  | nil => rfl
  | cons r rest ih =>
    rw [List.cons_append, answers, ih]
    rfl

/-- A response within the limit is what is sent back. -/
theorem back_of_short (h : (encode Wire.response (s.direct b draws r).response).length ≤ limit) :
    s.back b draws limit r = encode Wire.response (s.direct b draws r).response :=
  fitted_of_short h

end Session

/-! ### Requests that are sent -/

namespace Client

/-- Whether a client sends a request. -/
def sends (limit : Nat) (r : Request) : Bool := Frame.Fits limit (encode Wire.request r)

/-- What a client writes for a request, if anything. -/
def written (limit : Nat) (r : Request) : Bytes := (frame limit r).toOption.getD []

theorem written_of_sends {limit : Nat} {r : Request} (h : sends limit r = true) :
    written limit r = Frame.wrap (encode Wire.request r) := by
  rw [written, frame_of_fits (of_decide_eq_true h)]
  rfl

theorem written_of_not_sends {limit : Nat} {r : Request} (h : ¬ sends limit r = true) :
    written limit r = [] := by
  rw [written, frame_of_not_fits fun hfits => h (decide_eq_true hfits)]
  rfl

/-- All that a client writes is the frames of the requests that it sends. -/
theorem flatMap_written (limit : Nat) (rs : List Request) :
    rs.flatMap (written limit)
      = ((rs.filter (sends limit)).map (encode Wire.request)).flatMap Frame.wrap := by
  induction rs with
  | nil => rfl
  | cons r rest ih =>
    by_cases h : sends limit r = true
    · rw [List.flatMap_cons, ih, written_of_sends h, List.filter_cons_of_pos h, List.map_cons,
        List.flatMap_cons]
    · rw [List.flatMap_cons, ih, written_of_not_sends h, List.filter_cons_of_neg h]
      rfl

end Client

/-! ### The session's end -/

namespace Session

variable {b : Broker} {draws : Draws} {m : Nat} {s : Session}

/-- A session that reads requests answers them as if they were handed over, in order. -/
theorem run_encode {last : Ending} {rs : List Request}
    (hword : ∀ r ∈ rs, (encode Wire.request r).length < Frame.sizeBound)
    (hshort : ∀ a ∈ s.answers b draws rs,
      Frame.Fits m (encode Wire.response a.response)) :
    s.run b draws m last (rs.map (encode Wire.request))
      = { replies := (s.answers b draws rs).map fun a => encode Wire.response a.response
          ending := last
          session := s.past b draws rs
          events := (s.answers b draws rs).flatMap (·.events) } := by
  induction rs generalizing s with
  | nil => rfl
  | cons r rest ih =>
    have hfirst := hshort (s.direct b draws r) List.mem_cons_self
    have hback := back_of_short hfirst.short
    have hfits : Frame.Fits m (s.back b draws m r) := by
      rw [hback]
      exact hfirst
    have hreply := reply_of_fits (hword r List.mem_cons_self) hfits
    have hrest := @ih (s.next b draws r) (fun r' h => hword r' (List.mem_cons_of_mem _ h))
      fun a h => hshort a (List.mem_cons_of_mem _ h)
    rw [List.map_cons, run, hreply]
    simp only [hrest, hback]
    rfl

/-- A session serves what a client wrote, answers every request, and ends well. -/
theorem serve_written {rs : List Request}
    (hshort : ∀ a ∈ s.answers b draws (rs.filter (Client.sends m)),
      Frame.Fits m (encode Wire.response a.response)) :
    s.serve b draws m (rs.flatMap (Client.written m))
      = { replies := (s.answers b draws (rs.filter (Client.sends m))).map
            fun a => encode Wire.response a.response
          ending := .ok ()
          session := s.past b draws (rs.filter (Client.sends m))
          events := (s.answers b draws (rs.filter (Client.sends m))).flatMap (·.events) } := by
  have hfits : ∀ r ∈ rs.filter (Client.sends m), Frame.Fits m (encode Wire.request r) := by
    intro r hr
    exact of_decide_eq_true (List.mem_filter.mp hr).2
  have hbodies : ∀ body ∈ (rs.filter (Client.sends m)).map (encode Wire.request),
      Frame.Fits m body := by
    intro body hbody
    obtain ⟨r, hr, rfl⟩ := List.mem_map.mp hbody
    exact hfits r hr
  rw [serve, Client.flatMap_written, Frame.readAll_flatMap_wrap hbodies]
  exact run_encode (fun r hr => (hfits r hr).word) hshort

end Session

/-! ### The client's end -/

namespace Link

variable {b : Broker} {draws : Draws} {limits : LinkLimits} {m : Nat} {s : Session} {r : Request}

/-- A request that is too long is reported as such, and nothing else happens. -/
theorem exchange_of_not_sends (b : Broker) (draws : Draws) (s : Session)
    (hm : limits.client < Frame.sizeBound) (h : ¬ Client.sends limits.client r = true) :
    ((opened s).exchange b draws limits r).1
        = some (.error (.protocol (.oversized (encode Wire.request r).length limits.client)))
      ∧ ((opened s).exchange b draws limits r).2.1 = opened s := by
  have hfits : ¬ Frame.Fits limits.client (encode Wire.request r) :=
    fun hfits => h (decide_eq_true hfits)
  have hlong : (encode Wire.request r).length > limits.client := by
    by_cases hshort : (encode Wire.request r).length ≤ limits.client
    · exact absurd ⟨hshort, by omega⟩ hfits
    · omega
  simp only [exchange, Client.frame_of_not_fits hfits, ProtocolFault.unwritable, if_pos hlong]
  exact ⟨trivial, trivial⟩

/-- A request that both ends take gives what the body means that is sent back for it, if
    both ends take that too. -/
theorem exchange_of_back (hsent : Frame.Fits limits.client (encode Wire.request r))
    (hread : Frame.Fits limits.server (encode Wire.request r))
    (hback : Frame.Fits limits.server (s.back b draws limits.server r))
    (hshort : (s.back b draws limits.server r).length ≤ limits.client) :
    ((opened s).exchange b draws limits r).1
        = some (Client.outcome (s.back b draws limits.server r))
      ∧ ((opened s).exchange b draws limits r).2.1 = opened (s.next b draws r) := by
  have hcases := exchange_cases b draws limits r (settled_opened s)
  generalize ((opened s).exchange b draws limits r).1 = result at hcases ⊢
  generalize ((opened s).exchange b draws limits r).2.1 = next at hcases ⊢
  cases hcases with
  | unsent hunsent => exact absurd hsent hunsent
  | unanswered fault after _ hover hfault hending hinbox =>
    obtain hover | hunfit := hover
    · cases hover
    · exact absurd ⟨hread, hback⟩ hunfit
  | answered _ hserved hfits _ => exact ⟨rfl, rfl⟩
  | refused _ hserved hfits hlong => exact absurd hshort (Nat.not_le_of_lt hlong)

/-- A request that is sent gives what it gives when it is handed over. -/
theorem exchange_of_sends (hsame : limits.server = limits.client)
    (h : Client.sends limits.client r = true)
    (hshort : Frame.Fits limits.client (encode Wire.response (s.direct b draws r).response)) :
    ((opened s).exchange b draws limits r).1 = some (s.direct b draws r).response.outcome
      ∧ ((opened s).exchange b draws limits r).2.1 = opened (s.next b draws r) := by
  have hsent : Frame.Fits limits.client (encode Wire.request r) := of_decide_eq_true h
  have hback : s.back b draws limits.server r
      = encode Wire.response (s.direct b draws r).response := by
    rw [hsame]
    exact Session.back_of_short hshort.short
  have hexchange := @exchange_of_back b draws limits s r hsent (hsame ▸ hsent)
    (hback ▸ hsame ▸ hshort) (hback ▸ hshort.short)
  rwa [hback, Client.outcome_encode hshort.word] at hexchange

/-! ### Runs -/

variable {requests : List Request} {i : Nat}

/-- The limits leave room for requests and responses: they are the same at both ends, the
    header of a frame can say them, and every response to what is sent is within them. -/
structure Ample (b : Broker) (draws : Draws) (limits : LinkLimits) (s : Session)
    (requests : List Request) : Prop where
  same : limits.server = limits.client
  word : limits.client < Frame.sizeBound
  short : ∀ a ∈ s.answers b draws (requests.filter (Client.sends limits.client)),
    Frame.Fits limits.client (encode Wire.response a.response)

theorem getElem?_map_send (h : requests[i]? = some r) :
    (requests.map Call.send)[i]? = some (.send r) := by
  rw [List.getElem?_map, h]
  rfl

theorem take_succ_filter {p : Request → Bool} (h : requests[i]? = some r) :
    (requests.take (i + 1)).filter p
      = (requests.take i).filter p ++ if p r then [r] else [] := by
  rw [List.take_add_one, h, List.filter_append]
  cases hp : p r <;> simp [hp]

/-- Whatever is sent after other requests is among the requests sent. -/
theorem direct_mem_answers {p : Request → Bool} (h : requests[i]? = some r) (hp : p r = true) :
    (s.past b draws ((requests.take i).filter p)).direct b draws r
      ∈ s.answers b draws (requests.filter p) := by
  have hsplit : requests.filter p
      = (requests.take i).filter p ++ r :: (requests.drop (i + 1)).filter p := by
    obtain ⟨hlt, hget⟩ := List.getElem?_eq_some_iff.mp h
    rw [← List.filter_cons_of_pos hp, ← List.filter_append, ← hget,
      ← List.drop_eq_getElem_cons hlt, List.take_append_drop]
  rw [hsplit, Session.answers_append]
  exact List.mem_append_right _ List.mem_cons_self

/-- What is left of a run of calls is the session that the requests sent leave when they
    are handed over. -/
theorem after_eq_opened (hample : Ample b draws limits s requests) (i : Nat) :
    (opened s).after b draws limits ((requests.map .send).take i)
      = opened (s.past b draws ((requests.take i).filter (Client.sends limits.client))) := by
  induction i with
  | zero => rfl
  | succ i ih =>
    cases hr : requests[i]? with
    | none =>
      have hend : requests.length ≤ i := List.getElem?_eq_none_iff.mp hr
      rw [List.take_of_length_le (by rw [List.length_map]; omega),
        List.take_of_length_le (by omega)] at ih ⊢
      exact ih
    | some r =>
      rw [after_take_succ (getElem?_map_send hr), ih, (call_eq ..).2, take_succ_filter hr]
      -- a request that is not sent is a step of the run only, not of the session
      by_cases h : Client.sends limits.client r = true
      · rw [if_pos h, Session.past_append]
        exact (exchange_of_sends hample.same h (hample.short _ (direct_mem_answers hr h))).2
      · rw [if_neg h, List.append_nil]
        exact (exchange_of_not_sends b draws _ hample.word h).2

/-- A request of a run that is sent gives what it gives when it is handed over. -/
theorem given_of_sends (hample : Ample b draws limits s requests)
    (hr : requests[i]? = some r) (h : Client.sends limits.client r = true) :
    (opened s).given b draws limits (requests.map .send) i
      = some (some (((s.past b draws ((requests.take i).filter
          (Client.sends limits.client))).direct b draws r).response.outcome.map .body)) := by
  have hexchange := exchange_of_sends hample.same h (hample.short _ (direct_mem_answers hr h))
  rw [given_eq (getElem?_map_send hr), after_eq_opened hample, call_send, hexchange.1]
  rfl

/-- A request of a run that is too long gives the fault of its length. -/
theorem given_of_not_sends (hample : Ample b draws limits s requests)
    (hr : requests[i]? = some r) (h : ¬ Client.sends limits.client r = true) :
    (opened s).given b draws limits (requests.map .send) i
      = some (some (.error (.protocol
          (.oversized (encode Wire.request r).length limits.client)))) := by
  rw [given_eq (getElem?_map_send hr), after_eq_opened hample, call_send,
    (exchange_of_not_sends b draws _ hample.word h).1]
  rfl

/-- With one limit at both ends, and responses within it, calls over the wire agree with
    requests handed over in order on one connection. A request within the limit gives
    what its response means; any other gives a fault of its length, nothing is written for
    it, and it changes nothing. After each call the link is that of the session that the
    requests sent so far leave. A session that serves what the client wrote answers every
    request that was sent and ends well. -/
theorem remote_eq_direct (b : Broker) (draws : Draws) (limits : LinkLimits) (m : Nat)
    (s : Session) (requests : List Request) (hm : m < Frame.sizeBound)
    (hclient : limits.client = m) (hserver : limits.server = m)
    (hshort : ∀ a ∈ s.answers b draws (requests.filter (Client.sends m)),
      (encode Wire.response a.response).length ≤ m) :
    let sent := fun i => (requests.take i).filter (Client.sends m)
    let calls := requests.map Call.send
    (∀ i r, requests[i]? = some r →
        (opened s).given b draws limits calls i
          = some (some (
            if (encode Wire.request r).length ≤ m then
              ((s.past b draws (sent i)).direct b draws r).response.outcome.map .body
            else .error (.protocol (.oversized (encode Wire.request r).length m)))))
      ∧ (∀ r, m < (encode Wire.request r).length → Client.written m r = [])
      ∧ (∀ i, (opened s).after b draws limits (calls.take i)
          = opened (s.past b draws (sent i)))
      ∧ ((opened s).after b draws limits calls).finish b draws limits = (.ok (), [])
      ∧ s.serve b draws m (requests.flatMap (Client.written m))
          = { replies := (s.answers b draws (requests.filter (Client.sends m))).map
                fun a => encode Wire.response a.response
              ending := .ok ()
              session := s.past b draws (requests.filter (Client.sends m))
              events := (s.answers b draws (requests.filter (Client.sends m))).flatMap
                (·.events) } := by
  intro sent calls
  subst hclient
  have hample : Ample b draws limits s requests := by
    refine ⟨hserver, hm, ?_⟩
    intro a ha
    exact ⟨hshort a ha, Nat.lt_of_le_of_lt (hshort a ha) hm⟩
  have hafter := after_eq_opened hample
  have hsends : ∀ r, Client.sends limits.client r = true
      ↔ (encode Wire.request r).length ≤ limits.client := by
    intro r
    constructor
    · intro h
      exact (of_decide_eq_true h : Frame.Fits _ _).short
    · intro h
      exact decide_eq_true ⟨h, Nat.lt_of_le_of_lt h hm⟩
  refine ⟨?_, ?_, hafter, ?_, Session.serve_written hample.short⟩
  · intro i r hr
    by_cases h : (encode Wire.request r).length ≤ limits.client
    · rw [if_pos h]
      exact given_of_sends hample hr ((hsends r).mpr h)
    · rw [if_neg h]
      exact given_of_not_sends hample hr fun hs => h ((hsends r).mp hs)
  · intro r hlong
    exact Client.written_of_not_sends fun hs => Nat.not_le_of_lt hlong ((hsends r).mp hs)
  · have hwhole := hafter calls.length
    rw [List.take_length] at hwhole
    rw [hwhole]
    rfl

/-- A ping, a request that is too long, and a request that is denied. -/
theorem remote_eq_direct_denied :
    let b : Broker := ⟨.empty, fun _ _ => none, {}⟩
    let draws : Draws := fun _ => ⟨Vector.replicate 12 0, Vector.replicate 64 0, 1⟩
    let limits : LinkLimits := { client := 150, server := 150 }
    let s : Session := { connection := { id := 1, caller := some ⟨1000, 100, none⟩ } }
    let requests : List Request := [.ping,
      { command := .operate .sign, set := "a", payload := List.replicate 150 0 },
      { command := .retrieve, set := "a" }]
    (opened s).given b draws limits (requests.map .send) 1
        = some (some (.error (.protocol (.oversized 177 150))))
      ∧ (opened s).given b draws limits (requests.map .send) 2
        = some (some (.error (.remote .denied
          "Permission denied: uid=1000 gid=100 may not retrieve key set a")))
      ∧ (s.serve b draws 150 (requests.flatMap (Client.written 150))).replies.length = 2 := by
  intro b draws limits s requests
  have hshort : ∀ a ∈ s.answers b draws (requests.filter (Client.sends 150)),
      (encode Wire.response a.response).length ≤ 150 := by decide +kernel
  obtain ⟨hgiven, -, -, -, hserve⟩ :=
    remote_eq_direct b draws limits 150 s requests (by decide) rfl rfl hshort
  refine ⟨?_, ?_, ?_⟩
  · rw [hgiven 1 _ rfl, if_neg (by decide +kernel)]
    rfl
  · rw [hgiven 2 _ rfl, if_pos (by decide +kernel)]
    decide +kernel
  · rw [hserve, List.length_map]
    decide +kernel

end Link

end KeyBroker
