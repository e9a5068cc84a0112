import KeyBroker.Proofs.Stream.Direct
import KeyBroker.Proofs.Stream.Replies

/-! # Replies in step with frames

  A session is told from the requests among the bodies that it reads: handed over to the
  broker in order, they leave the connection on which the next body is answered, and bodies
  that are no requests leave it alone. Main statement: the reply at a place answers the body
  at that place, on the connection that the bodies before it leave, and there is one reply
  for each body up to the first that nothing can be sent for.
-/

namespace KeyBroker

open Wire (encode decode)

namespace Session

variable {b : Broker} {draws : Draws} {limit : Nat} {s : Session} {body : Bytes}
  {rest bodies : List Bytes}

/-! ### Bodies and requests -/

/-- The requests among bodies, in order. -/
def requestsIn (bodies : List Bytes) : List Request :=
  bodies.filterMap fun body => (decode Wire.request body).toOption

/-- The response to a body on a connection: the broker's to the request that it is, or the
    fault of its being none. -/
def responseTo (b : Broker) (draws : Draws) (s : Session) (body : Bytes) : Response :=
  match decode Wire.request body with
  | .ok r => (s.direct b draws r).response
  | .error cause => .ofFault (.malformed (.undecodable cause))

theorem requestsIn_cons_of_ok {r : Request} (h : decode Wire.request body = .ok r) :
    requestsIn (body :: rest) = r :: requestsIn rest := by
  simp only [requestsIn, List.filterMap_cons, h, Except.toOption]

theorem requestsIn_cons_of_error {cause : Wire.DecodeFault}
    (h : decode Wire.request body = .error cause) :
    requestsIn (body :: rest) = requestsIn rest := by
  simp only [requestsIn, List.filterMap_cons, h, Except.toOption]

/-- A body that is a request is handed over to the broker. -/
theorem answer_of_ok {r : Request} (h : decode Wire.request body = .ok r) :
    s.answer b draws body
      = ((s.direct b draws r).response, s.next b draws r, (s.direct b draws r).events) := by
  simp only [answer, h]
  rfl

/-- Any other body is answered without the broker, and leaves the session as it is. -/
theorem answer_of_error {cause : Wire.DecodeFault} (h : decode Wire.request body = .error cause) :
    s.answer b draws body
      = (.ofFault (.malformed (.undecodable cause)), s,
          [.undecodable s.connection.id cause]) := by
  simp only [answer, h]

theorem answer_response : (s.answer b draws body).1 = s.responseTo b draws body := by
  unfold responseTo
  split
  · next heq => rw [answer_of_ok heq]
  · next heq => rw [answer_of_error heq]

/-- After a body the session goes on as the requests that follow leave it. -/
theorem past_requestsIn_cons :
    s.past b draws (requestsIn (body :: rest))
      = (s.answer b draws body).2.1.past b draws (requestsIn rest) := by
  cases h : decode Wire.request body with
  | ok r => rw [requestsIn_cons_of_ok h, answer_of_ok h]; rfl
  | error cause => rw [requestsIn_cons_of_error h, answer_of_error h]

/-- The response at a place is to the body at that place, on the connection that the bodies
    before it leave. -/
theorem getElem?_responses (bodies : List Bytes) (k : Nat) :
    (s.responses b draws bodies)[k]?
      = bodies[k]?.map
        ((s.past b draws (requestsIn (bodies.take k))).responseTo b draws) := by
  -- on the bodies, for every session: the first body moves the session on, and the place
  induction bodies generalizing s k with
  | nil => rfl
  | cons body rest ih =>
    cases k with
    | zero =>
      rw [responses, answer_response]
      rfl
    | succ k =>
      rw [responses, List.getElem?_cons_succ, ih, List.getElem?_cons_succ, List.take_succ_cons,
        past_requestsIn_cons]

/-! ### Bodies that are sent -/

/-- What is sent for a response. -/
structure Sent (limit : Nat) (r : Response) (out : Bytes) : Prop where
  /-- It is within the limit. -/
  short : out.length ≤ limit
  /-- It is the response, where that is within the limit, -/
  whole : (encode Wire.response r).length ≤ limit →
    out = encode Wire.response r ∧ decode Wire.response out = .ok r
  /-- and else the notice of its length. -/
  noticed : limit < (encode Wire.response r).length →
    let notice := Session.notice (encode Wire.response r).length
    out = encode Wire.response notice ∧ decode Wire.response out = .ok notice

theorem sent_of_sendable {r : Response} (h : sendable limit r = true) :
    Sent limit r (fitted limit r) := by
  have hfits : Frame.Fits limit (fitted limit r) := of_decide_eq_true h
  have hword := lt_lengthBound hfits.word
  refine ⟨hfits.short, ?_, ?_⟩
  · intro hshort
    rw [fitted_of_short hshort] at hword ⊢
    exact ⟨rfl, Wire.decode_encode_response hword⟩
  · intro hlong
    rw [fitted_of_long hlong] at hword ⊢
    exact ⟨rfl, Wire.decode_encode_response hword⟩

/-- Nothing can be sent for a response: neither it nor the notice of its length is within
    the limit. -/
def Unsendable (limit : Nat) (r : Response) : Prop :=
  limit < (encode Wire.response r).length
    ∧ limit < (encode Wire.response (notice (encode Wire.response r).length)).length

instance (limit : Nat) (r : Response) : Decidable (Unsendable limit r) :=
  inferInstanceAs (Decidable (_ ∧ _))

theorem unsendable_iff {r : Response} (hlimit : limit < Frame.sizeBound) :
    Unsendable limit r ↔ ¬ sendable limit r = true := by
  rw [sendable_iff hlimit, ← length_encode_notice, Unsendable]
  omega

/-- Where nothing can be sent it is the notice that is too long. -/
theorem unwritable_fitted {r : Response} (h : Unsendable limit r) :
    ProtocolFault.unwritable (fitted limit r).length limit
      = .oversized (encode Wire.response (notice (encode Wire.response r).length)).length limit := by
  obtain ⟨hlong, hnotice⟩ := h
  rw [fitted_of_long hlong, ProtocolFault.unwritable, if_pos hnotice]

/-! ### Runs -/

/-- A stream of bodies within the limit is served body by body. -/
theorem serve_flatMap_wrap (hlimit : limit < Frame.sizeBound)
    (hshort : ∀ body ∈ bodies, body.length ≤ limit) :
    s.serve b draws limit (bodies.flatMap Frame.wrap) = s.run b draws limit (.ok ()) bodies := by
  have hfits : ∀ body ∈ bodies, Frame.Fits limit body := by
    intro body hbody
    exact ⟨hshort body hbody, Nat.lt_of_le_of_lt (hshort body hbody) hlimit⟩
  rw [serve, Frame.readAll_flatMap_wrap hfits]
  rfl

/-- A reply at a place is what is sent for the response at that place. -/
theorem of_getElem?_replies {last : Ending} {k : Nat} {out : Bytes}
    (h : (s.run b draws limit last bodies).replies[k]? = some out) :
    ∃ r, (s.responses b draws bodies)[k]? = some r ∧ sendable limit r = true
      ∧ out = fitted limit r := by
  rw [(run_responses last bodies).1, List.getElem?_map, Option.map_eq_some_iff] at h
  obtain ⟨r, hr, rfl⟩ := h
  -- what is taken from the front stands where it stood
  obtain ⟨after, hafter⟩ := List.takeWhile_prefix (sendable limit)
    (l := s.responses b draws bodies)
  have hwhole : (s.responses b draws bodies)[k]? = some r := by
    rw [← hafter, List.getElem?_append_left (List.getElem?_eq_some_iff.mp hr).1]
    exact hr
  exact ⟨r, hwhole, List.mem_takeWhile_imp (List.mem_of_getElem? hr), rfl⟩

/-- A run ends at the first response that cannot be sent, or else with its bodies. -/
theorem run_cases (last : Ending) (bodies : List Bytes) :
    ((∀ r ∈ s.responses b draws bodies, sendable limit r = true)
      ∧ (s.run b draws limit last bodies).replies.length = bodies.length
      ∧ (s.run b draws limit last bodies).ending = last)
    ∨ ∃ before r after, s.responses b draws bodies = before ++ r :: after
      ∧ (∀ r' ∈ before, sendable limit r' = true) ∧ ¬ sendable limit r = true
      ∧ (s.run b draws limit last bodies).replies.length = before.length
      ∧ (s.run b draws limit last bodies).ending
        = .error (.protocol (.unwritable (fitted limit r).length limit)) := by
  obtain ⟨hreplies, hending⟩ := @run_responses b draws limit s last bodies
  rw [hreplies, hending, endAfter, List.length_map]
  -- the first response that cannot be sent, if there is one, splits them
  cases hfind : (s.responses b draws bodies).find? fun r => !sendable limit r with
  | none =>
    have hall : ∀ r ∈ s.responses b draws bodies, sendable limit r = true := by
      intro r hr
      simpa using List.find?_eq_none.mp hfind r hr
    refine Or.inl ⟨hall, ?_, rfl⟩
    rw [length_takeWhile_eq_iff.mpr hall, length_responses]
  | some r =>
    obtain ⟨hnot, before, after, hsplit, hbefore⟩ := List.find?_eq_some_iff_append.mp hfind
    have hnot : ¬ sendable limit r = true := by simpa using hnot
    have hbefore : ∀ r' ∈ before, sendable limit r' = true := by simpa using hbefore
    refine Or.inr ⟨before, r, after, hsplit, hbefore, hnot, ?_, rfl⟩
    rw [hsplit, List.takeWhile_append_of_pos hbefore, List.takeWhile_cons_of_neg hnot,
      List.append_nil]

/-- Replies are in step with frames. On a stream of bodies within the limit, the reply at a
    place is what is sent for the response to the body at that place, on the connection
    that the requests before it leave. Either something can be sent for every response,
    then there are as many replies as bodies and the session ends well; or there is a first
    for which nothing can be sent, then there are the replies to the bodies before it and no
    other, and the session ends by the length of the notice. -/
theorem replied_in_step (b : Broker) (draws : Draws) (s : Session) (limit : Nat)
    (bodies : List Bytes) (hlimit : limit < Frame.sizeBound)
    (hshort : ∀ body ∈ bodies, body.length ≤ limit) :
    let run := s.serve b draws limit (bodies.flatMap Frame.wrap)
    let response := fun k =>
      (s.past b draws (requestsIn (bodies.take k))).responseTo b draws
    (∀ k out, run.replies[k]? = some out →
      ∃ body, bodies[k]? = some body ∧ Sent limit (response k body) out)
    ∧ (((∀ k body, bodies[k]? = some body → ¬ Unsendable limit (response k body))
        ∧ run.replies.length = bodies.length ∧ run.ending = .ok ())
      ∨ ∃ k body, bodies[k]? = some body ∧ Unsendable limit (response k body)
        ∧ (∀ j earlier, j < k → bodies[j]? = some earlier →
          ¬ Unsendable limit (response j earlier))
        ∧ run.replies.length = k
        ∧ run.ending = .error (oversized (encode Wire.response
            (notice (encode Wire.response (response k body)).length)).length limit)) := by
  intro run response
  have hrun : run = s.run b draws limit (.ok ()) bodies := serve_flatMap_wrap hlimit hshort
  have hresponse : ∀ k, (s.responses b draws bodies)[k]? = bodies[k]?.map (response k) :=
    getElem?_responses bodies
  have hmem : ∀ k body, bodies[k]? = some body →
      (s.responses b draws bodies)[k]? = some (response k body) := by
    intro k body hbody
    rw [hresponse, hbody]
    rfl
  rw [hrun]
  refine ⟨?_, ?_⟩
  · intro k out hout
    obtain ⟨r, hr, hsendable, rfl⟩ := of_getElem?_replies hout
    rw [hresponse, Option.map_eq_some_iff] at hr
    obtain ⟨body, hbody, rfl⟩ := hr
    exact ⟨body, hbody, sent_of_sendable hsendable⟩
  · obtain ⟨hall, hcount, hending⟩ | ⟨before, r, after, hsplit, hbefore, hnot, hcount, hending⟩ :=
      @run_cases b draws limit s (.ok ()) bodies
    · refine Or.inl ⟨?_, hcount, hending⟩
      intro k body hbody hunsendable
      exact (unsendable_iff hlimit).mp hunsendable
        (hall _ (List.mem_of_getElem? (hmem k body hbody)))
    · -- the body at the place of that response
      have hr : (s.responses b draws bodies)[before.length]? = some r := by
        rw [hsplit, List.getElem?_append_right (Nat.le_refl _), Nat.sub_self]
        rfl
      rw [hresponse, Option.map_eq_some_iff] at hr
      obtain ⟨body, hbody, rfl⟩ := hr
      have hunsendable := (unsendable_iff hlimit).mpr hnot
      refine Or.inr ⟨before.length, body, hbody, hunsendable, ?_, hcount, ?_⟩
      · intro j earlier hj hearlier hunsendable
        have hat := hmem j earlier hearlier
        rw [hsplit, List.getElem?_append_left hj] at hat
        exact (unsendable_iff hlimit).mp hunsendable (hbefore _ (List.mem_of_getElem? hat))
      · rw [hending, unwritable_fitted hunsendable]
        rfl

/-- Under a limit of 64 bytes a ping is replied to and a denial is not: it is 79 bytes, its
    notice is 76, and the ping behind it is never read. -/
theorem replied_in_step_until_denial :
    let b : Broker := ⟨.empty, fun _ _ => none, {}⟩
    let draws : Draws := fun _ => ⟨Vector.replicate 12 0, Vector.replicate 64 0, 1⟩
    let s : Session := { connection := { id := 1, caller := none } }
    let bodies := [encode Wire.request .ping,
      encode Wire.request { command := .operate .sign, set := "a" }, encode Wire.request .ping]
    let run := s.serve b draws 64 (bodies.flatMap Frame.wrap)
    64 < Frame.sizeBound ∧ (∀ body ∈ bodies, body.length ≤ 64)
      ∧ run.replies.length = 1 ∧ run.ending = .error (oversized 76 64) := by
  intro b draws s bodies run
  have hlimit : 64 < Frame.sizeBound := by decide
  have hshort : ∀ body ∈ bodies, body.length ≤ 64 := by decide +kernel
  -- of the three responses the first is sent, and the second is not
  let response := fun k => (s.past b draws (requestsIn (bodies.take k))).responseTo b draws
  have hfirst : bodies[0]?.map (fun body => decide (Unsendable 64 (response 0 body)))
      = some false := by decide +kernel
  have hsecond : bodies[1]?.map (fun body => decide (Unsendable 64 (response 1 body)))
      = some true := by decide +kernel
  have hsize : bodies[1]?.map (fun body => (encode Wire.response
      (notice (encode Wire.response (response 1 body)).length)).length) = some 76 := by
    decide +kernel
  obtain ⟨first, hfirstAt, hsent⟩ := Option.map_eq_some_iff.mp hfirst
  obtain ⟨second, hsecondAt, hlost⟩ := Option.map_eq_some_iff.mp hsecond
  rw [hsecondAt] at hsize
  obtain ⟨-, ⟨hnone, -⟩ | ⟨k, body, hbody, hunsendable, hbefore, hcount, hending⟩⟩ :=
    replied_in_step b draws s 64 bodies hlimit hshort
  · exact absurd (of_decide_eq_true hlost) (hnone 1 second hsecondAt)
  · have hone : k = 1 := by
      have hzero : k ≠ 0 := by
        rintro rfl
        rw [hfirstAt] at hbody
        obtain rfl := Option.some.inj hbody
        exact of_decide_eq_false hsent hunsendable
      have hmany : ¬ 1 < k :=
        fun h => hbefore 1 second h hsecondAt (of_decide_eq_true hlost)
      omega
    subst hone
    rw [hsecondAt] at hbody
    obtain rfl := Option.some.inj hbody
    have hnotice : (encode Wire.response
        (notice (encode Wire.response (response 1 second)).length)).length = 76 :=
      Option.some.inj hsize
    refine ⟨hlimit, hshort, hcount, hending.trans ?_⟩
    rw [← hnotice]

end Session

end KeyBroker
