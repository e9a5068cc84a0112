import KeyBroker.Proofs.Access.Audit
import KeyBroker.Proofs.Stream.Order

/-! # Bodies that are no requests

  Bodies that are no requests are noise to a session: the broker does not see them, so they
  use up no draws, touch no connection and reach no key. The same stream is compared with and
  without its noise. The two runs differ in length, but a body of noise is a step that the
  second run can sit out, because it leaves the session where it is and because some answer
  to it can be sent.
-/

namespace KeyBroker

open Wire (encode decode)

/-! ### Noise and its traces -/

/-- Whether the event is a body that is no request. -/
def Event.isUndecodable : Event → Bool
  | undecodable .. => true
  | _ => false

/-- Noise is logged elsewhere than in the audit. -/
theorem auditLines_filter_not_undecodable (events : List Event) :
    auditLines (events.filter (!·.isUndecodable)) = auditLines events := by
  induction events with
  | nil => rfl
  | cons e rest ih =>
    by_cases hnoise : e.isUndecodable = true
    · -- the line of noise is there, but under the topic of the server
      have hskipped : auditLines (e :: rest) = auditLines rest := by
        cases e with
        | undecodable conn cause => rfl
        | _ => cases hnoise
      rw [List.filter_cons_of_neg (by simpa using hnoise), hskipped, ih]
    · rw [List.filter_cons_of_pos (by simpa using hnoise)]
      simp only [auditLines, records] at ih ⊢
      cases hline : e.record? with
      | none => rw [List.filterMap_cons_none hline, List.filterMap_cons_none hline, ih]
      | some line =>
        rw [List.filterMap_cons_some hline, List.filterMap_cons_some hline, List.filter_cons,
          List.filter_cons, ih]

/-- The broker itself makes no noise. -/
theorem Broker.filter_handle_events (b : Broker) (draw : Draw) (c : Connection) (r : Request) :
    (b.handle draw c r).events.filter (!·.isUndecodable) = (b.handle draw c r).events := by
  rw [List.filter_eq_self]
  have hquiet : ∀ e ∈ (b.handle draw c r).events, e.isUndecodable = false :=
    Broker.forall_mem_events (fun _ => rfl) (fun _ _ _ => rfl) (fun _ _ => rfl)
      (fun _ _ _ _ _ _ => rfl) (fun _ _ _ _ _ _ => rfl)
  intro e he
  rw [hquiet e he]
  rfl

namespace Session

variable {b : Broker} {draws : Draws} {limit : Nat} {s : Session} {body : Bytes}
  {rest bodies : List Bytes}

/-- Whether a body is a request. -/
def isRequest (body : Bytes) : Bool := (decode Wire.request body).toOption.isSome

theorem isRequest_of_ok {r : Request} (h : decode Wire.request body = .ok r) :
    isRequest body = true := by
  rw [isRequest, h]
  rfl

theorem isRequest_of_error {cause : Wire.DecodeFault}
    (h : decode Wire.request body = .error cause) : isRequest body = false := by
  rw [isRequest, h]
  rfl

/-- What answers noise says that it was malformed. -/
theorem responseTo_of_noise (b : Broker) (draws : Draws) (s : Session)
    (h : isRequest body = false) :
    (s.responseTo b draws body).status = .error
      ∧ (s.responseTo b draws body).kind = some .malformed := by
  cases hbody : decode Wire.request body with
  | ok r =>
    rw [isRequest_of_ok hbody] at h
    cases h
  | error cause =>
    rw [responseTo, hbody]
    exact ⟨rfl, rfl⟩

/-- So does what is sent for a malformed response, be it the response or a notice. -/
theorem malformed_of_sent {r : Response} {out : Bytes} (hsent : Sent limit r out)
    (hstatus : r.status = .error) (hkind : r.kind = some .malformed) :
    ∃ sent, decode Wire.response out = .ok sent
      ∧ sent.status = .error ∧ sent.kind = some .malformed := by
  by_cases hshort : (encode Wire.response r).length ≤ limit
  · exact ⟨r, (hsent.whole hshort).2, hstatus, hkind⟩
  · exact ⟨_, (hsent.noticed (by omega)).2, rfl, rfl⟩

/-! ### A run without its noise -/

/-- A body whose response can be sent is one step of a run. -/
theorem run_cons_of_sendable (last : Ending) (rest : List Bytes)
    (h : sendable limit (s.answer b draws body).1 = true) :
    s.run b draws limit last (body :: rest)
      = ⟨fitted limit (s.answer b draws body).1
            :: ((s.answer b draws body).2.1.run b draws limit last rest).replies,
          ((s.answer b draws body).2.1.run b draws limit last rest).ending,
          ((s.answer b draws body).2.1.run b draws limit last rest).session,
          (s.answer b draws body).2.2
            ++ ((s.answer b draws body).2.1.run b draws limit last rest).events⟩ := by
  rw [run, reply_of_sendable h]

/-- A second run is the first without the noise among the bodies of the first. -/
structure Quieted (bodies : List Bytes) (noisy quiet : Run) : Prop where
  /-- The replies to noise are gone, and the others stand as they stood. -/
  replies : quiet.replies
    = ((bodies.zip noisy.replies).filter fun sent => isRequest sent.1).map Prod.snd
  /-- So are the events of noise. -/
  events : quiet.events = noisy.events.filter (!·.isUndecodable)
  /-- The session comes out the same. -/
  session : quiet.session = noisy.session
  /-- The end is the same. -/
  ending : quiet.ending = noisy.ending

/-- A run can do without its noise if all responses can be sent. -/
theorem quieted_run (last : Ending) (bodies : List Bytes)
    (h : ∀ r ∈ s.responses b draws bodies, sendable limit r = true) :
    Quieted bodies (s.run b draws limit last bodies)
      (s.run b draws limit last (bodies.filter isRequest)) := by
  induction bodies generalizing s with
  | nil => exact ⟨rfl, rfl, rfl, rfl⟩
  | cons body rest ih =>
    have hhead : sendable limit (s.answer b draws body).1 = true := h _ List.mem_cons_self
    have hrest := @ih (s.answer b draws body).2.1 fun r hr => h r (List.mem_cons_of_mem _ hr)
    rw [run_cons_of_sendable last rest hhead]
    cases hbody : decode Wire.request body with
    | ok r =>
      -- both runs take the step
      have hkept : isRequest body = true := isRequest_of_ok hbody
      have hquiet : (s.answer b draws body).2.2.filter (!·.isUndecodable)
          = (s.answer b draws body).2.2 := by
        rw [answer_of_ok hbody]
        exact b.filter_handle_events (draws s.handled) s.connection r
      rw [List.filter_cons_of_pos hkept, run_cons_of_sendable last _ hhead]
      refine ⟨?_, ?_, hrest.session, hrest.ending⟩
      · rw [List.zip_cons_cons, List.filter_cons_of_pos (by exact hkept), List.map_cons, hrest.replies]
      · rw [List.filter_append, hquiet, hrest.events]
    | error cause =>
      -- the second run stays where it is, and so does the session of the first
      have hnoise : isRequest body = false := isRequest_of_error hbody
      have hstays : s.answer b draws body
          = (.ofFault (.malformed (.undecodable cause)), s,
              [.undecodable s.connection.id cause]) := answer_of_error hbody
      rw [List.filter_cons_of_neg (by simp [hnoise])]
      rw [hstays] at hrest ⊢
      refine ⟨?_, ?_, hrest.session, hrest.ending⟩
      · rw [List.zip_cons_cons, List.filter_cons_of_neg (by simp [hnoise]), hrest.replies]
      · rw [List.filter_append, hrest.events]
        rfl

/-- Noise leaves no trace. Where the limit has room for every notice, a stream of bodies
    within it is replied to in full, and noise is told that it is malformed. The stream
    without its noise gets the same replies but those, and leaves the same lines in the
    audit, the same connection and the same draws for what comes next. -/
theorem noise_leaves_no_trace (b : Broker) (draws : Draws) (s : Session) (limit : Nat)
    (bodies : List Bytes) (hlimit : limit < Frame.sizeBound) (hroom : 94 ≤ limit)
    (hshort : ∀ body ∈ bodies, body.length ≤ limit)
    (hlengths : ∀ r ∈ s.responses b draws bodies,
      (encode Wire.response r).length < Wire.Format.lengthBound) :
    let noisy := s.serve b draws limit (bodies.flatMap Frame.wrap)
    let quiet := s.serve b draws limit ((bodies.filter isRequest).flatMap Frame.wrap)
    noisy.replies.length = bodies.length ∧ noisy.ending = .ok ()
      ∧ (∀ (k : Nat) (body out : Bytes), bodies[k]? = some body → isRequest body = false →
        noisy.replies[k]? = some out →
        ∃ r, decode Wire.response out = .ok r ∧ r.status = .error ∧ r.kind = some .malformed)
      ∧ Quieted bodies noisy quiet
      ∧ auditLines quiet.events = auditLines noisy.events := by
  intro noisy quiet
  have hall : ∀ r ∈ s.responses b draws bodies, sendable limit r = true :=
    fun r hr => sendable_of_room hlimit hroom (hlengths r hr)
  have hnoisy : noisy = s.run b draws limit (.ok ()) bodies := serve_flatMap_wrap hlimit hshort
  have hquiet : quiet = s.run b draws limit (.ok ()) (bodies.filter isRequest) :=
    serve_flatMap_wrap hlimit fun body hbody => hshort body (List.mem_filter.mp hbody).1
  have hquieted : Quieted bodies noisy quiet := by
    rw [hnoisy, hquiet]
    exact quieted_run (.ok ()) bodies hall
  obtain ⟨hreplies, hending⟩ := @run_responses b draws limit s (.ok ()) bodies
  rw [← hnoisy] at hreplies hending
  refine ⟨?_, ?_, ?_, hquieted, ?_⟩
  · rw [hreplies, List.length_map, length_takeWhile_eq_iff.mpr hall, length_responses]
  · rw [hending]
    exact endAfter_eq_ok.mpr hall
  · intro k body out hbody hnoise hout
    rw [hnoisy] at hout
    obtain ⟨r, hr, hsendable, rfl⟩ := of_getElem?_replies hout
    rw [getElem?_responses, hbody] at hr
    obtain rfl := Option.some.inj hr
    obtain ⟨hstatus, hkind⟩ := responseTo_of_noise b draws _ hnoise
    exact malformed_of_sent (sent_of_sendable hsendable) hstatus hkind
  · rw [hquieted.events]
    exact auditLines_filter_not_undecodable noisy.events

/-- A signature is refused between two bodies of noise: without them there is one reply, and
    the audit has the one refusal either way. -/
theorem noise_leaves_no_trace_of_two_bodies :
    let b : Broker := ⟨.empty, fun _ _ => none, {}⟩
    let draws : Draws := fun _ => ⟨Vector.replicate 12 0, Vector.replicate 64 0, 1⟩
    let s : Session := { connection := { id := 1, caller := some ⟨1000, 100, none⟩ } }
    let bodies := [[7], encode Wire.request { command := .operate .sign, set := "a" }, []]
    let noisy := s.serve b draws 94 (bodies.flatMap Frame.wrap)
    let quiet := s.serve b draws 94 ((bodies.filter isRequest).flatMap Frame.wrap)
    94 < Frame.sizeBound ∧ (∀ body ∈ bodies, body.length ≤ 94)
      ∧ (∀ r ∈ s.responses b draws bodies,
        (encode Wire.response r).length < Wire.Format.lengthBound)
      ∧ noisy.replies.length = 3 ∧ quiet.replies.length = 1
      ∧ (auditLines quiet.events).length = 1
      ∧ auditLines quiet.events = auditLines noisy.events := by
  intro b draws s bodies noisy quiet
  have hlimit : 94 < Frame.sizeBound := by decide
  have hshort : ∀ body ∈ bodies, body.length ≤ 94 := by decide +kernel
  have hlengths : ∀ r ∈ s.responses b draws bodies,
      (encode Wire.response r).length < Wire.Format.lengthBound := by decide +kernel
  obtain ⟨hcount, -, -, hquieted, haudit⟩ :=
    noise_leaves_no_trace b draws s 94 bodies hlimit (by decide) hshort hlengths
  refine ⟨hlimit, hshort, hlengths, hcount, ?_, by decide +kernel, haudit⟩
  rw [hquieted.replies]
  decide +kernel

end Session

end KeyBroker
