import KeyBroker.Link
import KeyBroker.Proofs.Stream.Framing
import KeyBroker.Proofs.Wire.RoundTrip

/-! # One exchange

  What a session answers to a request is what the broker answers when the request is
  handed to it directly, as it is or, when it is too long, as a notice. From there follows
  all that can come of a request on a link where nothing is under way: the request is not
  sent, or no answer comes, or the answer is read whole, or its header alone is read and its
  body stays. The client waits for the session exactly once there, so the schedule of the
  session makes no difference. A call of a run is such an exchange, on the link that the
  earlier calls leave.
-/

namespace KeyBroker

open Wire (encode)

/-- Whether two results are the same can be computed. -/
instance decidableEqExcept {ε α : Type} [DecidableEq ε] [DecidableEq α] : DecidableEq (Except ε α)
  | .ok a, .ok b => decidable_of_iff (a = b) ⟨congrArg _, Except.ok.inj⟩
  | .error a, .error b => decidable_of_iff (a = b) ⟨congrArg _, Except.error.inj⟩
  | .ok _, .error _ => isFalse nofun
  | .error _, .ok _ => isFalse nofun

/-! ### Requests that are handed over directly -/

namespace Session

variable {b : Broker} {draws : Draws} {limit : Nat} {s : Session} {r : Request}

/-- What the broker makes of a request that is handed to it on this connection. -/
def direct (b : Broker) (draws : Draws) (s : Session) (r : Request) : Answer :=
  b.handle (draws s.handled) s.connection r

/-- The session after a request that was handed over. -/
def next (b : Broker) (draws : Draws) (s : Session) (r : Request) : Session :=
  ⟨(s.direct b draws r).connection, s.handled + 1⟩

/-! ### Sessions -/

/-- A length that the header of a frame holds is one that a message may have. -/
theorem lt_lengthBound {n : Nat} (h : n < Frame.sizeBound) : n < Wire.Format.lengthBound :=
  Nat.lt_trans h (by decide)

/-- A request that arrives is handed to the broker as it was sent. -/
theorem answer_encode (h : (encode Wire.request r).length < Frame.sizeBound) :
    s.answer b draws (encode Wire.request r)
      = ((s.direct b draws r).response, s.next b draws r, (s.direct b draws r).events) := by
  rw [answer, Wire.decode_encode_request (lt_lengthBound h)]
  rfl

/-- A response within the limit is sent as it is. -/
theorem fitted_of_short {a : Response} (h : (encode Wire.response a).length ≤ limit) :
    fitted limit a = encode Wire.response a := by
  simp only [fitted]
  rw [if_neg (by omega)]

/-- A response beyond the limit gives way to the notice of its length. -/
theorem fitted_of_long {a : Response} (h : limit < (encode Wire.response a).length) :
    fitted limit a = encode Wire.response (notice (encode Wire.response a).length) := by
  simp only [fitted]
  rw [if_pos (by omega)]

/-- The body that a session sends back for a request. -/
def back (b : Broker) (draws : Draws) (limit : Nat) (s : Session) (r : Request) : Bytes :=
  fitted limit (s.direct b draws r).response

/-- A request is answered if the body for it fits. -/
theorem reply_of_fits (h : (encode Wire.request r).length < Frame.sizeBound)
    (hback : Frame.Fits limit (s.back b draws limit r)) :
    s.reply b draws limit (encode Wire.request r)
      = (.ok (s.back b draws limit r), s.next b draws r, (s.direct b draws r).events) := by
  have hwrite := Frame.write_of_fits hback
  rw [back] at hwrite
  simp only [reply, answer_encode h, hwrite]
  rfl

/-- Else the session ends, though the request was handled. -/
theorem reply_of_not_fits (draws : Draws) (h : (encode Wire.request r).length < Frame.sizeBound)
    (hback : ¬ Frame.Fits limit (s.back b draws limit r)) :
    ∃ fault, s.reply b draws limit (encode Wire.request r)
      = (.error fault, s.next b draws r, (s.direct b draws r).events) := by
  have hwrite := Frame.write_of_not_fits hback
  rw [back] at hwrite
  simp only [reply, answer_encode h, hwrite]
  exact ⟨_, rfl⟩

end Session

/-! ### Clients -/

namespace Client

/-- A client finds in the body of a response what the response means. -/
theorem outcome_encode {a : Response}
    (h : (encode Wire.response a).length < Frame.sizeBound) :
    outcome (encode Wire.response a) = a.outcome := by
  rw [outcome, Wire.decode_encode_response (Session.lt_lengthBound h)]

/-- A result that a client is given is that of the response itself: a notice gives none. -/
theorem outcome_fitted {limit : Nat} {a : Response} {body : Body}
    (hfits : Frame.Fits limit (Session.fitted limit a))
    (hok : outcome (Session.fitted limit a) = .ok body) : a.outcome = .ok body := by
  have hword := hfits.word
  by_cases hshort : (encode Wire.response a).length ≤ limit
  · rw [Session.fitted_of_short hshort] at hok hword
    rwa [outcome_encode hword] at hok
  · -- the notice reports an error, so it cannot be what the client was given
    rw [Session.fitted_of_long (by omega)] at hok hword
    rw [outcome_encode hword] at hok
    cases hok

/-- What a response means is never that it was too long. -/
theorem outcome_ne_oversized (body : Bytes) (size limit : Nat) :
    outcome body ≠ .error (.protocol (.oversized size limit)) := by
  intro h
  unfold outcome at h
  split at h
  · next a _ =>
    unfold Response.outcome at h
    split at h
    · split at h <;> cases h
    · cases h
  · cases h

theorem frame_of_fits {limit : Nat} {r : Request}
    (h : Frame.Fits limit (encode Wire.request r)) :
    frame limit r = .ok (Frame.wrap (encode Wire.request r)) := by
  simp only [frame, Frame.write_of_fits h]

theorem frame_of_not_fits {limit : Nat} {r : Request}
    (h : ¬ Frame.Fits limit (encode Wire.request r)) :
    frame limit r
      = .error (.protocol (.unwritable (encode Wire.request r).length limit)) := by
  simp only [frame, Frame.write_of_not_fits h]

end Client

/-! ### Links -/

namespace Link

variable {b : Broker} {draws : Draws} {limits : LinkLimits} {l : Link} {s : Session}
  {r : Request}

/-- A link on which nothing was sent yet. -/
def opened (s : Session) : Link := { session := s }

/-- A link on which a request is on its way to the session. -/
def sending (s : Session) (r : Request) : Link :=
  { session := s, outbox := Frame.wrap (encode Wire.request r) }

/-- A link on which bytes are on their way to the client. -/
def bringing (s : Session) (b : Bytes) : Link := { session := s, inbox := b }

/-- Nothing is under way: the client has read all that the session wrote, and a session that
    still serves has read all that the client wrote. -/
structure Settled (l : Link) : Prop where
  inbox : l.inbox = []
  outbox : l.ending = none → l.outbox = []

theorem settled_opened (s : Session) : (opened s).Settled := ⟨rfl, fun _ => rfl⟩

theorem settled_of_over (hover : l.ending.isSome) (hinbox : l.inbox = []) : l.Settled := by
  refine ⟨hinbox, ?_⟩
  intro hserved
  rw [hserved] at hover
  cases hover

/-- A settled link whose session serves is as if nothing had been sent. -/
theorem Settled.eq_opened (h : l.Settled) (hserved : l.ending = none) : l = opened l.session := by
  obtain ⟨session, ending, outbox, inbox⟩ := l
  obtain rfl : ending = none := hserved
  obtain rfl : inbox = [] := h.inbox
  obtain rfl : outbox = [] := h.outbox rfl
  rfl

/-! ### The session's step -/

theorem advance_of_over (b : Broker) (draws : Draws) (limit : Nat) (hover : l.ending.isSome) :
    l.advance b draws limit = none := by
  rw [advance, if_pos hover]

theorem advance_of_outbox_nil (b : Broker) (draws : Draws) (limit : Nat)
    (houtbox : l.outbox = []) : l.advance b draws limit = none := by
  unfold advance
  rw [houtbox, Frame.read_nil]
  split <;> rfl

/-- A session that can read a request and fit an answer writes that answer. -/
theorem advance_of_fits {limit : Nat} (hread : Frame.Fits limit (encode Wire.request r))
    (hback : Frame.Fits limit (s.back b draws limit r)) :
    (sending s r).advance b draws limit
      = some (bringing (s.next b draws r) (Frame.wrap (s.back b draws limit r)),
          (s.direct b draws r).events) := by
  have hframe := Frame.read_of_fits hread []
  rw [List.append_nil] at hframe
  simp only [advance, sending, hframe, Session.reply_of_fits hread.word hback]
  rfl

/-- A session that cannot is over, and has written nothing. -/
theorem advance_of_not_fits (s : Session) {limit : Nat}
    (hword : (encode Wire.request r).length < Frame.sizeBound)
    (h : ¬ (Frame.Fits limit (encode Wire.request r)
      ∧ Frame.Fits limit (s.back b draws limit r))) :
    ∃ next events, (sending s r).advance b draws limit = some (next, events)
      ∧ next.ending.isSome ∧ next.inbox = [] := by
  by_cases hshort : (encode Wire.request r).length ≤ limit
  · have hread : Frame.Fits limit (encode Wire.request r) := ⟨hshort, hword⟩
    have hframe := Frame.read_of_fits hread []
    rw [List.append_nil] at hframe
    obtain ⟨fault, hreply⟩ :=
      Session.reply_of_not_fits draws hword fun hback => h ⟨hread, hback⟩
    simp only [advance, sending, hframe, hreply]
    exact ⟨_, _, rfl, rfl, rfl⟩
  · have hlong : limit < (encode Wire.request r).length := by omega
    have hframe := Frame.read_of_oversized hlong hword []
    rw [List.append_nil] at hframe
    simp only [advance, sending, hframe]
    exact ⟨_, _, rfl, rfl, rfl⟩

/-- A session that has no step to take does not get ahead. -/
theorem serve_of_advance (limit n : Nat) (h : l.advance b draws limit = none) :
    l.serve b draws limit n = (l, []) := by
  cases n with
  | zero => rfl
  | succ n => simp only [serve, h]

/-! ### The client's part -/

/-- A client with nothing to read waits for a session that serves. -/
theorem receive_of_waiting (limit : Nat) (limits : LinkLimits) (hserved : l.ending = none)
    (hinbox : l.inbox = []) : Client.receive limit (l.tail limits) l.inbox = none := by
  rw [hinbox, tail, hserved]
  rfl

/-- What a client finds behind a session that is over. -/
theorem receive_of_over (limits : LinkLimits) (limit : Nat) (hover : l.ending.isSome)
    (hinbox : l.inbox = []) :
    ∃ fault, Client.receive limit (l.tail limits) l.inbox = some (.error fault, [])
      ∧ ((∃ cause, fault = .transport cause) ∨ fault = .unreachable .closed) := by
  obtain ⟨ending, hending⟩ := Option.isSome_iff_exists.mp hover
  rw [hinbox, tail, hending]
  -- only a session that left something unread can break the stream
  cases l.outbox with
  | nil => exact ⟨_, rfl, .inr rfl⟩
  | cons x rest =>
    cases limits.readFault with
    | none => exact ⟨_, rfl, .inr rfl⟩
    | some cause => exact ⟨_, rfl, .inl ⟨cause, rfl⟩⟩

/-- A body within the client's limit is read whole. -/
theorem receive_of_fits (s : Session) (limits : LinkLimits) {limit : Nat} {body : Bytes}
    (h : Frame.Fits limit body) :
    Client.receive limit ((bringing s (Frame.wrap body)).tail limits) (Frame.wrap body)
      = some (Client.outcome body, []) := by
  have hframe := Frame.read_of_fits h []
  rw [List.append_nil] at hframe
  simp only [Client.receive, hframe]

/-- Of a body beyond it the length is read, and the body is left. -/
theorem receive_of_oversized (s : Session) (limits : LinkLimits) {limit : Nat} {body : Bytes}
    (hlong : limit < body.length) (hword : body.length < Frame.sizeBound) :
    Client.receive limit ((bringing s (Frame.wrap body)).tail limits) (Frame.wrap body)
      = some (.error (.protocol (.oversized body.length limit)), body) := by
  have hframe := Frame.read_of_oversized hlong hword []
  rw [List.append_nil, List.append_nil] at hframe
  simp only [Client.receive, hframe]

/-- A client that waits reads what one step of the session brings. -/
theorem await_of_advance {next : Link} {events : List Event} {result : Except Fault Body}
    {rest : Bytes} (hwaits : Client.receive limits.client (l.tail limits) l.inbox = none)
    (hstep : l.advance b draws limits.server = some (next, events))
    (hreceive : Client.receive limits.client (next.tail limits) next.inbox = some (result, rest)) :
    l.await b draws limits = (some result, { next with inbox := rest }, events) := by
  have hread : next.await b draws limits = (some result, { next with inbox := rest }, []) := by
    rw [await, hreceive]
  rw [await, hwaits]
  dsimp only
  split
  · next hnone =>
    rw [hstep] at hnone
    cases hnone
  · next next' events' hsome =>
    rw [hstep] at hsome
    obtain ⟨rfl, rfl⟩ := Prod.mk.inj (Option.some.inj hsome)
    rw [hread, List.append_nil]

/-- A request on a link where nothing is under way is answered by one step of the session. The
    session has no other step to take then, however far it may get ahead. -/
theorem exchange_of_advance {next : Link} {events : List Event} {result : Except Fault Body}
    {rest : Bytes} (hsent : Frame.Fits limits.client (encode Wire.request r))
    (hstep : (sending s r).advance b draws limits.server = some (next, events))
    (hreceive : Client.receive limits.client (next.tail limits) next.inbox = some (result, rest))
    (hdone : ({ next with inbox := rest } : Link).advance b draws limits.server = none) :
    (opened s).exchange b draws limits r = (some result, { next with inbox := rest }, events) := by
  have hwaits := @receive_of_waiting (sending s r) limits.client limits rfl rfl
  have hsending : { opened s with outbox := (opened s).outbox ++ Frame.wrap (encode Wire.request r) }
      = sending s r := rfl
  simp only [exchange, Client.frame_of_fits hsent, hsending, await_of_advance hwaits hstep hreceive,
    serve_of_advance _ _ hdone, List.append_nil]
  rfl

/-- All that can come of a request on a link where nothing is under way: what the client is
    given, and the link afterwards. -/
inductive Exchanged (b : Broker) (draws : Draws) (limits : LinkLimits) (l : Link) (r : Request) :
    Option (Except Fault Body) → Link → Prop where
  /-- The request is too long for the client, which sends nothing. -/
  | unsent (hsent : ¬ Frame.Fits limits.client (encode Wire.request r)) :
    Exchanged b draws limits l r
      (some (.error (.protocol
        (.unwritable (encode Wire.request r).length limits.client)))) l
  /-- The session is over, from now on or since before, and no answer comes. -/
  | unanswered (fault : Fault) (after : Link)
      (hsent : Frame.Fits limits.client (encode Wire.request r))
      (hover : l.ending.isSome ∨ ¬ (Frame.Fits limits.server (encode Wire.request r)
        ∧ Frame.Fits limits.server (l.session.back b draws limits.server r)))
      (hfault : (∃ cause, fault = .transport cause) ∨ fault = .unreachable .closed)
      (hending : after.ending.isSome) (hinbox : after.inbox = []) :
    Exchanged b draws limits l r (some (.error fault)) after
  /-- The answer is read whole. -/
  | answered (hsent : Frame.Fits limits.client (encode Wire.request r))
      (hserved : l.ending = none)
      (hback : Frame.Fits limits.server (l.session.back b draws limits.server r))
      (hshort : (l.session.back b draws limits.server r).length ≤ limits.client) :
    Exchanged b draws limits l r
      (some (Client.outcome (l.session.back b draws limits.server r)))
      (opened (l.session.next b draws r))
  /-- The answer is refused for its length, and its body is left to be read. -/
  | refused (hsent : Frame.Fits limits.client (encode Wire.request r))
      (hserved : l.ending = none)
      (hback : Frame.Fits limits.server (l.session.back b draws limits.server r))
      (hlong : limits.client < (l.session.back b draws limits.server r).length) :
    Exchanged b draws limits l r
      (some (.error (.protocol
        (.oversized (l.session.back b draws limits.server r).length limits.client))))
      (bringing (l.session.next b draws r) (l.session.back b draws limits.server r))

/-- Nothing else can come of a request. In particular its sender never waits for ever. -/
theorem exchange_cases (b : Broker) (draws : Draws) (limits : LinkLimits) (r : Request)
    (hsettled : l.Settled) :
    Exchanged b draws limits l r (l.exchange b draws limits r).1
      (l.exchange b draws limits r).2.1 := by
  by_cases hsent : Frame.Fits limits.client (encode Wire.request r)
  · -- the request is written; a session that was over before reads nothing of it
    by_cases hover : l.ending.isSome
    · simp only [exchange, Client.frame_of_fits hsent, hover, if_true]
      exact .unanswered _ l hsent (.inl hover) (.inl ⟨_, rfl⟩) hover hsettled.inbox
    have hserved : l.ending = none := by
      cases hending : l.ending with
      | none => rfl
      | some ending => rw [hending] at hover; exact absurd rfl hover
    rw [hsettled.eq_opened hserved]
    generalize l.session = s
    by_cases hfits : Frame.Fits limits.server (encode Wire.request r)
        ∧ Frame.Fits limits.server (s.back b draws limits.server r)
    · -- the session answers, and the frame of its answer is all there is to read
      obtain ⟨hread, hback⟩ := hfits
      have hstep := advance_of_fits hread hback
      by_cases hshort : (s.back b draws limits.server r).length ≤ limits.client
      · have htaken : Frame.Fits limits.client (s.back b draws limits.server r) :=
          ⟨hshort, hback.word⟩
        have hreceive := receive_of_fits (s.next b draws r) limits htaken
        rw [exchange_of_advance hsent hstep hreceive (advance_of_outbox_nil b draws _ rfl)]
        exact .answered hsent rfl hback hshort
      · have hlong : limits.client < (s.back b draws limits.server r).length := by omega
        have hreceive := receive_of_oversized (s.next b draws r) limits hlong hback.word
        rw [exchange_of_advance hsent hstep hreceive (advance_of_outbox_nil b draws _ rfl)]
        exact .refused hsent rfl hback hlong
    · -- the session ends instead, and the client finds the end of the stream
      obtain ⟨next, events, hstep, hending, hinbox⟩ := advance_of_not_fits s hsent.word hfits
      obtain ⟨fault, hreceive, hfault⟩ := receive_of_over limits limits.client hending hinbox
      rw [exchange_of_advance hsent hstep hreceive (advance_of_over b draws _ hending)]
      exact .unanswered _ _ hsent (.inr hfits) hfault hending rfl
  · simp only [exchange, Client.frame_of_not_fits hsent]
    exact .unsent hsent

/-! ### Runs of calls -/

/-- A call gives what the exchange of its request gives it. -/
theorem call_eq (b : Broker) (draws : Draws) (limits : LinkLimits) (l : Link) (c : Call) :
    (l.call b draws limits c).1
        = (l.exchange b draws limits c.request).1.map (·.bind c.value)
      ∧ (l.call b draws limits c).2.1 = (l.exchange b draws limits c.request).2.1 := by
  unfold call
  split
  · next body after events hexchange => rw [hexchange]; exact ⟨rfl, rfl⟩
  · next fault after events hexchange => rw [hexchange]; exact ⟨rfl, rfl⟩
  · next after events hexchange => rw [hexchange]; exact ⟨rfl, rfl⟩

/-- A request sent as it is gives the result as it is. -/
theorem call_send (b : Broker) (draws : Draws) (limits : LinkLimits) (l : Link) (r : Request) :
    (l.call b draws limits (.send r)).1
      = (l.exchange b draws limits r).1.map (·.map .body) := by
  rw [(call_eq b draws limits l (.send r)).1]
  show (l.exchange b draws limits r).1.map _ = _
  cases (l.exchange b draws limits r).1 with
  | none => rfl
  | some result => cases result <;> rfl

/-- The link after calls. -/
def after (b : Broker) (draws : Draws) (limits : LinkLimits) (l : Link) (calls : List Call) :
    Link :=
  (l.run b draws limits calls).2.1

/-- What a call of a run gives. -/
def given (b : Broker) (draws : Draws) (limits : LinkLimits) (l : Link) (calls : List Call)
    (i : Nat) : Option (Option (Except Fault Value)) :=
  (l.run b draws limits calls).1[i]?

theorem after_cons (c : Call) (calls : List Call) :
    l.after b draws limits (c :: calls)
      = (l.call b draws limits c).2.1.after b draws limits calls := rfl

/-- A call of a run is made on the link that the earlier calls leave. -/
theorem given_eq {calls : List Call} {i : Nat} {c : Call} (h : calls[i]? = some c) :
    l.given b draws limits calls i
      = some ((l.after b draws limits (calls.take i)).call b draws limits c).1 := by
  induction calls generalizing l i with
  | nil => cases h
  | cons d rest ih =>
    cases i with
    | zero => cases h; rfl
    | succ i =>
      rw [List.getElem?_cons_succ] at h
      rw [List.take_succ_cons, after_cons, ← ih h]
      rfl

theorem after_take_succ {calls : List Call} {i : Nat} {c : Call} (h : calls[i]? = some c) :
    l.after b draws limits (calls.take (i + 1))
      = ((l.after b draws limits (calls.take i)).call b draws limits c).2.1 := by
  induction calls generalizing l i with
  | nil => cases h
  | cons d rest ih =>
    cases i with
    | zero => cases h; rfl
    | succ i =>
      rw [List.getElem?_cons_succ] at h
      rw [List.take_succ_cons, List.take_succ_cons, after_cons, after_cons, ih h]

end Link

end KeyBroker
