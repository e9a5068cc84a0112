import KeyBroker.Proofs.Access.Handling
import KeyBroker.Proofs.Stream.Order

/-! # Errors on their way to the caller

  The broker decides an error and gives it a class. What tells the caller is a response, and
  its length depends on the caller's own words, such as the name of a set. A response within
  the limit goes out as it is, with its class and its message. One beyond the limit is not
  shortened: the notice of its length goes out in its place, and that is of the class
  malformed, whatever the broker decided.
-/

namespace KeyBroker

open Wire (encode decode)

/-! ### Responses that report errors -/

/-- A response with a class of errors is one that reports an error, with a message. -/
theorem Broker.failure_of_kind {b : Broker} {draw : Draw} {c : Connection} {r : Request}
    {kind : FaultKind} (h : (b.handle draw c r).response.kind = some kind) :
    ∃ message, (b.handle draw c r).response = .failure kind message := by
  cases hserve : (b.serve draw c r).1 with
  | ok body =>
    rw [Broker.handle_response_of_ok hserve] at h
    cases h
  | error fault =>
    rw [Broker.handle_response_of_error hserve] at h ⊢
    obtain rfl : fault.kind = kind := Option.some.inj h
    exact ⟨fault.message, rfl⟩

namespace Session

variable {b : Broker} {draws : Draws} {limit : Nat} {s : Session} {body : Bytes} {r : Request}
  {response : Response} {bodies before : List Bytes}

/-! ### What arrives -/

/-- What arrives in place of a response: itself, or the notice of its length. -/
def delivered (limit : Nat) (response : Response) : Response :=
  if (encode Wire.response response).length ≤ limit then response
  else notice (encode Wire.response response).length

theorem fitted_eq_encode_delivered :
    fitted limit response = encode Wire.response (delivered limit response) := by
  by_cases hshort : (encode Wire.response response).length ≤ limit
  · rw [fitted_of_short hshort, delivered, if_pos hshort]
  · rw [fitted_of_long (Nat.lt_of_not_le hshort), delivered, if_neg hshort]

theorem decode_fitted (h : sendable limit response = true) :
    decode Wire.response (fitted limit response) = .ok (delivered limit response) := by
  have hfits : Frame.Fits limit (fitted limit response) := of_decide_eq_true h
  rw [fitted_eq_encode_delivered] at hfits ⊢
  exact Wire.decode_encode_response (lt_lengthBound hfits.word)

/-- A class of errors arrives as it was decided if the response is within the limit. Beyond
    it the class is malformed, so just that class arrives. -/
theorem kind_delivered_iff {kind : FaultKind} (h : response.kind = some kind) :
    (delivered limit response).kind = some kind
      ↔ (encode Wire.response response).length ≤ limit ∨ kind = .malformed := by
  by_cases hshort : (encode Wire.response response).length ≤ limit
  · rw [delivered, if_pos hshort]
    exact ⟨fun _ => .inl hshort, fun _ => h⟩
  · rw [delivered, if_neg hshort]
    show some FaultKind.malformed = some kind ↔ _
    rw [Option.some.injEq]
    exact ⟨fun hkind => .inr hkind.symm, fun hor => (hor.resolve_left hshort).symm⟩

/-! ### One frame among others -/

/-- What a list has behind a start of its members that pass belongs to that start, if it
    passes itself. -/
theorem getElem?_takeWhile_of_reached {α : Type} {p : α → Bool} {l : List α} {k : Nat} {a : α}
    (hreached : k ≤ (l.takeWhile p).length) (hat : l[k]? = some a) (hp : p a = true) :
    (l.takeWhile p)[k]? = some a := by
  induction l generalizing k with
  | nil => cases hat
  | cons first rest ih =>
    cases k with
    | zero =>
      obtain rfl : first = a := Option.some.inj hat
      rw [List.takeWhile_cons_of_pos hp]
      rfl
    | succ k =>
      by_cases hfirst : p first = true
      · rw [List.takeWhile_cons_of_pos hfirst] at hreached ⊢
        exact ih (Nat.le_of_succ_le_succ hreached) hat
      · rw [List.takeWhile_cons_of_neg hfirst] at hreached
        cases hreached

/-- Where a run gets to a response that can be sent, what is sent for it is its reply. -/
theorem getElem?_replies_of_reached {last : Ending} {k : Nat}
    (hreached : k ≤ (s.run b draws limit last bodies).replies.length)
    (hat : (s.responses b draws bodies)[k]? = some response)
    (hsendable : sendable limit response = true) :
    (s.run b draws limit last bodies).replies[k]? = some (fitted limit response) := by
  rw [(run_responses last bodies).1] at hreached ⊢
  rw [List.length_map] at hreached
  rw [List.getElem?_map, getElem?_takeWhile_of_reached hreached hat hsendable]
  rfl

/-- A frame between others is one body of the run that serves them. -/
theorem serve_among (hbefore : ∀ earlier ∈ before, Frame.Fits limit earlier)
    (hbody : Frame.Fits limit body) (rest : Bytes) :
    s.serve b draws limit (before.flatMap Frame.wrap ++ (Frame.wrap body ++ rest))
      = s.run b draws limit (endingOf limit (Frame.readAll limit rest).2)
          (before ++ body :: (Frame.readAll limit rest).1) := by
  rw [serve, Frame.readAll_flatMap_wrap_append hbefore,
    Frame.readAll_of_body (Frame.read_of_fits hbody rest)]

/-- Its response is the one to its request, on the connection that the frames before it
    leave. -/
theorem getElem?_responses_among (hr : Frame.Fits limit (encode Wire.request r))
    (later : List Bytes) :
    (s.responses b draws (before ++ encode Wire.request r :: later))[before.length]?
      = some ((s.past b draws (requestsIn before)).direct b draws r).response := by
  have hdecode : decode Wire.request (encode Wire.request r) = .ok r :=
    Wire.decode_encode_request (lt_lengthBound hr.word)
  have hat : (before ++ encode Wire.request r :: later)[before.length]?
      = some (encode Wire.request r) := by
    rw [List.getElem?_append_right (Nat.le_refl _), Nat.sub_self]
    rfl
  rw [getElem?_responses, hat, List.take_left, Option.map_some, responseTo, hdecode]

/-- What a client is given for a request is what the response that arrives means to it. -/
theorem exchange_eq_delivered {limits : LinkLimits} (hclient : limits.client = limit)
    (hserver : limits.server = limit) (hr : Frame.Fits limit (encode Wire.request r))
    (hsendable : sendable limit (s.direct b draws r).response = true) :
    ((Link.opened s).exchange b draws limits r).1
      = some (delivered limit (s.direct b draws r).response).outcome := by
  have hfits : Frame.Fits limit (s.back b draws limit r) := of_decide_eq_true hsendable
  subst hclient
  rw [(@Link.exchange_of_back b draws limits s r hr (hserver ▸ hr) (hserver.symm ▸ hfits)
    (hserver.symm ▸ hfits.short)).1, hserver]
  have hback : s.back b draws limits.client r
      = encode Wire.response (delivered limits.client (s.direct b draws r).response) :=
    fitted_eq_encode_delivered
  rw [hback] at hfits ⊢
  rw [Client.outcome_encode hfits.word]

/-- An error that the broker decides reaches the caller with its class if the response that
    reports it is within the limit. On a stream of frames within the limit, whatever stands
    before a request and behind it, the reply to it is that response or the notice of its
    length, and a client with the same limit is given what the one that arrives means. A
    response within the limit is written if the session gets to it. -/
theorem error_kept_within_limit (b : Broker) (draws : Draws) (s : Session) (limit : Nat)
    (before : List Bytes) (r : Request) (rest : Bytes) (kind : FaultKind)
    (hbefore : ∀ body ∈ before, Frame.Fits limit body)
    (hr : Frame.Fits limit (encode Wire.request r))
    (hkind : ((s.past b draws (requestsIn before)).direct b draws r).response.kind = some kind) :
    let now := s.past b draws (requestsIn before)
    let response := (now.direct b draws r).response
    let size := (encode Wire.response response).length
    let arriving := if size ≤ limit then response else notice size
    let run := s.serve b draws limit
      (before.flatMap Frame.wrap ++ (Frame.wrap (encode Wire.request r) ++ rest))
    (∃ message, response = .failure kind message
        ∧ size = 23 + (Text.Utf8.encode kind.name).length + (Text.Utf8.encode message).length)
      ∧ (arriving.kind = some kind ↔ size ≤ limit ∨ kind = .malformed)
      ∧ (∀ out, run.replies[before.length]? = some out →
        decode Wire.response out = .ok arriving)
      ∧ (before.length ≤ run.replies.length → size ≤ limit → size < Frame.sizeBound →
        run.replies[before.length]? = some (encode Wire.response response))
      ∧ ∀ limits : LinkLimits, limits.client = limit → limits.server = limit →
        Frame.Fits limit (encode Wire.response arriving) →
        ((Link.opened now).exchange b draws limits r).1 = some arriving.outcome := by
  intro now response size arriving run
  obtain ⟨message, hfailure⟩ := Broker.failure_of_kind hkind
  have harriving : arriving = delivered limit response := rfl
  have hrun : run = s.run b draws limit (endingOf limit (Frame.readAll limit rest).2)
      (before ++ encode Wire.request r :: (Frame.readAll limit rest).1) :=
    serve_among hbefore hr rest
  have hat : (s.responses b draws
      (before ++ encode Wire.request r :: (Frame.readAll limit rest).1))[before.length]?
        = some response := getElem?_responses_among hr _
  refine ⟨⟨message, hfailure, ?_⟩, kind_delivered_iff hkind, ?_, ?_, ?_⟩
  · show (encode Wire.response (now.direct b draws r).response).length = _
    rw [show (now.direct b draws r).response = .failure kind message from hfailure]
    exact Wire.length_encode_failure kind message
  -- what is written at its place is written for it, as the places tell
  · intro out hout
    rw [hrun] at hout
    obtain ⟨found, hfound, hsendable, rfl⟩ := of_getElem?_replies hout
    obtain rfl : response = found := Option.some.inj (hat.symm.trans hfound)
    exact decode_fitted hsendable
  · intro hreached hshort hword
    have hsendable : sendable limit response = true := by
      apply decide_eq_true
      rw [fitted_of_short hshort]
      exact ⟨hshort, hword⟩
    rw [hrun] at hreached ⊢
    rw [getElem?_replies_of_reached hreached hat hsendable, fitted_of_short hshort]
  · intro limits hclient hserver hfits
    have hsendable : sendable limit response = true := by
      apply decide_eq_true
      rw [fitted_eq_encode_delivered]
      exact hfits
    exact exchange_eq_delivered hclient hserver hr hsendable

/-- Within 90 bytes, which is what a denial takes, a denial arrives as such, also behind a
    ping and a body that is no request. -/
theorem error_kept_within_limit_of_denial :
    let b : Broker := ⟨.empty, fun _ _ => none, {}⟩
    let draws : Draws := fun _ => ⟨Vector.replicate 12 0, Vector.replicate 64 0, 1⟩
    let s : Session := { connection := { id := 1, caller := some ⟨1000, 100, none⟩ } }
    let before := [encode Wire.request .ping, [7]]
    let r : Request := { command := .operate .sign, set := "a" }
    let run := s.serve b draws 90
      (before.flatMap Frame.wrap ++ (Frame.wrap (encode Wire.request r) ++ [0]))
    (∀ body ∈ before, Frame.Fits 90 body) ∧ Frame.Fits 90 (encode Wire.request r)
      ∧ ((s.past b draws (requestsIn before)).direct b draws r).response.kind = some .denied
      ∧ run.replies.length = 3
      ∧ (∀ out, run.replies[2]? = some out →
        ∃ arriving, decode Wire.response out = .ok arriving ∧ arriving.kind = some .denied)
      ∧ ((Link.opened (s.past b draws (requestsIn before))).exchange b draws
          { client := 90, server := 90 } r).1
        = some (.error (.remote .denied
          "Permission denied: uid=1000 gid=100 may not operate key set a")) := by
  intro b draws s before r run
  have hbefore : ∀ body ∈ before, Frame.Fits 90 body := by decide +kernel
  have hr : Frame.Fits 90 (encode Wire.request r) := by decide +kernel
  have hkind : ((s.past b draws (requestsIn before)).direct b draws r).response.kind
      = some .denied := by decide +kernel
  have hsize : (encode Wire.response
      ((s.past b draws (requestsIn before)).direct b draws r).response).length ≤ 90 := by
    decide +kernel
  obtain ⟨-, hiff, harrives, -, hclient⟩ :=
    error_kept_within_limit b draws s 90 before r [0] .denied hbefore hr hkind
  refine ⟨hbefore, hr, hkind, by decide +kernel, ?_, ?_⟩
  · intro out hout
    exact ⟨_, harrives out hout, hiff.mpr (.inl hsize)⟩
  · rw [hclient _ rfl rfl (by decide +kernel), if_pos hsize]
    decide +kernel

/-- One byte less, and the same denial is told as a malformed request. -/
theorem denial_told_as_malformed :
    ¬ ∀ (b : Broker) (draws : Draws) (s : Session) (limit : Nat) (r : Request)
        (kind : FaultKind), (encode Wire.request r).length ≤ limit →
        (s.direct b draws r).response.kind = some kind →
        ∀ out ∈ (s.serve b draws limit (Frame.wrap (encode Wire.request r))).replies,
          ∃ sent, decode Wire.response out = .ok sent ∧ sent.kind = some kind := by
  intro h
  let b : Broker := ⟨.empty, fun _ _ => none, {}⟩
  let draws : Draws := fun _ => ⟨Vector.replicate 12 0, Vector.replicate 64 0, 1⟩
  let s : Session := { connection := { id := 1, caller := some ⟨1000, 100, none⟩ } }
  let r : Request := { command := .operate .sign, set := "a" }
  have hreplies : (s.serve b draws 89 (Frame.wrap (encode Wire.request r))).replies
      = [encode Wire.response (notice 90)] := by decide +kernel
  obtain ⟨sent, hsent, hdenied⟩ := h b draws s 89 r .denied (by decide +kernel)
    (by decide +kernel) _ (by rw [hreplies]; exact List.mem_singleton_self _)
  have hnotice : decode Wire.response (encode Wire.response (notice 90)) = .ok (notice 90) := by
    decide +kernel
  rw [hnotice] at hsent
  obtain rfl := Except.ok.inj hsent
  cases hdenied

end Session

end KeyBroker
