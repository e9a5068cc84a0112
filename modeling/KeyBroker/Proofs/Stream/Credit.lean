import KeyBroker.Proofs.Stream.Direct

/-! # Which response a call is credited with

  Requests carry no numbers, so a call takes the first frame that it finds. That frame
  answers its own request as long as the client has read every earlier answer to its end.
  The invariant is that nothing is under way between two calls. One thing breaks it: an
  answer beyond the client's limit is refused when only its header is taken, and later
  calls read its body as if it were frames. They need not wait for the session then, which
  falls behind.
-/

namespace KeyBroker

open Wire (encode)

/-! ### Calls -/

/-- What a call makes of a result is never that an answer was too long. -/
theorem Call.value_ne_oversized (c : Call) (body : Body) (size limit : Nat) :
    c.value body ≠ .error (.protocol (.oversized size limit)) := by
  intro h
  unfold Call.value Call.value.unexpected at h
  split at h
  all_goals first
    | cases h
    | split at h <;> cases h

namespace Link

variable {b : Broker} {draws : Draws} {limits : LinkLimits} {l : Link}

/-! ### Refused answers -/

/-- A call is refused its answer: its request was sent, and what came back was a frame
    beyond the client's limit. -/
def Refused (limits : LinkLimits) (c : Call) (result : Option (Except Fault Value)) : Prop :=
  Frame.Fits limits.client (encode Wire.request c.request)
    ∧ ∃ size, result = some (.error (.protocol (.oversized size limits.client)))

/-- What a call on a link where nothing is under way means for the next ones: what it is
    given is the outcome of the response to its own request, and either nothing is under way
    again, or the call was refused its answer and the body of that answer is left. -/
structure Aligned (b : Broker) (draws : Draws) (limits : LinkLimits) (l : Link) (c : Call)
    (result : Option (Except Fault Value)) (next : Link) : Prop where
  /-- A value is credited to the response to the call's own request. -/
  own : ∀ v, result = some (.ok v) → l.ending = none
    ∧ next = opened (l.session.next b draws c.request)
    ∧ ∃ body, (l.session.direct b draws c.request).response.outcome = .ok body
      ∧ c.value body = .ok v
  /-- A session that serves afterwards has handled the request, if it was sent. -/
  handled : next.ending = none → l.ending = none
    ∧ next.session = l.session.past b draws ([c.request].filter (Client.sends limits.client))
  /-- Without a refusal nothing is under way. -/
  settled : ¬ Refused limits c result → next.Settled
  /-- A refused answer is left, all but its header. -/
  left : Refused limits c result → l.ending = none
    ∧ limits.client < next.inbox.length
    ∧ next.inbox.length ≤ limits.server
    ∧ next.inbox = l.session.back b draws limits.server c.request

/-- The session after a request, if it is sent. -/
theorem past_filter_of_fits (s : Session) {r : Request}
    (hsent : Frame.Fits limits.client (encode Wire.request r)) :
    s.past b draws ([r].filter (Client.sends limits.client)) = s.next b draws r := by
  have hsends : Client.sends limits.client r = true := decide_eq_true hsent
  rw [List.filter_cons_of_pos hsends]
  rfl

theorem aligned_call (hsettled : l.Settled) (c : Call) :
    l.Aligned b draws limits c (l.call b draws limits c).1 (l.call b draws limits c).2.1 := by
  obtain ⟨hresult, hafter⟩ := call_eq b draws limits l c
  rw [hresult, hafter]
  have hcases := exchange_cases b draws limits c.request hsettled
  generalize (l.exchange b draws limits c.request).1 = result at hcases ⊢
  generalize (l.exchange b draws limits c.request).2.1 = next at hcases ⊢
  cases hcases with
  | unsent hsent =>
    refine ⟨?_, ?_, ?_, ?_⟩
    · intro v hv
      cases hv
    · intro hserved
      have hnot : ¬ Client.sends limits.client c.request = true :=
        fun h => hsent (of_decide_eq_true h)
      rw [List.filter_cons_of_neg hnot]
      exact ⟨hserved, rfl⟩
    · intro _
      exact hsettled
    · intro hrefused
      exact absurd hrefused.1 hsent
  | unanswered fault after hsent hover hfault hending hinbox =>
    refine ⟨?_, ?_, ?_, ?_⟩
    · intro v hv
      cases hv
    · intro hserved
      rw [hserved] at hending
      cases hending
    · intro _
      exact settled_of_over hending hinbox
    · rintro ⟨_, size, hsize⟩
      obtain ⟨cause, rfl⟩ | rfl := hfault
      · cases hsize
      · cases hsize
  | answered hsent hserved hback hshort =>
    -- what was read is the body sent for this very request, be it a response or a notice
    refine ⟨?_, ?_, ?_, ?_⟩
    · intro v hv
      refine ⟨hserved, rfl, ?_⟩
      cases houtcome : Client.outcome (l.session.back b draws limits.server c.request) with
      | error fault =>
        rw [houtcome] at hv
        cases hv
      | ok body =>
        rw [houtcome] at hv
        injection hv with hv
        exact ⟨body, Client.outcome_fitted hback houtcome, hv⟩
    · intro _
      exact ⟨hserved, (past_filter_of_fits l.session hsent).symm⟩
    · intro _
      exact settled_opened _
    · -- neither the response nor the call's reading of it reports a length
      rintro ⟨_, size, hsize⟩
      cases houtcome : Client.outcome (l.session.back b draws limits.server c.request) with
      | error fault =>
        rw [houtcome] at hsize
        injection hsize with hsize
        injection hsize with hsize
        rw [hsize] at houtcome
        exact absurd houtcome (Client.outcome_ne_oversized _ _ _)
      | ok body =>
        rw [houtcome] at hsize
        injection hsize with hsize
        exact absurd hsize (c.value_ne_oversized body _ _)
  | refused hsent hserved hback hlong =>
    refine ⟨?_, ?_, ?_, ?_⟩
    · intro v hv
      cases hv
    · intro _
      exact ⟨hserved, (past_filter_of_fits l.session hsent).symm⟩
    · intro hclear
      exact absurd ⟨hsent, _, rfl⟩ hclear
    · intro _
      exact ⟨hserved, hlong, hback.short, rfl⟩

/-! ### Runs from the start -/

variable {s : Session} {calls : List Call} {i : Nat} {c : Call}

/-- The requests that are sent by the calls before a place. -/
def sentBefore (limits : LinkLimits) (calls : List Call) (i : Nat) : List Request :=
  ((calls.map Call.request).take i).filter (Client.sends limits.client)

theorem sentBefore_succ (hcall : calls[i]? = some c) :
    sentBefore limits calls (i + 1)
      = sentBefore limits calls i ++ [c.request].filter (Client.sends limits.client) := by
  have hrequest : (calls.map Call.request)[i]? = some c.request := by
    rw [List.getElem?_map, hcall]
    rfl
  rw [sentBefore, take_succ_filter hrequest, List.filter_cons]
  rfl

/-- Later calls come to what is sent, and take nothing away. -/
theorem sentBefore_of_le {j : Nat} (h : i ≤ j) :
    ∃ more, sentBefore limits calls j = sentBefore limits calls i ++ more := by
  obtain ⟨n, rfl⟩ := Nat.exists_eq_add_of_le h
  refine ⟨(((calls.map Call.request).drop i).take n).filter (Client.sends limits.client), ?_⟩
  rw [sentBefore, List.take_add, List.filter_append]
  rfl

/-- The call at a place in a run is refused its answer. -/
def RefusedAt (b : Broker) (draws : Draws) (limits : LinkLimits) (s : Session)
    (calls : List Call) (i : Nat) : Prop :=
  ∃ c result, calls[i]? = some c
    ∧ (opened s).given b draws limits calls i = some result ∧ Refused limits c result

theorem refusedAt_iff (hcall : calls[i]? = some c) :
    RefusedAt b draws limits s calls i
      ↔ Refused limits c
          (((opened s).after b draws limits (calls.take i)).call b draws limits c).1 := by
  have hgiven : (opened s).given b draws limits calls i = _ := given_eq hcall
  constructor
  · rintro ⟨d, result, hd, hresult, hrefused⟩
    rw [hcall] at hd
    rw [hgiven] at hresult
    cases hd
    cases hresult
    exact hrefused
  · intro hrefused
    exact ⟨c, _, hcall, hgiven, hrefused⟩

/-- As long as no call is refused its answer, nothing is under way after any, and a session
    that still serves has handled what was sent, and nothing else. -/
theorem settled_of_clear (hle : i ≤ calls.length)
    (hclear : ∀ j < i, ¬ RefusedAt b draws limits s calls j) :
    ((opened s).after b draws limits (calls.take i)).Settled
      ∧ (((opened s).after b draws limits (calls.take i)).ending = none →
        ((opened s).after b draws limits (calls.take i)).session
          = s.past b draws (sentBefore limits calls i)) := by
  induction i with
  | zero => exact ⟨settled_opened s, fun _ => rfl⟩
  | succ i ih =>
    have hcall : calls[i]? = some calls[i] := List.getElem?_eq_getElem hle
    obtain ⟨hsettled, hsession⟩ := ih (by omega) fun j hj => hclear j (by omega)
    have hnot := hclear i (by omega)
    rw [refusedAt_iff hcall] at hnot
    have haligned := @aligned_call b draws limits _ hsettled calls[i]
    rw [after_take_succ hcall]
    refine ⟨haligned.settled hnot, ?_⟩
    intro hserves
    obtain ⟨hserved, hhandled⟩ := haligned.handled hserves
    rw [hhandled, hsession hserved, sentBefore_succ hcall, Session.past_append]

/-- So as long as it serves, the link is that of the session that was handed what was sent. -/
theorem opened_of_clear (hle : i ≤ calls.length)
    (hclear : ∀ j < i, ¬ RefusedAt b draws limits s calls j)
    (hserves : ((opened s).after b draws limits (calls.take i)).ending = none) :
    (opened s).after b draws limits (calls.take i)
      = opened (s.past b draws (sentBefore limits calls i)) := by
  obtain ⟨hsettled, hsession⟩ := settled_of_clear hle hclear
  rw [hsettled.eq_opened hserves, hsession hserves]

/-- Up to the first refused answer every call is aligned. -/
theorem aligned_of_clear (hcall : calls[i]? = some c)
    (hclear : ∀ j < i, ¬ RefusedAt b draws limits s calls j) :
    ((opened s).after b draws limits (calls.take i)).Aligned b draws limits c
      (((opened s).after b draws limits (calls.take i)).call b draws limits c).1
      ((opened s).after b draws limits (calls.take (i + 1))) := by
  obtain ⟨hlt, -⟩ := List.getElem?_eq_some_iff.mp hcall
  rw [after_take_succ hcall]
  exact aligned_call (settled_of_clear (Nat.le_of_lt hlt) hclear).1 c

/-- A client that takes every frame that its server writes is never refused an answer. -/
theorem not_refusedAt (hle : limits.server ≤ limits.client) (i : Nat) :
    ¬ RefusedAt b draws limits s calls i := by
  induction i using Nat.strongRecOn with
  | ind i ih =>
    intro hrefused
    obtain ⟨c, -, hcall, -⟩ := id hrefused
    rw [refusedAt_iff hcall] at hrefused
    obtain ⟨-, hlong, hshort, -⟩ := (aligned_of_clear hcall ih).left hrefused
    omega

/-- Until the first refused answer, and in the call that is refused it, no response is
    credited to another request: a call that gives a value gives that of the response to its
    own request, by the broker that was handed before it what was sent before it. The call is
    refused its answer exactly if something is left to be read after it, and that is the body
    of the answer. No call is refused by a client that takes what its server may write. How
    far the session gets ahead of the client has no part in any of this. -/
theorem credited_until_refusal (b : Broker) (draws : Draws) (limits : LinkLimits) (s : Session)
    (calls : List Call) (i : Nat) (c : Call) (hcall : calls[i]? = some c)
    (hclear : ∀ j < i, ¬ RefusedAt b draws limits s calls j) :
    let before := s.past b draws (sentBefore limits calls i)
    let left := ((opened s).after b draws limits (calls.take (i + 1))).inbox
    (∀ v, (opened s).given b draws limits calls i = some (some (.ok v)) →
        ∃ body, (before.direct b draws c.request).response.outcome = .ok body
          ∧ c.value body = .ok v)
      ∧ (RefusedAt b draws limits s calls i ↔ left ≠ [])
      ∧ (RefusedAt b draws limits s calls i →
        limits.client < left.length ∧ left.length ≤ limits.server
          ∧ left = before.back b draws limits.server c.request)
      ∧ (limits.server ≤ limits.client → ¬ RefusedAt b draws limits s calls i) := by
  intro before left
  have hle : i ≤ calls.length := Nat.le_of_lt (List.getElem?_eq_some_iff.mp hcall).1
  obtain ⟨-, hsession⟩ := settled_of_clear hle hclear
  have haligned := aligned_of_clear hcall hclear
  rw [given_eq hcall, refusedAt_iff hcall]
  refine ⟨?_, ?_, ?_, ?_⟩
  · intro v hv
    obtain ⟨hserved, -, hbody⟩ := haligned.own v (Option.some.inj hv)
    rwa [hsession hserved] at hbody
  · constructor
    · intro hrefused hnil
      obtain ⟨-, hlong, -⟩ := haligned.left hrefused
      rw [show ((opened s).after b draws limits (calls.take (i + 1))).inbox = [] from hnil] at hlong
      exact absurd hlong (Nat.not_lt_zero _)
    · intro hleft
      by_cases hrefused : Refused limits c
          (((opened s).after b draws limits (calls.take i)).call b draws limits c).1
      · exact hrefused
      · exact absurd (haligned.settled hrefused).inbox hleft
  · intro hrefused
    obtain ⟨hserved, hlong, hshort, hback⟩ := haligned.left hrefused
    rw [hsession hserved] at hback
    exact ⟨hlong, hshort, hback⟩
  · intro hle'
    rw [← refusedAt_iff hcall]
    exact not_refusedAt hle' i

/-! ### A refused answer that is read again -/

/-- A broker with one key, whose bytes pass for frames. -/
def decoyBroker : Broker where
  store :=
    ⟨[⟨"s", .symmetric, [⟨1, .secret [0, 0, 12, 0, 0, 0, 0, 1, 1, 0, 0, 0, 1, 0, 0]⟩],
      by decide, by decide, by decide⟩], by decide, by decide⟩
  gate := fun _ _ => some .retrieve
  registry := {}

def decoyDraws : Draws := fun _ => ⟨Vector.replicate 12 0, Vector.replicate 64 0, 1⟩

/-- The answer that carries the key has 38 bytes: the server sends it, the client refuses it. -/
def decoyLimits : LinkLimits := { client := 37, server := 100 }

def decoySession : Session := { connection := { id := 1, caller := some ⟨1000, 100, some 42⟩ } }

/-- The call before a refused answer is credited its own response, and the refused answer
    is left on the stream. -/
theorem credited_until_decoy :
    let calls : List Call := [.ping, .retrieve "s" 0]
    RefusedAt decoyBroker decoyDraws decoyLimits decoySession calls 1
      ∧ ((opened decoySession).after decoyBroker decoyDraws decoyLimits calls).inbox.length = 38
      ∧ ∃ body, (decoySession.direct decoyBroker decoyDraws .ping).response.outcome = .ok body
          ∧ Call.value .ping body = .ok .pong := by
  intro calls
  have hpong : (opened decoySession).given decoyBroker decoyDraws decoyLimits calls 0
      = some (some (.ok .pong)) := by decide +kernel
  have hleft : ((opened decoySession).after decoyBroker decoyDraws decoyLimits calls).inbox.length
      = 38 := by decide +kernel
  have hclear : ∀ j < 1,
      ¬ RefusedAt decoyBroker decoyDraws decoyLimits decoySession calls j := by
    rintro j hj ⟨c, result, -, hresult, -, size, hsize⟩
    obtain rfl : j = 0 := by omega
    rw [hsize, hpong] at hresult
    cases hresult
  have hping := credited_until_refusal decoyBroker decoyDraws decoyLimits decoySession calls 0
    .ping rfl fun j hj => absurd hj (Nat.not_lt_zero j)
  have hkey := credited_until_refusal decoyBroker decoyDraws decoyLimits decoySession calls 1
    (.retrieve "s" 0) rfl hclear
  refine ⟨hkey.2.1.mpr ?_, hleft, hping.1 .pong hpong⟩
  intro hnil
  have hlength := congrArg List.length hnil
  exact absurd (hleft.symm.trans hlength) (by decide)

/-- What a client calls that is refused the decoy and goes on. -/
def decoyCalls : List Call :=
  [.retrieve "s" 0, .ping, .ping, .ping, .ping, .ping, .operate .verify "t" 0 none [] (some [])]

/-- After it, a call may be credited what is no response to it: the bytes of a key that were
    left on the stream report a signature to be valid, though the key to check it with does
    not exist. -/
theorem valid_signature_without_key :
    ¬ ∀ (b : Broker) (draws : Draws) (limits : LinkLimits) (s : Session) (calls : List Call)
      (i : Nat) (c : Call) (v : Value), calls[i]? = some c →
      (opened s).given b draws limits calls i = some (some (.ok v)) →
      ∃ body, ((s.past b draws (sentBefore limits calls i)).direct b draws
        c.request).response.outcome = .ok body ∧ c.value body = .ok v := by
  intro hall
  have hvalid : (opened decoySession).given decoyBroker decoyDraws decoyLimits decoyCalls 6
      = some (some (.ok (.verdict true))) := by decide +kernel
  have hmissing : ((decoySession.past decoyBroker decoyDraws
      (sentBefore decoyLimits decoyCalls 6)).direct decoyBroker decoyDraws
        (Call.operate .verify "t" 0 none [] (some [])).request).response.outcome
      = .error (.remote .notFound "Not found: unknown key set t") := by decide +kernel
  obtain ⟨body, hbody, -⟩ := hall decoyBroker decoyDraws decoyLimits decoySession decoyCalls 6
    (.operate .verify "t" 0 none [] (some [])) (.verdict true) rfl hvalid
  rw [hmissing] at hbody
  cases hbody

/-- None of these calls waits for the session after the first, so it has requests to read when
    the client is gone, and nobody to answer. -/
example : (((opened decoySession).after decoyBroker decoyDraws decoyLimits decoyCalls).finish
    decoyBroker decoyDraws decoyLimits).1 = .error (.transport .streamClosed) := by
  decide +kernel

end Link

end KeyBroker
