import KeyBroker.Proofs.Access.Scene
import KeyBroker.Proofs.Store.History
import KeyBroker.Proofs.Stream.Direct

/-! # What a caller cannot tell

  A caller learns nothing of the sets on which the gate grants it nothing. Two brokers that
  differ in such sets only are compared on the same requests. The invariant: what a
  connection of the caller knows of a set is what the gate grants on it. So a request that is
  permitted is for a set that both stores show alike, and any other request is answered
  without a look at the store.
-/

namespace KeyBroker

/-- Two stores look alike to a caller: they show the same of every set on which the gate
    grants the caller something. -/
def LooksAlike (gate : Gate) (caller : Caller) (store other : KeyStore) : Prop :=
  ∀ set, gate caller set ≠ none → other.set? set = store.set? set

/-! ### The invariant of a connection -/

/-- A connection of a caller that knows of a set only what the gate grants on it. -/
structure Current (gate : Gate) (caller : Caller) (c : Connection) : Prop where
  /-- It is a connection of the caller. -/
  authenticated : c.caller = some caller
  /-- What it knows the gate would say again. -/
  granted : ∀ set capability, c.known? set = some capability → gate caller set = some capability

theorem current_opened (gate : Gate) (caller : Caller) (id : Nat) :
    Current gate caller { id, caller := some caller } := ⟨rfl, nofun⟩

namespace Broker

variable {b : Broker} {store : KeyStore} {draw : Draw} {c : Connection} {caller : Caller}
  {r : Request}

theorem current_handle (h : Current b.gate caller c) :
    Current b.gate caller (b.handle draw c r).connection := by
  refine ⟨handle_identity.2.trans h.authenticated, ?_⟩
  intro set capability hknown
  obtain ⟨hsame, -⟩ | ⟨asker, hkeyed, -, hconnection, -⟩ := b.handle_cases draw c r
  · rw [hsame] at hknown
    exact h.granted set capability hknown
  · -- what is new is the gate's answer in this request, to the connection's own caller
    have hasker : asker = caller :=
      Option.some.inj (hkeyed.authenticated.symm.trans h.authenticated)
    rw [hconnection] at hknown
    obtain hbefore | ⟨rfl, hgranted⟩ := Connection.known?_remember hknown
    · exact h.granted set capability hbefore
    · rw [← hasker]
      exact hgranted

/-- The decision on a request is the gate's, remembered or not. -/
theorem authorize_of_current (set : String) (action : Action) (h : Current b.gate caller c) :
    (b.authorize c caller set action).1 = b.gate.authorize caller set action := by
  cases hknown : c.known? set with
  | some capability =>
    rw [authorize_of_known action hknown, Gate.authorize, h.granted set capability hknown]
  | none => rw [authorize_of_unknown action hknown]

/-- A caller that is permitted something holds a capability. -/
theorem gate_of_authorize {gate : Gate} {set : String} {action : Action}
    {capability : Capability} (h : gate.authorize caller set action = .ok capability) :
    gate caller set ≠ none := by
  intro hnone
  rw [Gate.authorize, hnone] at h
  cases h

/-! ### One request -/

/-- What a permitted request gives depends on its own set only. -/
theorem fulfil_of_same {conn : Nat} {capability : Capability}
    (h : store.set? r.set = b.store.set? r.set) :
    ({ b with store } : Broker).fulfil draw conn caller capability r
      = b.fulfil draw conn caller capability r := by
  have hget : store.get r.set (.ofNumber r.version) = b.store.get r.set (.ofNumber r.version) := by
    simp only [KeyStore.get, KeyStore.find, h]
  cases hread : b.store.get r.set (.ofNumber r.version) with
  | error missing => rw [fulfil_of_missing hread, fulfil_of_missing (hget.trans hread)]
  | ok v =>
    rw [fulfil_of_found hread, fulfil_of_found (hget.trans hread)]
    rfl

theorem serve_of_alike (halike : LooksAlike b.gate caller b.store store)
    (h : Current b.gate caller c) :
    ({ b with store } : Broker).serve draw c r = b.serve draw c r := by
  by_cases hping : r.command = .ping
  · rw [serve_ping hping, serve_ping hping]
  by_cases hset : r.set = ""
  · rw [serve_unnamed hping h.authenticated hset, serve_unnamed hping h.authenticated hset]
  have hkeyed : Keyed c caller r := ⟨h.authenticated, hping, hset⟩
  -- deciding does not look at the store
  have hdecide : ({ b with store } : Broker).authorize c caller r.set r.command.action
      = b.authorize c caller r.set r.command.action := rfl
  cases hverdict : (b.authorize c caller r.set r.command.action).1 with
  | error denial =>
    rw [serve_denied hkeyed hverdict, serve_denied hkeyed (by rw [hdecide]; exact hverdict),
      hdecide]
  | ok capability =>
    -- what is permitted is for a set that both stores show alike
    have hgate : b.gate caller r.set ≠ none := by
      rw [authorize_of_current _ _ h] at hverdict
      exact gate_of_authorize hverdict
    rw [serve_permitted hkeyed hverdict, serve_permitted hkeyed (by rw [hdecide]; exact hverdict),
      hdecide, fulfil_of_same (halike r.set hgate)]

theorem handle_of_alike (halike : LooksAlike b.gate caller b.store store)
    (h : Current b.gate caller c) :
    ({ b with store } : Broker).handle draw c r = b.handle draw c r := by
  simp only [handle, serve_of_alike halike h]

/-- A request that the gate does not permit is denied, whatever the store holds. -/
theorem response_of_not_permitted {denial : Denial} (h : Current b.gate caller c)
    (hping : r.command ≠ .ping) (hset : r.set ≠ "")
    (hdenied : b.gate.authorize caller r.set r.command.action = .error denial) :
    (b.handle draw c r).response = .ofFault (.denied denial) := by
  apply handle_response_of_error
  rw [serve_denied ⟨h.authenticated, hping, hset⟩]
  rw [authorize_of_current _ _ h]
  exact hdenied

end Broker

/-! ### Runs -/

namespace Session

open Wire (decode)

variable {b : Broker} {store : KeyStore} {draws : Draws} {s : Session} {caller : Caller}

/-- A connection of a caller on which nothing was asked yet. -/
def begun (id : Nat) (caller : Caller) : Session := { connection := { id, caller := some caller } }

theorem current_past (rs : List Request) (h : Current b.gate caller s.connection) :
    Current b.gate caller (s.past b draws rs).connection := by
  induction rs generalizing s with
  | nil => exact h
  | cons r rest ih => exact ih (s := s.next b draws r) (Broker.current_handle h)

/-- Requests that are handed over are answered alike, and leave the same connection. -/
theorem answers_of_alike (halike : LooksAlike b.gate caller b.store store) (rs : List Request)
    (h : Current b.gate caller s.connection) :
    s.answers { b with store } draws rs = s.answers b draws rs
      ∧ s.past { b with store } draws rs = s.past b draws rs := by
  induction rs generalizing s with
  | nil => exact ⟨rfl, rfl⟩
  | cons r rest ih =>
    -- the first request leaves one session in both runs, and the invariant holds there
    have hdirect : s.direct { b with store } draws r = s.direct b draws r :=
      Broker.handle_of_alike halike h
    have hnext : s.next { b with store } draws r = s.next b draws r := by
      rw [next, hdirect, next]
    obtain ⟨hanswers, hpast⟩ := ih (s := s.next b draws r) (Broker.current_handle h)
    refine ⟨?_, ?_⟩
    · rw [answers, answers, hdirect, hnext, hanswers]
    · rw [past, past, hnext, hpast]

/-- A body is answered alike, whether or not it is a request. -/
theorem answer_of_alike (halike : LooksAlike b.gate caller b.store store) (body : Bytes)
    (h : Current b.gate caller s.connection) :
    s.answer { b with store } draws body = s.answer b draws body := by
  cases hbody : decode Wire.request body with
  | error cause => simp only [answer, hbody]
  | ok r => simp only [answer, hbody, Broker.handle_of_alike halike h]

/-- Answering a body keeps the invariant. -/
theorem current_answer (body : Bytes) (h : Current b.gate caller s.connection) :
    Current b.gate caller (s.answer b draws body).2.1.connection := by
  cases hbody : decode Wire.request body with
  | error cause => simpa only [answer, hbody] using h
  | ok r => simpa only [answer, hbody] using Broker.current_handle h

/-- The session after a reply is the one after the answer. -/
theorem reply_session (limit : Nat) (body : Bytes) :
    (s.reply b draws limit body).2.1 = (s.answer b draws body).2.1 := by
  simp only [reply]
  split <;> rfl

/-- Bodies that are read off a stream are answered alike. -/
theorem run_of_alike (halike : LooksAlike b.gate caller b.store store) (limit : Nat)
    (last : Ending) (bodies : List Bytes) (h : Current b.gate caller s.connection) :
    s.run { b with store } draws limit last bodies = s.run b draws limit last bodies := by
  induction bodies generalizing s with
  | nil => rfl
  | cons body rest ih =>
    -- a reply depends on the store through the answer only
    have hreply : s.reply { b with store } draws limit body = s.reply b draws limit body := by
      simp only [reply, answer_of_alike halike body h]
    have hkept : Current b.gate caller (s.reply b draws limit body).2.1.connection := by
      rw [reply_session]
      exact current_answer body h
    have hrest := ih (s := (s.reply b draws limit body).2.1) hkept
    rw [run, run, hreply]
    generalize s.reply b draws limit body = out at hrest ⊢
    obtain ⟨fault | reply, after, events⟩ := out
    · rfl
    · simp only [hrest]

/-- A caller learns nothing of sets on which it holds no capability. Whatever it sends on
    its connection, requests or any bytes, with the same draws two stores that look alike to
    it give the same: responses, records, and what the connection remembers. To retrieve
    from a set where it may operate only is denied whatever the store holds, and where no
    set is named the request is malformed whatever the store holds. -/
theorem hidden_leaves_no_trace (gate : Gate) (registry : Registry) (caller : Caller) (id : Nat)
    (draws : Draws) (rs : List Request) :
    (∀ store other, LooksAlike gate caller store other →
      (begun id caller).answers ⟨other, gate, registry⟩ draws rs
          = (begun id caller).answers ⟨store, gate, registry⟩ draws rs
        ∧ (begun id caller).past ⟨other, gate, registry⟩ draws rs
          = (begun id caller).past ⟨store, gate, registry⟩ draws rs
        ∧ ∀ limit stream, (begun id caller).serve ⟨other, gate, registry⟩ draws limit stream
          = (begun id caller).serve ⟨store, gate, registry⟩ draws limit stream)
    ∧ ∀ store r, r.command = .retrieve → gate caller r.set = some .operate →
        (((begun id caller).past ⟨store, gate, registry⟩ draws rs).direct
            ⟨store, gate, registry⟩ draws r).response
          = .ofFault (if r.set = "" then .malformed (.noSet .retrieve)
              else .denied (.notPermitted caller .retrieve r.set)) := by
  have hbegun : Current gate caller (begun id caller).connection := current_opened gate caller id
  refine ⟨?_, ?_⟩
  · intro store other halike
    obtain ⟨hanswers, hpast⟩ :=
      answers_of_alike (b := ⟨store, gate, registry⟩) halike rs hbegun
    refine ⟨hanswers, hpast, ?_⟩
    intro limit stream
    exact run_of_alike (b := ⟨store, gate, registry⟩) halike limit _ _ hbegun
  · intro store r hretrieve hoperate
    have hkept : Current gate caller
        ((begun id caller).past ⟨store, gate, registry⟩ draws rs).connection :=
      current_past (b := ⟨store, gate, registry⟩) rs hbegun
    have hping : r.command ≠ .ping := by
      rw [hretrieve]
      nofun
    by_cases hset : r.set = ""
    · rw [if_pos hset, ← hretrieve]
      exact Broker.handle_response_of_error
        (congrArg Prod.fst (Broker.serve_unnamed hping hkept.authenticated hset))
    · rw [if_neg hset]
      refine Broker.response_of_not_permitted hkept hping hset ?_
      show Gate.authorize gate caller r.set r.command.action = _
      rw [hretrieve, Gate.authorize, hoperate]
      rfl

/-- A caller that may operate on one set uses it, and asks for a set that only one of two
    stores holds: both brokers answer alike, and deny it the key of its own set. -/
theorem hidden_leaves_no_trace_of_second_set :
    let caller : Caller := ⟨1000, 100, none⟩
    let gate : Gate := fun _ set => if set = "a" then some .operate else none
    let store := KeyStore.empty.after [.next "a" (.secret [1])]
    let other := KeyStore.empty.after [.next "b" (.secret [2]), .next "a" (.secret [1])]
    let draws : Draws := fun _ => ⟨Vector.replicate 12 0, Vector.replicate 64 0, 1⟩
    let rs : List Request := [{ command := .retrieve, set := "b" },
      { command := .operate .sign, set := "a", version := 7 }]
    let r : Request := { command := .retrieve, set := "a" }
    store.set? "b" = none ∧ other.set? "b" ≠ none
      ∧ (begun 1 caller).answers ⟨other, gate, {}⟩ draws rs
        = (begun 1 caller).answers ⟨store, gate, {}⟩ draws rs
      ∧ (((begun 1 caller).past ⟨other, gate, {}⟩ draws rs).direct
          ⟨other, gate, {}⟩ draws r).response
        = .ofFault (.denied (.notPermitted caller .retrieve "a")) := by
  intro caller gate store other draws rs r
  obtain ⟨halike, hdenied⟩ := hidden_leaves_no_trace gate {} caller 1 draws rs
  have hsame : LooksAlike gate caller store other := by
    intro set hgate
    have hset : set = "a" := Decidable.byContradiction fun hne => hgate (if_neg hne)
    rw [hset]
    decide +kernel
  refine ⟨by decide +kernel, by decide +kernel, (halike store other hsame).1, ?_⟩
  exact hdenied other r rfl rfl

/-- A set may be published without a name, and a policy may let a caller operate on every
    set. To retrieve from that set is not denied then: a request names no set by the empty
    name, so it is malformed. -/
theorem nameless_set_not_denied :
    ¬ ∀ (policy : Policy) (store : KeyStore) (caller : Caller) (id : Nat) (draws : Draws)
        (r : Request), r.command = .retrieve → policy.capability caller r.set = some .operate →
        ((begun id caller).direct ⟨store, policy.capability, {}⟩ draws r).response.kind
          = some .denied := by
  intro h
  have hdenied := h ⟨[⟨.anyone, "*", .operate⟩]⟩ (KeyStore.empty.after [.next "" (.secret [1])])
    ⟨1000, 100, some 42⟩ 1 (fun _ => ⟨Vector.replicate 12 0, Vector.replicate 64 0, 1⟩)
    { command := .retrieve, set := "" } rfl (by decide)
  revert hdenied
  decide +kernel

end Session

end KeyBroker
