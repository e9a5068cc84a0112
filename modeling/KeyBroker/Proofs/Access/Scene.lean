import KeyBroker.Proofs.Access.Handling
import KeyBroker.Store.Attempt

/-! # A connection over time

  A scene is a broker together with one of its connections. What happens there is
  a list of acts: requests on the connection, and in between keys are published
  and the policy is replaced, in any order. The invariants of every run:

  - what the connection remembers is the record of the gate's grants, and no set
    is on it twice;
  - whatever the connection knows of a set, the gate once granted it to the same
    caller, in a request for the same set.
-/

namespace KeyBroker

/-! ### Acts -/

/-- What happens at a broker while one of its connections is open. -/
inductive Act where
  /-- The client sends a request. -/
  | request (draw : Draw) (r : Request)
  /-- A key becomes the next version of a set. -/
  | publish (set : String) (material : KeyMaterial)
  /-- A key becomes a version with a number of the publisher's choice. -/
  | publishAs (set : String) (number : UInt32) (material : KeyMaterial)
  /-- The policy is replaced. -/
  | govern (gate : Gate)

/-- Whether an act replaces the policy. -/
def Act.isGovern : Act → Bool
  | govern _ => true
  | _ => false

/-- The broker after an attempt to publish. -/
def Broker.afterAttempt (b : Broker) (a : Attempt) : Broker := { b with store := b.store.step a }

/-! ### Scenes -/

/-- A broker with one of its connections. -/
structure Scene where
  /-- The broker. -/
  broker : Broker
  /-- The connection. -/
  connection : Connection

namespace Scene

/-- A connection that was just opened. -/
def opened (b : Broker) (id : Nat) (caller : Option Caller) : Scene := ⟨b, { id, caller }⟩

/-- What a request gives. -/
def answer (s : Scene) (draw : Draw) (r : Request) : Answer :=
  s.broker.handle draw s.connection r

/-- The scene after an act. -/
def next (s : Scene) : Act → Scene
  | .request draw r => { s with connection := (s.answer draw r).connection }
  | .publish set material => { s with broker := s.broker.afterAttempt (.next set material) }
  | .publishAs set number material =>
    { s with broker := s.broker.afterAttempt (.numbered set number material) }
  | .govern gate => { s with broker := { s.broker with gate } }

/-- What an act makes happen on the connection. -/
def happenings (s : Scene) : Act → List Event
  | .request draw r => (s.answer draw r).events
  | _ => []

/-- The scene after acts. -/
def after (s : Scene) : List Act → Scene
  | [] => s
  | act :: rest => (s.next act).after rest

/-- What acts make happen on the connection. -/
def events (s : Scene) : List Act → List Event
  | [] => []
  | act :: rest => s.happenings act ++ (s.next act).events rest

theorem after_append (s : Scene) (acts more : List Act) :
    s.after (acts ++ more) = (s.after acts).after more := by
  induction acts generalizing s with
  | nil => rfl
  | cons act rest ih => exact ih (s.next act)

theorem events_append (s : Scene) (acts more : List Act) :
    s.events (acts ++ more) = s.events acts ++ (s.after acts).events more := by
  induction acts generalizing s with
  | nil => rfl
  | cons act rest ih =>
    simp only [List.cons_append, events, after, ih, List.append_assoc]

/-- Only the acts that say so replace the policy. -/
theorem gate_next {s : Scene} {act : Act} (h : act.isGovern = false) :
    (s.next act).broker.gate = s.broker.gate := by
  cases act with
  | request draw r => rfl
  | publish set material => rfl
  | publishAs set number material => rfl
  | govern gate => cases h

theorem gate_after {s : Scene} {acts : List Act} (h : ∀ act ∈ acts, act.isGovern = false) :
    (s.after acts).broker.gate = s.broker.gate := by
  induction acts generalizing s with
  | nil => rfl
  | cons act rest ih =>
    have hrest := @ih (s.next act) fun a ha => h a (List.mem_cons_of_mem _ ha)
    exact hrest.trans (gate_next (h act List.mem_cons_self))

end Scene

/-! ### One step -/

namespace Broker

variable {b : Broker} {draw : Draw} {c : Connection} {r : Request}

/-- What a permitted request does with its key asks the gate nothing. -/
theorem questions_fulfil (conn : Nat) (caller : Caller) (capability : Capability) :
    questions (b.fulfil draw conn caller capability r).2 = [] := by
  cases hread : b.store.get r.set (Selector.ofNumber r.version) with
  | error missing => rw [fulfil_of_missing hread]; rfl
  | ok v => rw [fulfil_of_found hread]; rfl

/-- A request for a key asks what deciding on it asks, and leaves the connection
    that deciding leaves. -/
theorem serve_of_keyed {caller : Caller} (h : Keyed c caller r) :
    (b.serve draw c r).2.1 = (b.authorize c caller r.set r.command.action).2.1
      ∧ questions (b.serve draw c r).2.2
        = questions (b.authorize c caller r.set r.command.action).2.2 := by
  cases hverdict : (b.authorize c caller r.set r.command.action).1 with
  | error denial => rw [serve_denied h hverdict]; exact ⟨rfl, rfl⟩
  | ok capability =>
    rw [serve_permitted h hverdict]
    simp [questions_fulfil]

/-- Every other request asks nothing and changes nothing. -/
theorem serve_of_not_keyed (h : ∀ caller, ¬ Keyed c caller r) :
    (b.serve draw c r).2.1 = c ∧ questions (b.serve draw c r).2.2 = [] := by
  by_cases hping : r.command = .ping
  · rw [serve_ping hping]; exact ⟨rfl, rfl⟩
  · cases hcaller : c.caller with
    | none => rw [serve_unauthenticated hping hcaller]; exact ⟨rfl, rfl⟩
    | some caller =>
      have hset : r.set = "" := Decidable.byContradiction fun hset =>
        h caller ⟨hcaller, hping, hset⟩
      rw [serve_unnamed hping hcaller hset]; exact ⟨rfl, rfl⟩

/-- A request for a key of a known set asks nothing and changes nothing. -/
theorem handle_of_known {caller : Caller} {capability : Capability} (h : Keyed c caller r)
    (hknown : c.known? r.set = some capability) :
    (b.handle draw c r).connection = c ∧ questions (b.handle draw c r).events = [] := by
  rw [handle_connection, questions_handle, (serve_of_keyed h).1, (serve_of_keyed h).2,
    authorize_of_known _ hknown]
  exact ⟨rfl, rfl⟩

/-- A request for a key of any other set asks the gate once, and the connection remembers
    the answer. -/
theorem handle_of_unknown {caller : Caller} (h : Keyed c caller r)
    (hunknown : c.known? r.set = none) :
    (b.handle draw c r).connection = c.remember r.set (b.gate caller r.set)
      ∧ questions (b.handle draw c r).events
        = [.gateAsked caller r.set (b.gate caller r.set)] := by
  rw [handle_connection, questions_handle, (serve_of_keyed h).1, (serve_of_keyed h).2,
    authorize_of_unknown _ hunknown]
  exact ⟨rfl, rfl⟩

/-- All that a request can do to a connection: it asks nothing and leaves the
    connection as it is, or it asks the gate once, about a set that was not known,
    and the connection remembers the answer. -/
theorem handle_cases (b : Broker) (draw : Draw) (c : Connection) (r : Request) :
    ((b.handle draw c r).connection = c ∧ questions (b.handle draw c r).events = [])
    ∨ ∃ caller, Keyed c caller r ∧ c.known? r.set = none
      ∧ (b.handle draw c r).connection = c.remember r.set (b.gate caller r.set)
      ∧ questions (b.handle draw c r).events
        = [.gateAsked caller r.set (b.gate caller r.set)] := by
  by_cases hkeyed : ∃ caller, Keyed c caller r
  · obtain ⟨caller, h⟩ := hkeyed
    cases hknown : c.known? r.set with
    | some capability => exact Or.inl (handle_of_known h hknown)
    | none => exact Or.inr ⟨caller, h, rfl, handle_of_unknown h hknown⟩
  · rw [handle_connection, questions_handle]
    exact Or.inl (serve_of_not_keyed fun caller h => hkeyed ⟨caller, h⟩)

/-- Handling never forgets what the connection knows. -/
theorem known?_handle {set : String} {capability : Capability}
    (h : c.known? set = some capability) :
    (b.handle draw c r).connection.known? set = some capability := by
  obtain ⟨hsame, -⟩ | ⟨caller, -, hnew, hconnection, -⟩ := handle_cases b draw c r
  · rw [hsame]; exact h
  · rw [hconnection]; exact Connection.known?_remember_of_known _ hnew h

/-- Handling keeps the number and the caller of a connection. -/
theorem handle_identity :
    (b.handle draw c r).connection.id = c.id
      ∧ (b.handle draw c r).connection.caller = c.caller := by
  obtain ⟨hsame, -⟩ | ⟨caller, -, -, hconnection, -⟩ := handle_cases b draw c r
  · rw [hsame]; exact ⟨rfl, rfl⟩
  · rw [hconnection]; exact ⟨Connection.remember_id .., Connection.remember_caller ..⟩

end Broker

namespace Scene

theorem caller_next (s : Scene) (act : Act) :
    (s.next act).connection.caller = s.connection.caller := by
  cases act with
  | request draw r => exact Broker.handle_identity.2
  | publish set material => rfl
  | publishAs set number material => rfl
  | govern gate => rfl

/-- A connection keeps its caller. -/
theorem caller_after (s : Scene) (acts : List Act) :
    (s.after acts).connection.caller = s.connection.caller := by
  induction acts generalizing s with
  | nil => rfl
  | cons act rest ih => exact (ih (s.next act)).trans (caller_next s act)

theorem known?_next {s : Scene} {set : String} {capability : Capability} (act : Act)
    (h : s.connection.known? set = some capability) :
    (s.next act).connection.known? set = some capability := by
  cases act with
  | request draw r => exact Broker.known?_handle h
  | publish set material => exact h
  | publishAs set number material => exact h
  | govern gate => exact h

/-- A connection never forgets what it knows. -/
theorem known?_after {s : Scene} {set : String} {capability : Capability} (acts : List Act)
    (h : s.connection.known? set = some capability) :
    (s.after acts).connection.known? set = some capability := by
  induction acts generalizing s with
  | nil => exact h
  | cons act rest ih => exact ih (known?_next act h)

/-! ### Where knowledge comes from -/

/-- A request makes the gate grant a capability on a set to a caller. -/
structure Grants (s : Scene) (draw : Draw) (r : Request) (caller : Caller) (set : String)
    (capability : Capability) : Prop where
  /-- It is a request for a key of the set, from the caller. -/
  keyed : Keyed s.connection caller r
  about : r.set = set
  /-- The gate in force grants the capability. -/
  granted : s.broker.gate caller set = some capability
  /-- The gate is asked, and asked once. -/
  asked : questions (s.answer draw r).events = [.gateAsked caller set (some capability)]

/-- A grant is among the events of its request. -/
theorem Grants.mem_events {s : Scene} {draw : Draw} {r : Request} {caller : Caller}
    {set : String} {capability : Capability} (h : s.Grants draw r caller set capability) :
    Event.gateAsked caller set (some capability) ∈ (s.answer draw r).events := by
  have hmem : Event.gateAsked caller set (some capability)
      ∈ questions (s.answer draw r).events := by
    rw [h.asked]
    exact List.mem_singleton_self _
  exact (mem_questions.mp hmem).1

/-- Whatever a request adds to what the connection knows, the gate granted in that
    very request. -/
theorem grants_of_known?_answer {s : Scene} {draw : Draw} {r : Request} {set : String}
    {capability : Capability} (hnew : s.connection.known? set ≠ some capability)
    (h : (s.answer draw r).connection.known? set = some capability) :
    ∃ caller, s.Grants draw r caller set capability := by
  obtain ⟨hsame, -⟩ | ⟨caller, hkeyed, -, hconnection, hasked⟩ :=
    Broker.handle_cases s.broker draw s.connection r
  · rw [answer, hsame] at h
    exact absurd h hnew
  · rw [answer, hconnection] at h
    obtain hold | ⟨rfl, hgranted⟩ := Connection.known?_remember h
    · exact absurd hold hnew
    · rw [hgranted] at hasked
      exact ⟨caller, hkeyed, rfl, hgranted, hasked⟩

/-- What a connection knows after acts it knew before, or the gate granted it in
    one of the requests among the acts, and that request put it there. -/
theorem known?_after_cases {s : Scene} {set : String} {capability : Capability}
    {acts : List Act} (h : (s.after acts).connection.known? set = some capability) :
    s.connection.known? set = some capability
    ∨ ∃ past draw r rest caller, acts = past ++ .request draw r :: rest
      ∧ (s.after past).Grants draw r caller set capability
      ∧ ((s.after past).answer draw r).connection.known? set = some capability := by
  induction acts generalizing s with
  | nil => exact Or.inl h
  | cons act rest ih =>
    obtain hknown | ⟨past, draw, r, rest', caller, rfl, hgrants, hput⟩ := ih h
    · by_cases hbefore : s.connection.known? set = some capability
      · exact Or.inl hbefore
      · cases act with
        | request draw r =>
          obtain ⟨caller, hgrants⟩ := grants_of_known?_answer hbefore hknown
          exact Or.inr ⟨[], draw, r, rest, caller, rfl, hgrants, hknown⟩
        | publish _ _ => exact absurd hknown hbefore
        | publishAs _ _ _ => exact absurd hknown hbefore
        | govern _ => exact absurd hknown hbefore
    · exact Or.inr ⟨act :: past, draw, r, rest', caller, rfl, hgrants, hput⟩

end Scene

end KeyBroker
