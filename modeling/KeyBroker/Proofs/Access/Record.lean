import KeyBroker.Proofs.Access.Scene

/-! # The record of a connection

  The gate's grants go on record in the order in which they are given, as long as
  fewer than `maxRemembered` are on it. The record is told from what happened
  alone, without a look at the connection. Main statements: the connection
  remembers exactly the record, no set is on it twice, and until the policy is
  replaced nothing is on it that the gate would not say again.
-/

namespace KeyBroker

/-! ### The record -/

/-- The record after an event: a grant goes on it while there is room. -/
def enter (book : List (String × Capability)) : Event → List (String × Capability)
  | .gateAsked _ set (some capability) =>
    if book.length < maxRemembered then (set, capability) :: book else book
  | _ => book

/-- The grants on record after events, the latest first. -/
def record (events : List Event) : List (String × Capability) := events.foldl enter []

/-- Only questions to the gate change the record. -/
theorem foldl_enter_questions (book : List (String × Capability)) (events : List Event) :
    (questions events).foldl enter book = events.foldl enter book := by
  induction events generalizing book with
  | nil => rfl
  | cons e rest ih =>
    by_cases hasked : e.isGateAsked = true
    · have hcons : questions (e :: rest) = e :: questions rest :=
        List.filter_cons_of_pos hasked
      rw [hcons, List.foldl_cons, List.foldl_cons, ih]
    · have hcons : questions (e :: rest) = questions rest := List.filter_cons_of_neg hasked
      have hsame : enter book e = book := by
        cases e <;> first | rfl | exact absurd rfl hasked
      rw [hcons, List.foldl_cons, hsame, ih]

/-- To remember an answer is to enter it. -/
theorem enter_gateAsked (c : Connection) (caller : Caller) (set : String)
    (answer : Option Capability) :
    enter c.remembered (.gateAsked caller set answer) = (c.remember set answer).remembered := by
  cases answer with
  | none => rfl
  | some capability =>
    by_cases hroom : c.remembered.length < maxRemembered
    · rw [Connection.remember_some_of_room set capability hroom]
      simp [enter, hroom]
    · rw [Connection.remember_some_of_full set capability hroom]
      simp [enter, hroom]

/-- What a request enters is what the connection comes to remember. -/
theorem foldl_enter_handle (b : Broker) (draw : Draw) (c : Connection) (r : Request) :
    (b.handle draw c r).events.foldl enter c.remembered
      = (b.handle draw c r).connection.remembered := by
  rw [← foldl_enter_questions]
  obtain ⟨hsame, hquiet⟩ | ⟨caller, -, -, hconnection, hasked⟩ := b.handle_cases draw c r
  · rw [hsame, hquiet]; rfl
  · rw [hconnection, hasked]
    exact enter_gateAsked c caller r.set _

namespace Scene

theorem foldl_enter_events (s : Scene) (acts : List Act) :
    (s.events acts).foldl enter s.connection.remembered
      = (s.after acts).connection.remembered := by
  induction acts generalizing s with
  | nil => rfl
  | cons act rest ih =>
    have hact : (s.happenings act).foldl enter s.connection.remembered
        = (s.next act).connection.remembered := by
      cases act with
      | request draw r => exact foldl_enter_handle s.broker draw s.connection r
      | publish set material => rfl
      | publishAs set number material => rfl
      | govern gate => rfl
    rw [events, List.foldl_append, hact]
    exact ih (s.next act)

/-- A connection remembers exactly the grants on record. -/
theorem record_events (b : Broker) (id : Nat) (caller? : Option Caller) (acts : List Act) :
    record ((opened b id caller?).events acts)
      = ((opened b id caller?).after acts).connection.remembered :=
  foldl_enter_events (opened b id caller?) acts

/-! ### The invariant of the record -/

/-- No set is remembered twice, and there is no more than there is room for. -/
structure Tidy (c : Connection) : Prop where
  distinct : (c.remembered.map Prod.fst).Nodup
  bounded : c.remembered.length ≤ maxRemembered

/-- An answer on a set that was not known keeps the memory tidy. -/
theorem tidy_remember {c : Connection} {set : String} (answer : Option Capability)
    (hnew : c.known? set = none) (h : Tidy c) : Tidy (c.remember set answer) := by
  cases answer with
  | none => exact h
  | some capability =>
    by_cases hroom : c.remembered.length < maxRemembered
    · rw [Connection.remember_some_of_room set capability hroom]
      refine ⟨?_, Nat.succ_le_of_lt hroom⟩
      exact List.nodup_cons.mpr ⟨Connection.known?_eq_none_iff.mp hnew, h.distinct⟩
    · rw [Connection.remember_some_of_full set capability hroom]
      exact h

theorem tidy_next {s : Scene} (act : Act) (h : Tidy s.connection) :
    Tidy (s.next act).connection := by
  cases act with
  | request draw r =>
    obtain ⟨hsame, -⟩ | ⟨caller, -, hnew, hconnection, -⟩ :=
      s.broker.handle_cases draw s.connection r
    · show Tidy (s.broker.handle draw s.connection r).connection
      rw [hsame]; exact h
    · show Tidy (s.broker.handle draw s.connection r).connection
      rw [hconnection]; exact tidy_remember _ hnew h
  | publish set material => exact h
  | publishAs set number material => exact h
  | govern gate => exact h

theorem tidy_after {s : Scene} (acts : List Act) (h : Tidy s.connection) :
    Tidy (s.after acts).connection := by
  induction acts generalizing s with
  | nil => exact h
  | cons act rest ih => exact ih (tidy_next act h)

theorem tidy_opened (b : Broker) (id : Nat) (caller? : Option Caller) :
    Tidy (opened b id caller?).connection :=
  ⟨List.nodup_nil, Nat.zero_le _⟩

/-! ### While the policy stays -/

/-- Until the policy is replaced, a connection knows nothing that the gate would
    not say again. -/
theorem gate_of_known? {b : Broker} {id : Nat} {caller? : Option Caller} {acts : List Act}
    {caller : Caller} {set : String} {capability : Capability}
    (hstays : ∀ act ∈ acts, act.isGovern = false)
    (hcaller : ((opened b id caller?).after acts).connection.caller = some caller)
    (hknown : ((opened b id caller?).after acts).connection.known? set = some capability) :
    ((opened b id caller?).after acts).broker.gate caller set = some capability := by
  obtain hbefore | ⟨past, draw, r, rest, asker, rfl, hgrants, -⟩ := known?_after_cases hknown
  · cases hbefore
  · -- The gate that granted is the gate at the opening, and so is the present one.
    have hpast : ∀ act ∈ past, act.isGovern = false := fun act hact =>
      hstays act (List.mem_append_left _ hact)
    have hasker : asker = caller := by
      have h := hgrants.keyed.authenticated
      rw [caller_after] at h hcaller
      rw [h] at hcaller
      exact Option.some.inj hcaller
    have hgranted := hgrants.granted
    rw [gate_after hpast, hasker] at hgranted
    rw [gate_after hstays]
    exact hgranted

end Scene

end KeyBroker
