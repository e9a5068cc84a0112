import KeyBroker.Broker

/-! # Handling one request

  What a single request does, stage by stage. A request for a key from a known
  caller is decided by the capability that the connection remembers, or else by
  one question to the gate; every other request leaves gate, store and
  connection alone. Each stage has one equation here, and later proofs use these
  and do not open the definitions.
-/

namespace KeyBroker

/-! ### Remembered capabilities -/

namespace Connection

theorem known?_eq_none_iff {c : Connection} {set : String} :
    c.known? set = none ↔ set ∉ c.remembered.map Prod.fst := by
  simp only [known?, List.lookup_eq_none_iff, List.mem_map, not_exists, not_and, bne_iff_ne]
  exact ⟨fun h p hp hset => h p hp hset.symm, fun h p hp hset => h p hp hset.symm⟩

@[simp] theorem remember_none (c : Connection) (set : String) : c.remember set none = c := rfl

theorem remember_some_of_room {c : Connection} (set : String) (capability : Capability)
    (hroom : c.remembered.length < maxRemembered) :
    c.remember set (some capability)
      = { c with remembered := (set, capability) :: c.remembered } := by
  simp [remember, hroom]

theorem remember_some_of_full {c : Connection} (set : String) (capability : Capability)
    (hfull : ¬ c.remembered.length < maxRemembered) :
    c.remember set (some capability) = c := by
  simp [remember, hfull]

@[simp] theorem remember_id (c : Connection) (set : String) (answer : Option Capability) :
    (c.remember set answer).id = c.id := by
  unfold remember; split <;> (try split) <;> rfl

@[simp] theorem remember_caller (c : Connection) (set : String) (answer : Option Capability) :
    (c.remember set answer).caller = c.caller := by
  unfold remember; split <;> (try split) <;> rfl

/-- What is known after remembering was known before, or is the answer that was
    remembered. -/
theorem known?_remember {c : Connection} {set other : String} {answer : Option Capability}
    {capability : Capability} (h : (c.remember set answer).known? other = some capability) :
    c.known? other = some capability ∨ (other = set ∧ answer = some capability) := by
  cases answer with
  | none => exact Or.inl h
  | some granted =>
    by_cases hroom : c.remembered.length < maxRemembered
    · rw [remember_some_of_room set granted hroom] at h
      simp only [known?, List.lookup_cons] at h
      split at h
      · next heq => exact Or.inr ⟨by simpa using heq, h⟩
      · exact Or.inl h
    · rw [remember_some_of_full set granted hroom] at h
      exact Or.inl h

/-- What is known of one set outlasts an answer on a set that was not known. -/
theorem known?_remember_of_known {c : Connection} {set other : String}
    {capability : Capability} (answer : Option Capability) (hnew : c.known? set = none)
    (h : c.known? other = some capability) :
    (c.remember set answer).known? other = some capability := by
  have hne : other ≠ set := by
    rintro rfl
    rw [hnew] at h
    cases h
  cases answer with
  | none => exact h
  | some granted =>
    by_cases hroom : c.remembered.length < maxRemembered
    · rw [remember_some_of_room set granted hroom]
      have hbeq : (other == set) = false := by simpa using hne
      simpa [known?, List.lookup_cons, hbeq] using h
    · rw [remember_some_of_full set granted hroom]
      exact h

end Connection

/-! ### Requests for keys -/

/-- A request for a key, sent on a connection whose caller is known. -/
structure Keyed (c : Connection) (caller : Caller) (r : Request) : Prop where
  /-- The caller is authenticated. -/
  authenticated : c.caller = some caller
  /-- More is asked than whether someone answers. -/
  notPing : r.command ≠ .ping
  /-- A set is named. -/
  named : r.set ≠ ""

instance (c : Connection) (caller : Caller) (r : Request) : Decidable (Keyed c caller r) :=
  decidable_of_iff (c.caller = some caller ∧ r.command ≠ .ping ∧ r.set ≠ "")
    ⟨fun ⟨h₁, h₂, h₃⟩ => ⟨h₁, h₂, h₃⟩, fun ⟨h₁, h₂, h₃⟩ => ⟨h₁, h₂, h₃⟩⟩

/-- The questions to the gate among events. -/
def questions (events : List Event) : List Event := events.filter Event.isGateAsked

@[simp] theorem questions_nil : questions [] = [] := rfl

@[simp] theorem questions_append (before after : List Event) :
    questions (before ++ after) = questions before ++ questions after :=
  List.filter_append ..

theorem mem_questions {e : Event} {events : List Event} :
    e ∈ questions events ↔ e ∈ events ∧ e.isGateAsked = true := List.mem_filter

/-! ### Keys -/

/-- A key that cannot be handed out is at fault itself. -/
theorem KeyVersion.body_eq_error {v : KeyVersion} {fault : Fault} (h : v.body = .error fault) :
    ∃ cause, fault = .key cause := by
  unfold KeyVersion.body at h
  split at h
  · cases h
  · split at h
    · cases h
    · injection h with h
      exact ⟨_, h.symm⟩

namespace Broker

variable {b : Broker} {draw : Draw} {c : Connection} {caller : Caller} {r : Request}

/-! ### The gate -/

theorem authorize_of_known {set : String} {capability : Capability} (action : Action)
    (h : c.known? set = some capability) :
    b.authorize c caller set action
      = (Capability.judge caller set action (some capability), c, []) := by
  simp [authorize, consult, h]

theorem authorize_of_unknown {set : String} (action : Action) (h : c.known? set = none) :
    b.authorize c caller set action
      = (b.gate.authorize caller set action, c.remember set (b.gate caller set),
          [.gateAsked caller set (b.gate caller set)]) := by
  simp [authorize, consult, h, Gate.authorize]

/-- Deciding leaves the connection's number and caller alone. -/
theorem authorize_identity (b : Broker) (c : Connection) (caller : Caller) (set : String)
    (action : Action) :
    (b.authorize c caller set action).2.1.id = c.id
      ∧ (b.authorize c caller set action).2.1.caller = c.caller := by
  cases h : c.known? set with
  | some capability => simp [authorize_of_known action h]
  | none => simp [authorize_of_unknown action h]

/-! ### The stages -/

theorem serve_ping (h : r.command = .ping) :
    b.serve draw c r = (.ok (.verdict true), c, [.pinged c.id]) := by
  simp [serve, h]

theorem serve_unauthenticated (hping : r.command ≠ .ping) (h : c.caller = none) :
    b.serve draw c r = (.error (.denied .unauthenticated), c, []) := by
  unfold serve
  split
  · next heq => exact absurd heq hping
  · simp [h]

theorem serve_unnamed (hping : r.command ≠ .ping) (hcaller : c.caller = some caller)
    (h : r.set = "") :
    b.serve draw c r = (.error (.malformed (.noSet r.command)), c, []) := by
  unfold serve
  split
  · next heq => exact absurd heq hping
  · simp [hcaller, h]

theorem serve_keyed (h : Keyed c caller r) :
    b.serve draw c r = b.serveCaller draw c caller r := by
  unfold serve
  split
  · next heq => exact absurd heq h.notPing
  · simp [h.authenticated, h.named]

theorem serve_denied {denial : Denial} (h : Keyed c caller r)
    (hdenied : (b.authorize c caller r.set r.command.action).1 = .error denial) :
    b.serve draw c r = (.error (.denied denial),
      (b.authorize c caller r.set r.command.action).2) := by
  rw [serve_keyed h, serveCaller]
  generalize b.authorize c caller r.set r.command.action = out at hdenied ⊢
  obtain ⟨verdict, after, asked⟩ := out
  subst hdenied
  rfl

theorem serve_permitted {capability : Capability} (h : Keyed c caller r)
    (hpermitted : (b.authorize c caller r.set r.command.action).1 = .ok capability) :
    b.serve draw c r
      = ((b.fulfil draw c.id caller capability r).1,
          (b.authorize c caller r.set r.command.action).2.1,
          (b.authorize c caller r.set r.command.action).2.2
            ++ (b.fulfil draw c.id caller capability r).2) := by
  have hid := (b.authorize_identity c caller r.set r.command.action).1
  rw [serve_keyed h, serveCaller]
  generalize b.authorize c caller r.set r.command.action = out at hpermitted hid ⊢
  obtain ⟨verdict, after, asked⟩ := out
  subst hpermitted
  rw [← hid]

/-! ### The key -/

/-- What an operation gives in the end is the outcome of running it. -/
theorem operate_eq_ok {op : Operation} {v : KeyVersion} {body : Body}
    (h : b.operate draw op v r = .ok body) : ∃ outcome : Outcome, body = outcome.body := by
  unfold operate at h
  split at h
  · cases h
  · split at h
    · cases h
    · split at h
      · injection h with h
        exact ⟨_, h.symm⟩
      · cases h

/-- An operation fails by its key or algorithm, or for want of a signature. -/
theorem operate_eq_error {op : Operation} {v : KeyVersion} {fault : Fault}
    (h : b.operate draw op v r = .error fault) :
    (∃ cause, fault = .key cause) ∨ fault = .malformed .noSignature := by
  unfold operate at h
  split at h
  · injection h with h
    exact Or.inl ⟨_, h.symm⟩
  · split at h
    · injection h with h
      exact Or.inr h.symm
    · split at h
      · cases h
      · injection h with h
        exact Or.inl ⟨_, h.symm⟩

theorem useKey_eq_error {v : KeyVersion} {fault : Fault} (h : b.useKey draw v r = .error fault) :
    (∃ cause, fault = .key cause) ∨ fault = .malformed .noSignature := by
  unfold useKey at h
  split at h
  · exact operate_eq_error h
  · exact Or.inl (KeyVersion.body_eq_error h)
  · exact Or.inl (KeyVersion.body_eq_error h)

theorem fulfil_of_missing {conn : Nat} {capability : Capability} {missing : Missing}
    (h : b.store.get r.set (Selector.ofNumber r.version) = .error missing) :
    b.fulfil draw conn caller capability r
      = (.error (.notFound missing), [.keyRead r.set (Selector.ofNumber r.version)]) := by
  simp only [fulfil, h]

theorem fulfil_of_found {conn : Nat} {capability : Capability} {v : KeyVersion}
    (h : b.store.get r.set (Selector.ofNumber r.version) = .ok v) :
    b.fulfil draw conn caller capability r
      = (b.useKey draw v r, [.keyRead r.set (Selector.ofNumber r.version),
          .granted conn caller r.command r.set v.number capability]) := by
  simp only [fulfil, h]

/-- Once the gate has let a request pass, nothing is denied any more. -/
theorem kind_of_fulfil_eq_error {conn : Nat} {capability : Capability} {fault : Fault}
    (h : (b.fulfil draw conn caller capability r).1 = .error fault) :
    fault.kind ≠ .denied := by
  cases hread : b.store.get r.set (Selector.ofNumber r.version) with
  | error missing =>
    rw [fulfil_of_missing hread] at h
    injection h with h
    subst h
    nofun
  | ok v =>
    rw [fulfil_of_found hread] at h
    obtain ⟨cause, rfl⟩ | rfl := useKey_eq_error h
    · cases cause <;> nofun
    · nofun

/-! ### The answer -/

@[simp] theorem handle_connection :
    (b.handle draw c r).connection = (b.serve draw c r).2.1 := by
  unfold handle; split <;> simp_all

/-- The record of a refusal is all that an answer adds to what serving did. -/
theorem handle_events (b : Broker) (draw : Draw) (c : Connection) (r : Request) :
    (b.handle draw c r).events = (b.serve draw c r).2.2
    ∨ ∃ fault, (b.handle draw c r).events = (b.serve draw c r).2.2
        ++ [.refused c.id c.caller r.command r.set (Selector.ofNumber r.version) fault] := by
  unfold handle
  split
  · next heq => exact Or.inl (by rw [heq])
  · next heq => exact Or.inr ⟨_, by rw [heq]⟩

@[simp] theorem questions_handle :
    questions (b.handle draw c r).events = questions (b.serve draw c r).2.2 := by
  obtain h | ⟨fault, h⟩ := b.handle_events draw c r
  · rw [h]
  · rw [h, questions_append]
    exact List.append_nil _

theorem handle_response_of_ok {body : Body} (h : (b.serve draw c r).1 = .ok body) :
    (b.handle draw c r).response = .success body := by
  unfold handle; split <;> simp_all

theorem handle_response_of_error {fault : Fault} (h : (b.serve draw c r).1 = .error fault) :
    (b.handle draw c r).response = .ofFault fault := by
  unfold handle; split <;> simp_all

/-- A response carries a result just when the request was served. -/
theorem handle_result_eq_some {body : Body} :
    (b.handle draw c r).response.result = some body ↔ (b.serve draw c r).1 = .ok body := by
  cases h : (b.serve draw c r).1 with
  | ok served => simp [handle_response_of_ok h, Response.success]
  | error fault => simp [handle_response_of_error h, Response.ofFault, Response.failure]

/-- A response that means a result to who asked is the one that carries it. -/
theorem response_of_outcome {body : Body}
    (h : (b.handle draw c r).response.outcome = .ok body) :
    (b.handle draw c r).response = .success body := by
  cases hserve : (b.serve draw c r).1 with
  | ok served =>
    rw [handle_response_of_ok hserve] at h ⊢
    obtain rfl := Except.ok.inj h
    rfl
  | error fault =>
    rw [handle_response_of_error hserve] at h
    cases h

/-! ### The events -/

/-- What holds of pings, questions, readings, grants and refusals holds of all that happens
    when a request is handled. -/
theorem forall_mem_events {P : Event → Prop} (hpinged : ∀ conn, P (.pinged conn))
    (hasked : ∀ caller set answer, P (.gateAsked caller set answer))
    (hread : ∀ set selector, P (.keyRead set selector))
    (hgranted : ∀ conn caller command set version capability,
      P (.granted conn caller command set version capability))
    (hrefused : ∀ conn caller command set selector fault,
      P (.refused conn caller command set selector fault)) :
    ∀ e ∈ (b.handle draw c r).events, P e := by
  have hdecided : ∀ caller, ∀ e ∈ (b.authorize c caller r.set r.command.action).2.2, P e := by
    intro caller e he
    cases hknown : c.known? r.set with
    | some capability =>
      rw [authorize_of_known _ hknown] at he
      cases he
    | none =>
      rw [authorize_of_unknown _ hknown] at he
      rw [List.mem_singleton.mp he]
      exact hasked caller r.set _
  have hserved : ∀ e ∈ (b.serve draw c r).2.2, P e := by
    intro e he
    by_cases hping : r.command = .ping
    · rw [serve_ping hping] at he
      rw [List.mem_singleton.mp he]
      exact hpinged c.id
    cases hcaller : c.caller with
    | none =>
      rw [serve_unauthenticated hping hcaller] at he
      cases he
    | some caller =>
      by_cases hset : r.set = ""
      · rw [serve_unnamed hping hcaller hset] at he
        cases he
      have hkeyed : Keyed c caller r := ⟨hcaller, hping, hset⟩
      cases hverdict : (b.authorize c caller r.set r.command.action).1 with
      | error denial =>
        rw [serve_denied hkeyed hverdict] at he
        exact hdecided caller e he
      | ok capability =>
        rw [serve_permitted hkeyed hverdict] at he
        obtain he | he := List.mem_append.mp he
        · exact hdecided caller e he
        · cases hfound : b.store.get r.set (Selector.ofNumber r.version) with
          | error missing =>
            rw [fulfil_of_missing hfound] at he
            rw [List.mem_singleton.mp he]
            exact hread r.set _
          | ok v =>
            rw [fulfil_of_found hfound] at he
            obtain rfl | he := List.mem_cons.mp he
            · exact hread r.set _
            · rw [List.mem_singleton.mp he]
              exact hgranted c.id caller r.command r.set v.number capability
  intro e he
  obtain h | ⟨fault, h⟩ := b.handle_events draw c r
  · rw [h] at he
    exact hserved e he
  · rw [h] at he
    obtain he | he := List.mem_append.mp he
    · exact hserved e he
    · rw [List.mem_singleton.mp he]
      exact hrefused c.id c.caller r.command r.set _ fault

end Broker

end KeyBroker
