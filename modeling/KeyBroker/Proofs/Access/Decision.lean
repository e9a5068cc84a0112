import KeyBroker.Proofs.Access.Record

/-! # How requests for keys are decided

  What an answer shows of the verdict behind it: a denial is reported as such and
  no key is read; otherwise one key is read, what is reported is no denial, and the
  audit names the capability that was granted. Main statement: every request for a
  key is decided by the record if its set is on it, and by one question to the gate
  if not; until the policy is replaced, both give what the gate would say afresh.
-/

namespace KeyBroker

/-! ### Verdicts and answers -/

/-- An answer bears out a verdict. -/
def Answer.BearsOut (a : Answer) : Except Denial Capability → Prop
  | .error denial =>
    a.response = .ofFault (.denied denial) ∧ a.events.countP Event.isKeyRead = 0
  | .ok capability =>
    a.response.kind ≠ some .denied ∧ a.events.countP Event.isKeyRead = 1
      ∧ ∀ conn caller command set version held,
        Event.granted conn caller command set version held ∈ a.events → held = capability

namespace Broker

variable {b : Broker} {draw : Draw} {c : Connection} {caller : Caller} {r : Request}

/-- An answer reads as many keys as serving did. -/
theorem countP_isKeyRead_handle :
    (b.handle draw c r).events.countP Event.isKeyRead
      = (b.serve draw c r).2.2.countP Event.isKeyRead := by
  obtain h | ⟨fault, h⟩ := b.handle_events draw c r
  · rw [h]
  · rw [h, List.countP_append]
    exact Nat.add_zero _

/-- Deciding reads no key. -/
theorem countP_isKeyRead_authorize (set : String) (action : Action) :
    (b.authorize c caller set action).2.2.countP Event.isKeyRead = 0 := by
  cases hknown : c.known? set with
  | some capability => rw [authorize_of_known action hknown]; rfl
  | none => rw [authorize_of_unknown action hknown]; rfl

/-- Doing what is permitted reads one key. -/
theorem countP_isKeyRead_fulfil (conn : Nat) (capability : Capability) :
    (b.fulfil draw conn caller capability r).2.countP Event.isKeyRead = 1 := by
  cases hread : b.store.get r.set (Selector.ofNumber r.version) with
  | error missing => rw [fulfil_of_missing hread]; rfl
  | ok v => rw [fulfil_of_found hread]; rfl

/-- A grant in the audit names the capability that let the request pass. -/
theorem held_of_granted_mem {capability held : Capability} {conn : Nat} {asker : Caller}
    {command : Command} {set : String} {version : UInt32} (h : Keyed c caller r)
    (hpermitted : (b.authorize c caller r.set r.command.action).1 = .ok capability)
    (hmem : Event.granted conn asker command set version held ∈ (b.handle draw c r).events) :
    held = capability := by
  have hserved : Event.granted conn asker command set version held
      ∈ (b.serve draw c r).2.2 := by
    obtain hevents | ⟨fault, hevents⟩ := b.handle_events draw c r
    · rwa [hevents] at hmem
    · rw [hevents] at hmem
      obtain hmem | hmem := List.mem_append.mp hmem
      · exact hmem
      · cases List.mem_singleton.mp hmem
  rw [serve_permitted h hpermitted] at hserved
  obtain hasked | hdone := List.mem_append.mp hserved
  · -- Deciding leaves nothing but questions.
    cases hknown : c.known? r.set with
    | some known => rw [authorize_of_known _ hknown] at hasked; cases hasked
    | none =>
      rw [authorize_of_unknown _ hknown] at hasked
      cases List.mem_singleton.mp hasked
  · cases hread : b.store.get r.set (Selector.ofNumber r.version) with
    | error missing =>
      rw [fulfil_of_missing hread] at hdone
      cases List.mem_singleton.mp hdone
    | ok v =>
      rw [fulfil_of_found hread] at hdone
      obtain hdone | hdone := List.mem_cons.mp hdone
      · cases hdone
      · cases List.mem_singleton.mp hdone
        rfl

/-- The answer to a request for a key bears out the verdict on it. -/
theorem bearsOut_authorize (h : Keyed c caller r) :
    (b.handle draw c r).BearsOut (b.authorize c caller r.set r.command.action).1 := by
  cases hverdict : (b.authorize c caller r.set r.command.action).1 with
  | error denial =>
    have hserve : b.serve draw c r = _ := serve_denied h hverdict
    refine ⟨handle_response_of_error (by rw [hserve]), ?_⟩
    rw [countP_isKeyRead_handle, hserve]
    exact countP_isKeyRead_authorize r.set r.command.action
  | ok capability =>
    have hserve : b.serve draw c r = _ := serve_permitted h hverdict
    refine ⟨?_, ?_, fun _ _ _ _ _ _ hmem => held_of_granted_mem h hverdict hmem⟩
    · cases hdone : (b.fulfil draw c.id caller capability r).1 with
      | ok body => rw [handle_response_of_ok (by rw [hserve]; exact hdone)]; nofun
      | error fault =>
        rw [handle_response_of_error (by rw [hserve]; exact hdone)]
        intro hkind
        exact kind_of_fulfil_eq_error hdone (Option.some.inj hkind)
    · rw [countP_isKeyRead_handle, hserve, List.countP_append, countP_isKeyRead_authorize,
        countP_isKeyRead_fulfil]

end Broker

/-- What bears out the judgement on a capability is a denial just if the capability
    does not permit the action. -/
theorem Answer.BearsOut.kind_ne_denied_iff {a : Answer} {caller : Caller} {set : String}
    {action : Action} {capability : Capability}
    (h : a.BearsOut (Capability.judge caller set action (some capability))) :
    a.response.kind ≠ some .denied ↔ capability.permits action = true := by
  by_cases hpermits : capability.permits action = true
  · simp only [Capability.judge, hpermits, if_true] at h
    exact ⟨fun _ => hpermits, fun _ => h.1⟩
  · simp only [Capability.judge, hpermits] at h
    refine ⟨fun hkind => absurd ?_ hkind, fun hp => absurd hp hpermits⟩
    rw [h.1]
    rfl

namespace Scene

/-! ### Requests on a connection -/

/-- The record decides. Whatever happened on a connection since it was opened:

    1. what the connection remembers is the record, no set is on it twice, and there
       is no more on it than there is room for;
    2. what is on record for a set stays on record whatever happens next;
    3. a request for a key of a set on record is decided by the record and the gate
       is not asked; for any other set the gate is asked once, its present answer
       decides, and no answer but a grant goes on record; and as long as the policy
       has not been replaced, every request gets what the gate would say afresh. -/
theorem decided_by_record (b : Broker) (id : Nat) (caller? : Option Caller)
    (acts : List Act) :
    let start := opened b id caller?
    let now := start.after acts
    let book := record (start.events acts)
    ((∀ set, now.connection.known? set = book.lookup set)
      ∧ (book.map Prod.fst).Nodup ∧ book.length ≤ maxRemembered)
    ∧ (∀ more set capability, book.lookup set = some capability →
      (record (start.events (acts ++ more))).lookup set = some capability)
    ∧ ∀ draw caller r, Keyed now.connection caller r →
      let a := now.answer draw r
      let action := r.command.action
      (∀ capability, book.lookup r.set = some capability →
        questions a.events = []
        ∧ a.BearsOut (Capability.judge caller r.set action (some capability))
        ∧ (a.response.kind ≠ some .denied ↔ capability.permits action = true))
      ∧ (book.lookup r.set = none →
        questions a.events = [.gateAsked caller r.set (now.broker.gate caller r.set)]
        ∧ a.BearsOut (now.broker.gate.authorize caller r.set action)
        ∧ (now.broker.gate caller r.set = none →
          record (start.events (acts ++ [.request draw r])) = book))
      ∧ ((∀ act ∈ acts, act.isGovern = false) →
        a.BearsOut (now.broker.gate.authorize caller r.set action)) := by
  intro start now book
  have hbook : book = now.connection.remembered := record_events b id caller? acts
  have hknown : ∀ set, now.connection.known? set = book.lookup set := by
    intro set
    rw [hbook]
    rfl
  have htidy : Tidy now.connection := tidy_after acts (tidy_opened b id caller?)
  refine ⟨⟨hknown, by rw [hbook]; exact htidy.distinct, by rw [hbook]; exact htidy.bounded⟩,
    ?_, ?_⟩
  · -- The connection after more acts is a connection that forgot nothing.
    intro more set capability h
    rw [record_events, after_append]
    exact known?_after more ((hknown set).trans h)
  · intro draw caller r hkeyed a action
    have hbears : a.BearsOut (now.broker.authorize now.connection caller r.set action).1 :=
      Broker.bearsOut_authorize hkeyed
    refine ⟨?_, ?_, ?_⟩
    · intro capability h
      have hset : now.connection.known? r.set = some capability := (hknown r.set).trans h
      rw [Broker.authorize_of_known action hset] at hbears
      exact ⟨(Broker.handle_of_known hkeyed hset).2, hbears, hbears.kind_ne_denied_iff⟩
    · intro h
      have hset : now.connection.known? r.set = none := (hknown r.set).trans h
      rw [Broker.authorize_of_unknown action hset] at hbears
      refine ⟨(Broker.handle_of_unknown hkeyed hset).2, hbears, ?_⟩
      intro hnone
      rw [record_events, after_append, hbook]
      show (now.broker.handle draw now.connection r).connection.remembered = _
      rw [(Broker.handle_of_unknown hkeyed hset).1, hnone]
      rfl
    · intro hstays
      cases hset : now.connection.known? r.set with
      | none =>
        rw [Broker.authorize_of_unknown action hset] at hbears
        exact hbears
      | some capability =>
        rw [Broker.authorize_of_known action hset] at hbears
        have hgate := gate_of_known? hstays hkeyed.authenticated hset
        rw [Gate.authorize, hgate]
        exact hbears

/-- A denied request to read a key puts the right to use the key on record, and the
    record outlives the policy: the key is used without a question. -/
theorem decided_by_record_after_revocation :
    let caller : Caller := ⟨1000, 100, none⟩
    let draw : Draw := ⟨Vector.replicate 12 0, Vector.replicate 64 0, 1⟩
    let start := opened ⟨.empty, fun _ _ => some .operate, {}⟩ 1 (some caller)
    let acts := [.request draw { command := .retrieve, set := "a" }, .govern fun _ _ => none]
    let r : Request := { command := .operate .hmac, set := "a" }
    Keyed (start.after acts).connection caller r
      ∧ (record (start.events acts)).lookup r.set = some .operate
      ∧ (start.after acts).broker.gate caller r.set = none
      ∧ questions ((start.after acts).answer draw r).events = []
      ∧ ((start.after acts).answer draw r).response.kind ≠ some .denied := by
  intro caller draw start acts r
  have hkeyed : Keyed (start.after acts).connection caller r := by decide
  have hrecord : (record (start.events acts)).lookup r.set = some .operate := by decide
  obtain ⟨hquiet, -, hpermitted⟩ :=
    ((decided_by_record ⟨.empty, fun _ _ => some .operate, {}⟩ 1 (some caller) acts).2.2
      draw caller r hkeyed).1 .operate hrecord
  exact ⟨hkeyed, hrecord, rfl, hquiet, hpermitted.mpr rfl⟩

end Scene

end KeyBroker
