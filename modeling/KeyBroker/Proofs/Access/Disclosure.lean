import KeyBroker.Proofs.Access.Scene

/-! # Where keys leave the broker

  Only a request to retrieve gives out key material, and only where the gate has
  granted the caller to read the keys of that very set: in the same request, or in
  an earlier one of the same connection whose grant the connection remembers. What
  leaves is the version that the store shows at that moment.
-/

namespace KeyBroker

/-! ### Results that carry keys -/

/-- Whether a result carries key material. -/
def Body.isKey : Body → Bool
  | bytes _ | verdict _ => false
  | secretKey .. | keyPair .. => true

/-- A result carries the number and the material of a version. -/
def Body.Carries : Body → KeyVersion → Prop
  | secretKey number secret, v => number = v.number ∧ v.material = .secret secret
  | keyPair number publicBytes privateBytes, v =>
    number = v.number ∧ ∃ k : KeyPair, v.material = .pair k
      ∧ publicBytes = k.publicBytes ∧ k.privateBytes = .ok privateBytes
  | bytes _, _ | verdict _, _ => False

/-- A version that is handed out is carried whole. -/
theorem KeyVersion.carries_of_body {v : KeyVersion} {body : Body} (h : v.body = .ok body) :
    body.Carries v := by
  unfold KeyVersion.body at h
  split at h
  · next secret hmaterial =>
    injection h with h
    subst h
    exact ⟨rfl, hmaterial⟩
  · next k hmaterial =>
    split at h
    · next privateBytes hprivate =>
      injection h with h
      subst h
      exact ⟨rfl, k, hmaterial, rfl, hprivate⟩
    · cases h

/-- What an operation gives carries no key. -/
theorem Outcome.isKey_body (outcome : Outcome) : outcome.body.isKey = false := by
  cases outcome <;> rfl

/-- Only the capability to retrieve permits to retrieve. -/
theorem Capability.eq_retrieve_of_judge {caller : Caller} {set : String}
    {held : Option Capability} {capability : Capability}
    (h : Capability.judge caller set .retrieve held = .ok capability) :
    held = some .retrieve := by
  unfold Capability.judge at h
  split at h
  · next known =>
    split at h
    · next hpermits =>
      cases known with
      | operate => cases hpermits
      | retrieve => rfl
    · cases h
  · cases h

/-! ### One request -/

namespace Broker

variable {b : Broker} {draw : Draw} {c : Connection} {caller : Caller} {r : Request}

/-- A permitted request that gives out a key asks to retrieve it, and gives out the
    version that the store shows. -/
theorem carries_of_fulfil {conn : Nat} {capability : Capability} {body : Body}
    (hping : r.command ≠ .ping)
    (h : (b.fulfil draw conn caller capability r).1 = .ok body) (hkey : body.isKey = true) :
    r.command = .retrieve
      ∧ ∃ v, b.store.get r.set (Selector.ofNumber r.version) = .ok v ∧ body.Carries v := by
  cases hread : b.store.get r.set (Selector.ofNumber r.version) with
  | error missing => rw [fulfil_of_missing hread] at h; cases h
  | ok v =>
    rw [fulfil_of_found hread] at h
    unfold useKey at h
    split at h
    · obtain ⟨outcome, rfl⟩ := operate_eq_ok h
      rw [Outcome.isKey_body] at hkey
      cases hkey
    · next heq => exact absurd heq hping
    · next heq => exact ⟨heq, v, rfl, KeyVersion.carries_of_body h⟩

/-- A request that gives out a key comes from a known caller, asks to retrieve, and
    is let pass by the capability to retrieve: remembered, or granted at once. -/
theorem retrieve_of_isKey {body : Body} (h : (b.serve draw c r).1 = .ok body)
    (hkey : body.isKey = true) :
    ∃ caller, Keyed c caller r ∧ r.command = .retrieve
      ∧ (c.known? r.set = some .retrieve
        ∨ (c.known? r.set = none ∧ b.gate caller r.set = some .retrieve))
      ∧ ∃ v, b.store.get r.set (Selector.ofNumber r.version) = .ok v ∧ body.Carries v := by
  by_cases hping : r.command = .ping
  · rw [serve_ping hping] at h
    injection h with h
    subst h
    cases hkey
  · cases hcaller : c.caller with
    | none => rw [serve_unauthenticated hping hcaller] at h; cases h
    | some caller =>
      by_cases hset : r.set = ""
      · rw [serve_unnamed hping hcaller hset] at h; cases h
      · have hkeyed : Keyed c caller r := ⟨hcaller, hping, hset⟩
        cases hverdict : (b.authorize c caller r.set r.command.action).1 with
        | error denial => rw [serve_denied hkeyed hverdict] at h; cases h
        | ok capability =>
          rw [serve_permitted hkeyed hverdict] at h
          obtain ⟨hretrieve, hcarried⟩ := carries_of_fulfil hping h hkey
          refine ⟨caller, hkeyed, hretrieve, ?_, hcarried⟩
          rw [hretrieve] at hverdict
          cases hknown : c.known? r.set with
          | some known =>
            rw [authorize_of_known _ hknown] at hverdict
            exact Or.inl (Capability.eq_retrieve_of_judge hverdict)
          | none =>
            rw [authorize_of_unknown _ hknown] at hverdict
            exact Or.inr ⟨rfl, Capability.eq_retrieve_of_judge hverdict⟩

end Broker

/-! ### Every run -/

namespace Scene

/-- The events of acts contain those of each request among them. -/
theorem mem_events_of_request {s : Scene} {past rest : List Act} {draw : Draw} {r : Request}
    {e : Event} (h : e ∈ ((s.after past).answer draw r).events) :
    e ∈ s.events (past ++ .request draw r :: rest) := by
  rw [events_append]
  exact List.mem_append_right _ (List.mem_append_left _ h)

/-- A response that carries a key answers a request to retrieve from a known caller, to
    whom the gate granted to retrieve from that set: in this request, or in an earlier
    one whose answer the connection came to remember. -/
theorem granted_of_isKey {b : Broker} {id : Nat} {caller? : Option Caller} {acts : List Act}
    {draw : Draw} {r : Request} {body : Body}
    (hbody : (((opened b id caller?).after acts).answer draw r).response.result = some body)
    (hkey : body.isKey = true) :
    r.command = .retrieve
      ∧ ∃ caller, caller? = some caller
      ∧ (((opened b id caller?).after acts).Grants draw r caller r.set .retrieve
        ∨ ∃ past draw' r' rest, acts = past ++ .request draw' r' :: rest
          ∧ ((opened b id caller?).after past).Grants draw' r' caller r.set .retrieve
          ∧ (((opened b id caller?).after past).answer draw' r').connection.known? r.set
            = some .retrieve)
      ∧ ∃ v, ((opened b id caller?).after acts).broker.store.get r.set
            (Selector.ofNumber r.version) = .ok v
        ∧ body.Carries v := by
  obtain ⟨caller, hkeyed, hretrieve, hheld, hcarried⟩ :=
    Broker.retrieve_of_isKey (Broker.handle_result_eq_some.mp hbody) hkey
  have hcaller : caller? = some caller := by
    rw [← hkeyed.authenticated]
    exact (caller_after (opened b id caller?) acts).symm
  refine ⟨hretrieve, caller, hcaller, ?_, hcarried⟩
  obtain hknown | ⟨hunknown, hgate⟩ := hheld
  · -- The capability was remembered, so an earlier request brought it in.
    obtain hbefore | ⟨past, draw', r', rest, asker, hacts, hgrants, hput⟩ :=
      known?_after_cases hknown
    · cases hbefore
    · have hasker : asker = caller := by
        have h := hgrants.keyed.authenticated
        rw [caller_after] at h
        exact Option.some.inj (h.symm.trans hcaller)
      subst hasker
      exact Or.inr ⟨past, draw', r', rest, hacts, hgrants, hput⟩
  · refine Or.inl ⟨hkeyed, rfl, hgate, ?_⟩
    rw [← hgate]
    exact (Broker.handle_of_unknown hkeyed hunknown).2

/-- Key material leaves only under the capability to retrieve. On any connection,
    after any acts: a response that carries a key answers a request to retrieve from
    a known caller; the gate granted that caller to retrieve from that set, in this
    request, or in an earlier one whose answer the connection came to remember; and
    the response carries the version that the store shows now. So a connection on
    which the gate never grants to retrieve is never given a key. -/
theorem retrieved_only_if_granted (b : Broker) (id : Nat) (caller? : Option Caller)
    (acts : List Act) (draw : Draw) (r : Request) :
    let start := opened b id caller?
    let now := start.after acts
    let a := now.answer draw r
    (∀ body, a.response.result = some body → body.isKey = true →
      r.command = .retrieve
      ∧ ∃ caller, caller? = some caller
      ∧ (now.Grants draw r caller r.set .retrieve
        ∨ ∃ past draw' r' rest, acts = past ++ .request draw' r' :: rest
          ∧ (start.after past).Grants draw' r' caller r.set .retrieve
          ∧ ((start.after past).answer draw' r').connection.known? r.set = some .retrieve)
      ∧ ∃ v, now.broker.store.get r.set (Selector.ofNumber r.version) = .ok v
        ∧ body.Carries v)
    ∧ ((∀ caller set, Event.gateAsked caller set (some .retrieve)
        ∉ start.events (acts ++ [.request draw r])) →
      ∀ body, a.response.result = some body → body.isKey = false) := by
  intro start now a
  refine ⟨fun body hbody hkey => granted_of_isKey hbody hkey, ?_⟩
  intro hnever body hbody
  cases hkey : body.isKey with
  | false => rfl
  | true =>
    exfalso
    obtain ⟨-, caller, -, hgrants, -⟩ := granted_of_isKey hbody hkey
    obtain hgrants | ⟨past, draw', r', rest, hacts, hgrants, -⟩ := hgrants
    · exact hnever caller r.set (mem_events_of_request hgrants.mem_events)
    · refine hnever caller r.set ?_
      rw [hacts, List.append_assoc]
      exact mem_events_of_request hgrants.mem_events

/-- A failed request to sign brings in the capability, the policy is withdrawn, a
    new version is published, and that version is still handed out: by the grant
    that the connection remembers, and by no other. -/
theorem retrieved_only_if_granted_before_revocation :
    let caller : Caller := ⟨1000, 100, none⟩
    let draw : Draw := ⟨Vector.replicate 12 0, Vector.replicate 64 0, 1⟩
    let start := opened ⟨.empty, fun _ _ => some .retrieve, {}⟩ 1 (some caller)
    let acts := [.publish "a" (.secret [1]),
      .request draw { command := .operate .sign, set := "a", version := 9 },
      .govern fun _ _ => none, .publish "a" (.secret [2])]
    let r : Request := { command := .retrieve, set := "a" }
    ((start.after acts).answer draw r).response.result = some (.secretKey 2 [2])
      ∧ (start.after acts).broker.gate caller "a" = none
      ∧ ∃ past draw' r' rest, acts = past ++ .request draw' r' :: rest
        ∧ (start.after past).Grants draw' r' caller "a" .retrieve := by
  intro caller draw start acts r
  have hbody : ((start.after acts).answer draw r).response.result
      = some (.secretKey 2 [2]) := by decide
  refine ⟨hbody, rfl, ?_⟩
  obtain ⟨-, asker, hasker, hgrants, -⟩ :=
    (retrieved_only_if_granted ⟨.empty, fun _ _ => some .retrieve, {}⟩ 1 (some caller) acts
      draw r).1 _ hbody rfl
  cases hasker
  obtain hgrants | ⟨past, draw', r', rest, hacts, hgrants, -⟩ := hgrants
  · cases hgrants.granted
  · exact ⟨past, draw', r', rest, hacts, hgrants⟩

end Scene

end KeyBroker
