import KeyBroker.Proofs.Access.Obstacles

/-! # The audit trail

  What handling a request does to what is around it: the questions that it puts to the gate,
  the keys that it reads from the store, and the lines that it leaves in the audit. The lines
  are told here by their text, from the request and from what the caller gets. The invariants
  of every request:

  - the store is reached only after the decision, and only to read the key that is asked for;
  - a key that was found leaves one line of a grant, before all else;
  - an error that the caller gets leaves one warning with its text, after all else.
-/

namespace KeyBroker

/-! ### Traces -/

/-- The readings of keys among events. -/
def readings (events : List Event) : List Event := events.filter Event.isKeyRead

@[simp] theorem readings_append (before after : List Event) :
    readings (before ++ after) = readings before ++ readings after :=
  List.filter_append ..

/-- The lines that events leave in the audit. -/
def auditLines (events : List Event) : List Record :=
  (records events).filter fun line => line.topic == Topic.audit.name

@[simp] theorem auditLines_append (before after : List Event) :
    auditLines (before ++ after) = auditLines before ++ auditLines after := by
  rw [auditLines, records, List.filterMap_append, List.filter_append]
  rfl

/-- The line that tells of a grant: on which connection, to whom, for what, of which set and
    version, and by which capability. -/
def grantLine (c : Connection) (caller : Caller) (r : Request) (version : UInt32)
    (capability : Capability) : Record where
  level := .info
  topic := "custody::audit"
  text :=
    s!"conn#{c.id} {caller.describe} {r.command.name} {r.set} v{version.toNat} granted "
      ++ s!"({capability.word})"

/-- The line that tells of an error, by the text that the caller gets. -/
def warningLine (c : Connection) (r : Request) (text : String) : Record where
  level := .warn
  topic := "custody::audit"
  text :=
    s!"conn#{c.id} {describeCaller c.caller} {r.command.name} {r.set} "
      ++ s!"{(Selector.ofNumber r.version).describe}: " ++ text

/-- The lines are what a response calls for: nothing when it reports success, and one warning
    when it reports an error. -/
def Warned (c : Connection) (r : Request) (response : Response) (lines : List Record) : Prop :=
  response.status = .ok ∧ lines = []
  ∨ ∃ text, response.status = .error ∧ response.message = some text
    ∧ lines = [warningLine c r text]

namespace Broker

/-! ### Courses -/

/-- A request finds its key: its caller is known, the capability in force permits what it
    asks, and the store has the version. -/
structure Finds (b : Broker) (c : Connection) (r : Request) (caller : Caller)
    (capability : Capability) (v : KeyVersion) : Prop where
  /-- The request is for a key. -/
  keyed : Keyed c caller r
  /-- The capability is the one in force, -/
  inForce : b.inForce c caller r.set = some capability
  /-- and it permits the action. -/
  permits : capability.permits r.command.action = true
  /-- The version is there. -/
  found : b.store.get r.set (Selector.ofNumber r.version) = .ok v

/-- The courses that serving a request can take, with what comes of each and what happens on
    the way. -/
inductive Course (b : Broker) (draw : Draw) (c : Connection) (r : Request) :
    Except Fault Body → List Event → Prop where
  /-- A ping is answered. -/
  | pinged (hping : r.command = .ping) : Course b draw c r (.ok (.verdict true)) [.pinged c.id]
  /-- Without a caller or a set, nothing is looked at. -/
  | turnedAway (fault : Fault) (hping : r.command ≠ .ping) (hbare : c.caller = none ∨ r.set = "") :
    Course b draw c r (.error fault) []
  /-- The decision is against the request. -/
  | denied (fault : Fault) (caller : Caller) (hkeyed : Keyed c caller r)
      (hpermits : b.permits c r = false) :
    Course b draw c r (.error fault) (b.authorize c caller r.set r.command.action).2.2
  /-- The request is permitted, but the key is not there. -/
  | missing (cause : Missing) (caller : Caller) (hkeyed : Keyed c caller r)
      (hpermits : b.permits c r = true)
      (hget : b.store.get r.set (Selector.ofNumber r.version) = .error cause) :
    Course b draw c r (.error (.notFound cause))
      ((b.authorize c caller r.set r.command.action).2.2
        ++ [.keyRead r.set (Selector.ofNumber r.version)])
  /-- The key is there, and the grant is recorded before it is used. -/
  | found (caller : Caller) (capability : Capability) (v : KeyVersion)
      (hfinds : b.Finds c r caller capability v) :
    Course b draw c r (b.useKey draw v r)
      ((b.authorize c caller r.set r.command.action).2.2
        ++ [.keyRead r.set (Selector.ofNumber r.version),
          .granted c.id caller r.command r.set v.number capability])

variable {b : Broker} {draw : Draw} {c : Connection} {caller : Caller} {r : Request}
  {capability : Capability} {v : KeyVersion}

/-- What finds its key is permitted. -/
theorem Finds.permits_eq_true (h : b.Finds c r caller capability v) : b.permits c r = true := by
  rw [Broker.permits, h.keyed.authenticated]
  show (b.inForce c caller r.set).any _ = true
  rw [h.inForce]
  exact h.permits

/-- A capability that lets a request pass is the one in force, and permits the action. -/
theorem of_authorize_eq_ok {set : String} {action : Action}
    (h : (b.authorize c caller set action).1 = .ok capability) :
    b.inForce c caller set = some capability ∧ capability.permits action = true := by
  rw [authorize_eq_judge] at h
  cases hforce : b.inForce c caller set with
  | none =>
    rw [hforce] at h
    cases h
  | some held =>
    rw [hforce] at h
    by_cases hpermits : held.permits action = true
    · have hheld : held = capability := by
        simpa [Capability.judge, hpermits] using h
      subst hheld
      exact ⟨rfl, hpermits⟩
    · simp [Capability.judge, hpermits] at h

/-- Serving a request takes one of the courses. -/
theorem course_serve (b : Broker) (draw : Draw) (c : Connection) (r : Request) :
    b.Course draw c r (b.serve draw c r).1 (b.serve draw c r).2.2 := by
  by_cases hping : r.command = .ping
  · rw [serve_ping hping]
    exact .pinged hping
  cases hcaller : c.caller with
  | none =>
    rw [serve_unauthenticated hping hcaller]
    exact .turnedAway _ hping (Or.inl hcaller)
  | some caller =>
    by_cases hset : r.set = ""
    · rw [serve_unnamed hping hcaller hset]
      exact .turnedAway _ hping (Or.inr hset)
    have hkeyed : Keyed c caller r := ⟨hcaller, hping, hset⟩
    cases hpermits : b.permits c r with
    | false =>
      rw [serve_denied hkeyed (authorize_of_not_permits hcaller hpermits)]
      exact .denied _ caller hkeyed hpermits
    | true =>
      obtain ⟨capability, hverdict⟩ := authorize_of_permits hcaller hpermits
      obtain ⟨hforce, haction⟩ := of_authorize_eq_ok hverdict
      rw [serve_permitted hkeyed hverdict]
      cases hget : b.store.get r.set (Selector.ofNumber r.version) with
      | error cause =>
        rw [fulfil_of_missing hget]
        exact .missing cause caller hkeyed hpermits hget
      | ok v =>
        rw [fulfil_of_found hget]
        exact .found caller capability v ⟨hkeyed, hforce, haction, hget⟩

/-! ### Traces of the stages -/

/-- Deciding reads no key and leaves no line in the audit. -/
theorem traces_authorize (set : String) (action : Action) :
    readings (b.authorize c caller set action).2.2 = []
      ∧ auditLines (b.authorize c caller set action).2.2 = [] := by
  cases hknown : c.known? set with
  | some capability =>
    rw [authorize_of_known action hknown]
    exact ⟨rfl, rfl⟩
  | none =>
    rw [authorize_of_unknown action hknown]
    exact ⟨rfl, rfl⟩

/-- The line of a grant is the record of its event. -/
theorem auditLines_granted (version : UInt32) (capability : Capability) :
    auditLines [.keyRead r.set (Selector.ofNumber r.version),
        .granted c.id caller r.command r.set version capability]
      = [grantLine c caller r version capability] := rfl

/-- A refusal is recorded by its message. -/
theorem auditLines_refused (fault : Fault) :
    auditLines [.refused c.id c.caller r.command r.set (Selector.ofNumber r.version) fault]
      = [warningLine c r fault.message] := by
  show [(⟨.warn, _, _⟩ : Record)] = _
  simp [warningLine, Topic.name, toString, String.append_assoc]

/-- What a request reads is read by the time it is served. -/
theorem readings_handle :
    readings (b.handle draw c r).events = readings (b.serve draw c r).2.2 := by
  obtain h | ⟨fault, h⟩ := b.handle_events draw c r
  · rw [h]
  · rw [h, readings_append]
    exact List.append_nil _

/-- What is added to the lines of serving is what the response calls for. -/
theorem auditLines_handle (b : Broker) (draw : Draw) (c : Connection) (r : Request) :
    ∃ warnings, auditLines (b.handle draw c r).events
        = auditLines (b.serve draw c r).2.2 ++ warnings
      ∧ Warned c r (b.handle draw c r).response warnings := by
  unfold handle
  split
  · next body after events heq =>
    refine ⟨[], ?_, Or.inl ⟨rfl, rfl⟩⟩
    rw [heq, List.append_nil]
  · next fault after events heq =>
    refine ⟨[warningLine c r fault.message], ?_, Or.inr ⟨fault.message, rfl, rfl, rfl⟩⟩
    rw [heq, auditLines_append, auditLines_refused]

/-- A response reports success just when the request was served. -/
theorem status_handle_eq_ok :
    (b.handle draw c r).response.status = .ok ↔ ∃ body, (b.serve draw c r).1 = .ok body := by
  cases h : (b.serve draw c r).1 with
  | ok body => simp [handle_response_of_ok h, Response.success]
  | error fault => simp [handle_response_of_error h, Response.ofFault, Response.failure]

/-! ### Traces of the courses -/

/-- A request finds its key in one way only. -/
theorem Finds.unique {caller' : Caller} {capability' : Capability} {v' : KeyVersion}
    (h : b.Finds c r caller capability v) (h' : b.Finds c r caller' capability' v') :
    caller' = caller ∧ capability' = capability ∧ v' = v := by
  have hcaller : caller' = caller :=
    Option.some.inj (h'.keyed.authenticated.symm.trans h.keyed.authenticated)
  subst hcaller
  have hcapability := Option.some.inj (h'.inForce.symm.trans h.inForce)
  have hversion := Except.ok.inj (h'.found.symm.trans h.found)
  exact ⟨rfl, hcapability, hversion⟩

namespace Course

variable {result : Except Fault Body} {events : List Event}

/-- Without permission no key is read. -/
theorem readings_of_not_permits (h : b.Course draw c r result events)
    (hpermits : b.permits c r = false) : readings events = [] := by
  cases h with
  | pinged hping => rfl
  | turnedAway fault hping hbare => rfl
  | denied fault caller hkeyed hdenied => exact (traces_authorize _ _).1
  | missing cause caller hkeyed hpermitted hget =>
    rw [hpermits] at hpermitted
    cases hpermitted
  | found caller capability v hfinds =>
    rw [hfinds.permits_eq_true] at hpermits
    cases hpermits

/-- Nor is one read for what is no request for a key. -/
theorem readings_of_not_keyed (h : b.Course draw c r result events)
    (hunkeyed : ∀ caller, ¬ Keyed c caller r) : readings events = [] := by
  cases h with
  | pinged hping => rfl
  | turnedAway fault hping hbare => rfl
  | denied fault caller hkeyed hdenied => exact absurd hkeyed (hunkeyed caller)
  | missing cause caller hkeyed hpermitted hget => exact absurd hkeyed (hunkeyed caller)
  | found caller capability v hfinds => exact absurd hfinds.keyed (hunkeyed caller)

/-- With permission the key is read, and no other. -/
theorem readings_of_permits (h : b.Course draw c r result events) (hkeyed : Keyed c caller r)
    (hpermits : b.permits c r = true) :
    readings events = [.keyRead r.set (Selector.ofNumber r.version)] := by
  cases h with
  | pinged hping => exact absurd hping hkeyed.notPing
  | turnedAway fault hping hbare =>
    rcases hbare with hcaller | hset
    · rw [hkeyed.authenticated] at hcaller
      cases hcaller
    · exact absurd hset hkeyed.named
  | denied fault caller hkeyed hdenied =>
    rw [hpermits] at hdenied
    cases hdenied
  | missing cause caller hkeyed hpermitted hget =>
    rw [readings_append, (traces_authorize _ _).1]
    rfl
  | found caller capability v hfinds =>
    rw [readings_append, (traces_authorize _ _).1]
    rfl

/-- A key that is found leaves the line of its grant. -/
theorem auditLines_of_finds (h : b.Course draw c r result events)
    (hfinds : b.Finds c r caller capability v) :
    auditLines events = [grantLine c caller r v.number capability] := by
  cases h with
  | pinged hping => exact absurd hping hfinds.keyed.notPing
  | turnedAway fault hping hbare =>
    rcases hbare with hcaller | hset
    · rw [hfinds.keyed.authenticated] at hcaller
      cases hcaller
    · exact absurd hset hfinds.keyed.named
  | denied fault caller hkeyed hdenied =>
    rw [hfinds.permits_eq_true] at hdenied
    cases hdenied
  | missing cause caller hkeyed hpermitted hget =>
    rw [hfinds.found] at hget
    cases hget
  | found caller' capability' v' hfinds' =>
    obtain ⟨rfl, rfl, rfl⟩ := hfinds.unique hfinds'
    rw [auditLines_append, (traces_authorize _ _).2, auditLines_granted]
    rfl

/-- Nothing else leaves a line while a request is served. -/
theorem auditLines_of_not_finds (h : b.Course draw c r result events)
    (hnone : ∀ caller capability v, ¬ b.Finds c r caller capability v) :
    auditLines events = [] := by
  cases h with
  | pinged hping => rfl
  | turnedAway fault hping hbare => rfl
  | denied fault caller hkeyed hdenied => exact (traces_authorize _ _).2
  | missing cause caller hkeyed hpermitted hget =>
    rw [auditLines_append, (traces_authorize _ _).2]
    rfl
  | found caller capability v hfinds => exact absurd hfinds (hnone caller capability v)

/-- A request for a key succeeds only with its key. -/
theorem finds_of_ok {body : Body} (h : b.Course draw c r (.ok body) events)
    (hping : r.command ≠ .ping) : ∃ caller capability v, b.Finds c r caller capability v := by
  generalize hresult : (Except.ok body : Except Fault Body) = result at h
  cases h with
  | pinged h => exact absurd h hping
  | turnedAway fault _ hbare => cases hresult
  | denied fault caller hkeyed hdenied => cases hresult
  | missing cause caller hkeyed hpermitted hget => cases hresult
  | found caller capability v hfinds => exact ⟨caller, capability, v, hfinds⟩

end Course

/-! ### What is not looked at -/

/-- A request that is no ping, has a caller and names a set is a request for a key. -/
theorem keyed_of_not_bare (h : ¬ (r.command = .ping ∨ c.caller = none ∨ r.set = "")) :
    ∃ caller, Keyed c caller r := by
  obtain ⟨hping, hrest⟩ := not_or.mp h
  obtain ⟨hcaller, hset⟩ := not_or.mp hrest
  obtain ⟨caller, hcaller⟩ := Option.ne_none_iff_exists'.mp hcaller
  exact ⟨caller, hcaller, hping, hset⟩

/-- What serves alike handles alike. -/
theorem handle_congr {b' : Broker} (h : b'.serve draw c r = b.serve draw c r) :
    b'.handle draw c r = b.handle draw c r := by
  unfold handle
  rw [h]

/-- Nothing of the broker enters the answer to a ping, or to a request without a caller or a
    set. -/
theorem handle_of_apart (b' : Broker) (h : r.command = .ping ∨ c.caller = none ∨ r.set = "") :
    b'.handle draw c r = b.handle draw c r := by
  apply handle_congr
  by_cases hping : r.command = .ping
  · rw [serve_ping hping, serve_ping hping]
  cases hcaller : c.caller with
  | none => rw [serve_unauthenticated hping hcaller, serve_unauthenticated hping hcaller]
  | some caller =>
    have hset : r.set = "" := by
      rcases h with h | h | h
      · exact absurd h hping
      · rw [hcaller] at h
        cases h
      · exact h
    rw [serve_unnamed hping hcaller hset, serve_unnamed hping hcaller hset]

/-- Nothing of the store enters the answer to a request that is not permitted. -/
theorem handle_of_not_permits (store : KeyStore) (h : b.permits c r = false) :
    { b with store }.handle draw c r = b.handle draw c r := by
  by_cases hbare : r.command = .ping ∨ c.caller = none ∨ r.set = ""
  · exact handle_of_apart _ hbare
  obtain ⟨caller, hkeyed⟩ := keyed_of_not_bare hbare
  have hdenied := authorize_of_not_permits hkeyed.authenticated h
  apply handle_congr
  rw [serve_denied hkeyed hdenied, serve_denied (b := { b with store }) hkeyed hdenied]
  rfl

/-- Nothing of the store but the version that is asked for enters the answer to any other. -/
theorem handle_of_get {store : KeyStore}
    (h : store.get r.set (Selector.ofNumber r.version)
      = b.store.get r.set (Selector.ofNumber r.version)) :
    { b with store }.handle draw c r = b.handle draw c r := by
  by_cases hbare : r.command = .ping ∨ c.caller = none ∨ r.set = ""
  · exact handle_of_apart _ hbare
  obtain ⟨caller, hkeyed⟩ := keyed_of_not_bare hbare
  cases hpermits : b.permits c r with
  | false => exact handle_of_not_permits store hpermits
  | true =>
    obtain ⟨capability, hverdict⟩ := authorize_of_permits hkeyed.authenticated hpermits
    have hfulfil : { b with store }.fulfil draw c.id caller capability r
        = b.fulfil draw c.id caller capability r := by
      cases hget : b.store.get r.set (Selector.ofNumber r.version) with
      | error cause => rw [fulfil_of_missing (h.trans hget), fulfil_of_missing hget]
      | ok v =>
        rw [fulfil_of_found (h.trans hget), fulfil_of_found hget]
        rfl
    apply handle_congr
    rw [serve_permitted hkeyed hverdict,
      serve_permitted (b := { b with store }) hkeyed hverdict, hfulfil]
    rfl

/-! ### The account of a request -/

/-- What handling a request does to the gate, the store, the connection and the audit. -/
structure Accounted (b : Broker) (draw : Draw) (c : Connection) (r : Request) : Prop where
  /-- A ping leaves the connection as it is and no line in the audit. -/
  ping : r.command = .ping →
    (b.handle draw c r).connection = c ∧ auditLines (b.handle draw c r).events = []
      ∧ (b.handle draw c r).response.status = .ok
  /-- A ping, and a request without a caller or a set, puts no question to the gate and reads
      nothing from the store; any other broker would answer the same. -/
  apart : r.command = .ping ∨ c.caller = none ∨ r.set = "" →
    questions (b.handle draw c r).events = [] ∧ readings (b.handle draw c r).events = []
      ∧ ∀ b' : Broker, b'.handle draw c r = b.handle draw c r
  /-- A request that is not permitted reads nothing from the store; with any other store it is
      answered the same. -/
  denied : b.permits c r = false →
    readings (b.handle draw c r).events = []
      ∧ ∀ store, { b with store }.handle draw c r = b.handle draw c r
  /-- A permitted request reads from the store once, the version that it asks for; any other
      store that has the same there answers the same. -/
  permitted : ∀ caller, Keyed c caller r → b.permits c r = true →
    readings (b.handle draw c r).events = [.keyRead r.set (Selector.ofNumber r.version)]
      ∧ ∀ store : KeyStore, store.get r.set (Selector.ofNumber r.version)
          = b.store.get r.set (Selector.ofNumber r.version) →
        { b with store }.handle draw c r = b.handle draw c r
  /-- A key that is found leaves the line of its grant, and after it what the response calls
      for. -/
  found : ∀ caller capability v, b.Finds c r caller capability v →
    ∃ warnings, auditLines (b.handle draw c r).events
        = grantLine c caller r v.number capability :: warnings
      ∧ Warned c r (b.handle draw c r).response warnings
  /-- Without a key that is found there is nothing but what the response calls for. -/
  unfound : r.command ≠ .ping → (∀ caller capability v, ¬ b.Finds c r caller capability v) →
    Warned c r (b.handle draw c r).response (auditLines (b.handle draw c r).events)
  /-- A request for a key that succeeds has found it, and leaves the line of its grant alone. -/
  used : r.command ≠ .ping → (b.handle draw c r).response.status = .ok →
    ∃ caller capability v, b.Finds c r caller capability v
      ∧ auditLines (b.handle draw c r).events = [grantLine c caller r v.number capability]

/-- Every request is accounted for: what it asks of the gate and the store, and every line
    that it leaves in the audit. -/
theorem accounted_handle (b : Broker) (draw : Draw) (c : Connection) (r : Request) :
    b.Accounted draw c r := by
  have hcourse := b.course_serve draw c r
  obtain ⟨warnings, hlines, hwarned⟩ := b.auditLines_handle draw c r
  -- a response that reports success calls for no warning
  have hquiet : (b.handle draw c r).response.status = .ok → warnings = [] := by
    intro hok
    rcases hwarned with ⟨-, hnone⟩ | ⟨text, herror, -, -⟩
    · exact hnone
    · rw [hok] at herror
      cases herror
  constructor
  case ping =>
    intro hping
    have hserve : b.serve draw c r = _ := serve_ping hping
    have hok : (b.handle draw c r).response.status = .ok :=
      status_handle_eq_ok.mpr ⟨.verdict true, by rw [hserve]⟩
    refine ⟨?_, ?_, hok⟩
    · rw [handle_connection, hserve]
    · rw [hlines, hserve, hquiet hok]
      rfl
  case apart =>
    intro hbare
    have hunkeyed : ∀ caller, ¬ Keyed c caller r := by
      intro caller hkeyed
      rcases hbare with hping | hcaller | hset
      · exact hkeyed.notPing hping
      · rw [hkeyed.authenticated] at hcaller
        cases hcaller
      · exact hkeyed.named hset
    refine ⟨?_, ?_, fun b' => handle_of_apart b' hbare⟩
    · rw [questions_handle]
      exact (serve_of_not_keyed hunkeyed).2
    · rw [readings_handle]
      exact hcourse.readings_of_not_keyed hunkeyed
  case denied =>
    intro hpermits
    refine ⟨?_, fun store => handle_of_not_permits store hpermits⟩
    rw [readings_handle]
    exact hcourse.readings_of_not_permits hpermits
  case permitted =>
    intro caller hkeyed hpermits
    refine ⟨?_, fun store hget => handle_of_get hget⟩
    rw [readings_handle]
    exact hcourse.readings_of_permits hkeyed hpermits
  case found =>
    intro caller capability v hfinds
    refine ⟨warnings, ?_, hwarned⟩
    rw [hlines, hcourse.auditLines_of_finds hfinds]
    rfl
  case unfound =>
    intro hping hnone
    rw [hlines, hcourse.auditLines_of_not_finds hnone]
    exact hwarned
  case used =>
    intro hping hok
    obtain ⟨body, hbody⟩ := status_handle_eq_ok.mp hok
    rw [hbody] at hcourse
    obtain ⟨caller, capability, v, hfinds⟩ := hcourse.finds_of_ok hping
    refine ⟨caller, capability, v, hfinds, ?_⟩
    rw [hlines, hcourse.auditLines_of_finds hfinds, hquiet hok]
    rfl

-- The secret is found, but cannot sign: the grant is on record, and then the failure.
example :
    let secrets : KeySet :=
      ⟨"s", .symmetric, [⟨1, .secret [7]⟩], by decide, by decide, by decide⟩
    let b : Broker := ⟨⟨[secrets], by decide, by decide⟩, fun _ _ => some .operate, {}⟩
    let c : Connection := { id := 4, caller := some ⟨1000, 100, none⟩ }
    let draw : Draw := ⟨Vector.replicate 12 0, Vector.replicate 64 0, 1⟩
    (auditLines (b.handle draw c { command := .operate .sign, set := "s" }).events).map (·.text)
      = ["conn#4 uid=1000 gid=100 sign s v1 granted (Operate)",
        "conn#4 uid=1000 gid=100 sign s latest: Key kind mismatch: operation requires "
          ++ "asymmetric key, set holds symmetric key"] := by
  decide +kernel

end Broker

end KeyBroker
