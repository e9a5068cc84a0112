import KeyBroker.Proofs.Access.Disclosure
import KeyBroker.Proofs.Key.Running
import KeyBroker.Proofs.Store.History

/-! # The first obstacle decides

  What can stand in the way of a request for a key is listed once, in the order in which it
  is looked for. Each obstacle is told from the request, the connection and the broker alone,
  without regard to the others. Main statement: a request meets none of them and its key is
  used, or the first that it meets is what it is told of.
-/

namespace KeyBroker

/-! ### Obstacles -/

/-- What can stand in the way of a request for a key. -/
inductive Obstacle where
  /-- It is not known who asks. -/
  | unauthenticated
  /-- No set is named. -/
  | unnamed
  /-- The capability in force does not permit the action. -/
  | notPermitted
  /-- The set or its version is not there. -/
  | missing
  /-- An algorithm is asked for that is unknown or disabled. -/
  | unsupported
  /-- There is no signature to be verified. -/
  | unsigned
  /-- The key is not of a kind that the primitive works with. -/
  | misfit
  deriving DecidableEq

namespace Obstacle

/-- Every obstacle, in the order in which they are looked for. -/
def all : List Obstacle :=
  [unauthenticated, unnamed, notPermitted, missing, unsupported, unsigned, misfit]

/-- The obstacles that are looked for before this one. -/
def earlier (o : Obstacle) : List Obstacle := all.takeWhile (· ≠ o)

/-- The class of errors under which an obstacle is reported. -/
def kind : Obstacle → FaultKind
  | unauthenticated => .denied
  | unnamed => .malformed
  | notPermitted => .denied
  | missing => .notFound
  | unsupported => .unsupportedAlgorithm
  | unsigned => .malformed
  | misfit => .kindMismatch

end Obstacle

/-- A key that is not handed out is a pair that has no written form. -/
theorem KeyVersion.pair_of_body {v : KeyVersion} {fault : Fault} (h : v.body = .error fault) :
    ∃ k cause, v.material = .pair k ∧ k.privateBytes = .error cause
      ∧ fault = .key (.badPair cause) := by
  unfold KeyVersion.body at h
  split at h
  · cases h
  · next k hmaterial =>
    split at h
    · cases h
    · next cause hwritten =>
      injection h with h
      exact ⟨k, cause, hmaterial, hwritten, h.symm⟩

/-- The response that a result gives. -/
def Response.ofResult : Except Fault Body → Response
  | .ok body => .success body
  | .error fault => .ofFault fault

namespace Broker

/-- The capability in force for a caller on a set: the remembered one, or else the gate's. -/
def inForce (b : Broker) (c : Connection) (caller : Caller) (set : String) : Option Capability :=
  (c.known? set).or (b.gate caller set)

/-- Whether the caller of a connection may do what a request asks. -/
def permits (b : Broker) (c : Connection) (r : Request) : Bool :=
  (c.caller.bind fun caller => b.inForce c caller r.set).any (·.permits r.command.action)

/-- The key that a request is for. -/
def keyFor? (b : Broker) (r : Request) : Option KeyVersion :=
  (b.store.set? r.set).bind (·.get? (Selector.ofNumber r.version))

/-- The primitive that an operation resolves to for a request. -/
def primitiveFor? (b : Broker) (op : Operation) (r : Request) : Option Primitive :=
  (b.registry.resolve op r.algorithm).toOption

/-- Whether a request meets an obstacle. -/
def meets (b : Broker) (c : Connection) (r : Request) : Obstacle → Bool
  | .unauthenticated => c.caller.isNone
  | .unnamed => r.set = ""
  | .notPermitted => !b.permits c r
  | .missing => (b.keyFor? r).isNone
  | .unsupported =>
    r.command.isOperate && r.algorithm.any fun n => !b.registry.offered.any (·.ordinal == n)
  | .unsigned => r.command = .operate .verify && r.aux.isNone
  | .misfit =>
    match r.command with
    | .operate op =>
      (b.keyFor? r).any fun v => (b.primitiveFor? op r).any fun p => !p.suits v.material.kind
    | .ping | .retrieve => false

/-- The first obstacle that a request meets. -/
def obstacle? (b : Broker) (c : Connection) (r : Request) : Option Obstacle :=
  Obstacle.all.find? (b.meets c r)

/-! ### What is told -/

/-- The faults by which a request is told of an obstacle. -/
inductive Reports (b : Broker) (c : Connection) (r : Request) : Obstacle → Fault → Prop where
  | unauthenticated : Reports b c r .unauthenticated (.denied .unauthenticated)
  | unnamed : Reports b c r .unnamed (.malformed (.noSet r.command))
  | notPermitted (caller : Caller) (hcaller : c.caller = some caller) :
    Reports b c r .notPermitted (.denied (.notPermitted caller r.command.action r.set))
  | noSet (hset : b.store.set? r.set = none) :
    Reports b c r .missing (.notFound (.noSet r.set))
  | noVersion (s : KeySet) (hset : b.store.set? r.set = some s) :
    Reports b c r .missing (.notFound (.noVersion r.set (Selector.ofNumber r.version)))
  | unknown (n : UInt32) (hasked : r.algorithm = some n) (hnone : ∀ a : Algorithm, a.ordinal ≠ n) :
    Reports b c r .unsupported (.key (.unsupported (.unknownOrdinal n)))
  | disabled (a : Algorithm) (hasked : r.algorithm = some a.ordinal)
      (hrefused : b.registry.offers a = false) :
    Reports b c r .unsupported (.key (.unsupported (.disabled a)))
  | unsigned : Reports b c r .unsigned (.malformed .noSignature)
  | misfit (v : KeyVersion) (required : KeyKind) (hkey : b.keyFor? r = some v)
      (hother : required ≠ v.material.kind) :
    Reports b c r .misfit (.key (.kindMismatch required v.material.kind))

/-- What can come of a request that meets no obstacle, with the key that it is for. -/
inductive Used (v : KeyVersion) : Command → Except Fault Body → Prop where
  /-- The key is handed out whole, -/
  | retrieved (body : Body) (hcarries : body.Carries v) : Used v .retrieve (.ok body)
  /-- or it has no written form. -/
  | unwritten (k : KeyPair) (cause : PairFault) (hpair : v.material = .pair k)
      (hwritten : k.privateBytes = .error cause) :
    Used v .retrieve (.error (.key (.badPair cause)))
  /-- A signature is judged. -/
  | judged (valid : Bool) : Used v (.operate .verify) (.ok (.verdict valid))
  /-- Any other operation gives bytes, -/
  | done (op : Operation) (hop : op ≠ .verify) (bytes : Bytes) :
    Used v (.operate op) (.ok (.bytes bytes))
  /-- or its algorithm fails. -/
  | failed (op : Operation) (hop : op ≠ .verify) (cause : AlgorithmFault) :
    Used v (.operate op) (.error (.key (.algorithm cause)))

variable {b : Broker} {draw : Draw} {c : Connection} {caller : Caller} {r : Request}
  {o : Obstacle} {v : KeyVersion}

/-- An obstacle is reported under its class, -/
theorem Reports.kind {fault : Fault} (h : b.Reports c r o fault) : fault.kind = o.kind := by
  cases h <;> rfl

/-- and never as an operation that cannot run. -/
theorem Reports.ne_cannotRun {fault : Fault} (h : b.Reports c r o fault) (op : Operation)
    (p : Primitive) : fault ≠ .key (.unsupported (.cannotRun op p)) := by
  cases h <;> nofun

/-- What fails with a key at hand fails by its algorithm. -/
theorem Used.kind {command : Command} {fault : Fault} (h : Used v command (.error fault)) :
    fault.kind = .algorithmFailure := by
  cases h <;> rfl

theorem Used.ne_cannotRun {command : Command} {fault : Fault}
    (h : Used v command (.error fault)) (op : Operation) (p : Primitive) :
    fault ≠ .key (.unsupported (.cannotRun op p)) := by
  cases h <;> nofun

/-! ### Passing obstacles -/

/-- The first obstacle that is met has none before it that is met. -/
theorem of_obstacle?_eq_some (h : b.obstacle? c r = some o) :
    b.meets c r o = true ∧ ∀ e ∈ o.earlier, b.meets c r e = false := by
  obtain ⟨hmeets, before, after, hall, hbefore⟩ := List.find?_eq_some_iff_append.mp h
  refine ⟨hmeets, ?_⟩
  intro e he
  -- no obstacle is listed twice, so the earlier ones are those that stand before it
  have hearlier : o.earlier = before := by
    have hne : ∀ e ∈ before, decide (e ≠ o) = true := by
      intro e he
      have hnot := hbefore e he
      rw [decide_eq_true_iff]
      rintro rfl
      rw [hmeets] at hnot
      cases hnot
    rw [Obstacle.earlier, hall, List.takeWhile_append_of_pos hne]
    simp
  have hnot := hbefore e (hearlier ▸ he)
  simpa using hnot

theorem of_obstacle?_eq_none (h : b.obstacle? c r = none) (o : Obstacle) :
    b.meets c r o = false := by
  have hall : o ∈ Obstacle.all := by cases o <;> decide
  exact Bool.eq_false_iff.mpr (List.find?_eq_none.mp h o hall)

/-- A request that names a set and comes from a known caller is a request for a key. -/
theorem keyed_of_meets (hping : r.command ≠ .ping)
    (hcaller : b.meets c r .unauthenticated = false) (hset : b.meets c r .unnamed = false) :
    ∃ caller, Keyed c caller r := by
  cases h : c.caller with
  | none => simp [meets, h] at hcaller
  | some caller => exact ⟨caller, h, hping, of_decide_eq_false hset⟩

/-- The decision on a request is on the capability in force. -/
theorem authorize_eq_judge (set : String) (action : Action) :
    (b.authorize c caller set action).1
      = Capability.judge caller set action (b.inForce c caller set) := by
  cases hknown : c.known? set with
  | some capability => rw [authorize_of_known action hknown, inForce, hknown]; rfl
  | none => rw [authorize_of_unknown action hknown, inForce, hknown]; rfl

theorem authorize_of_permits (hcaller : c.caller = some caller) (h : b.permits c r = true) :
    ∃ capability, (b.authorize c caller r.set r.command.action).1 = .ok capability := by
  rw [authorize_eq_judge]
  rw [permits, hcaller] at h
  obtain ⟨capability, hforce, hpermits⟩ := (Option.any_eq_true _ _).mp h
  have hforce : b.inForce c caller r.set = some capability := hforce
  rw [hforce]
  exact ⟨capability, if_pos hpermits⟩

theorem authorize_of_not_permits (hcaller : c.caller = some caller) (h : b.permits c r = false) :
    (b.authorize c caller r.set r.command.action).1
      = .error (.notPermitted caller r.command.action r.set) := by
  rw [authorize_eq_judge]
  have hforce : (b.inForce c caller r.set).any (·.permits r.command.action) = false := by
    rw [permits, hcaller] at h
    exact h
  cases hheld : b.inForce c caller r.set with
  | none => rfl
  | some capability =>
    rw [hheld] at hforce
    have hnot : ¬ capability.permits r.command.action = true := Bool.eq_false_iff.mp hforce
    exact if_neg hnot

/-- The key that a request is for is what the store finds. -/
theorem get_of_keyFor? (h : b.keyFor? r = some v) :
    b.store.get r.set (Selector.ofNumber r.version) = .ok v :=
  KeyStore.get_eq_ok_iff.mpr (Option.bind_eq_some_iff.mp h)

/-- Without a key, what is missing is the set or its version. -/
theorem get_of_keyFor?_eq_none (h : b.keyFor? r = none) :
    ∃ missing, b.store.get r.set (Selector.ofNumber r.version) = .error missing
      ∧ b.Reports c r .missing (.notFound missing) := by
  cases hset : b.store.set? r.set with
  | none =>
    refine ⟨.noSet r.set, ?_, .noSet hset⟩
    simp only [KeyStore.get, KeyStore.find, hset]
    rfl
  | some s =>
    have hversion : s.get? (Selector.ofNumber r.version) = none := by
      rw [keyFor?, hset] at h
      exact h
    refine ⟨.noVersion r.set (Selector.ofNumber r.version), ?_, .noVersion s hset⟩
    simp only [KeyStore.get, KeyStore.find, hset, bind, Except.bind, hversion]

/-- A permitted request gives what its key is used for. -/
theorem serve_of_keyFor? (h : Keyed c caller r) (hpermits : b.permits c r = true)
    (hkey : b.keyFor? r = some v) : (b.serve draw c r).1 = b.useKey draw v r := by
  obtain ⟨capability, hverdict⟩ := authorize_of_permits h.authenticated hpermits
  rw [serve_permitted h hverdict, fulfil_of_found (get_of_keyFor? hkey)]

/-! ### Using a key -/

/-- Without the obstacle of an algorithm, an operation resolves to what some algorithm
    stands for. -/
theorem resolve_of_meets {op : Operation} (hop : r.command = .operate op)
    (h : b.meets c r .unsupported = false) :
    ∃ a, b.registry.resolve op r.algorithm = .ok (Registry.primitive op a) := by
  -- the ordinal, if there is one, is that of an algorithm on offer
  have hoffered : ∀ n, r.algorithm = some n → ∃ a, b.registry.offers a = true ∧ a.ordinal = n := by
    intro n hn
    simpa [meets, hop, hn, Command.isOperate, Registry.offered, Algorithm.mem_all] using h
  have hresolved := b.registry.resolved op r.algorithm
  generalize b.registry.resolve op r.algorithm = result at hresolved ⊢
  generalize r.algorithm = ordinal at hresolved hoffered
  cases hresolved with
  | unknown n hnone =>
    obtain ⟨a, -, ha⟩ := hoffered n rfl
    exact absurd ha (hnone a)
  | disabled a hrefused =>
    -- an ordinal is that of one algorithm only
    obtain ⟨a', ha', hordinal⟩ := hoffered a.ordinal rfl
    have hsame : a' = a := by
      have hname := Algorithm.ofOrdinal_ordinal a'
      rw [hordinal, Algorithm.ofOrdinal_ordinal] at hname
      exact (Except.ok.inj hname).symm
    rw [hsame, hrefused] at ha'
    cases ha'
  | offered ordinal a _ _ => exact ⟨a, rfl⟩

/-- An algorithm that cannot be had is told of before the signature and the key are looked
    at. -/
theorem operate_of_unsupported {op : Operation} (hop : r.command = .operate op)
    (h : b.meets c r .unsupported = true) :
    ∃ fault, b.operate draw op v r = .error fault ∧ b.Reports c r .unsupported fault := by
  -- whatever algorithm has the ordinal, if any does, is not on offer
  have hoffered : ∀ a, r.algorithm = some a.ordinal → b.registry.offers a = false := by
    intro a ha
    have hnone : ∀ a', b.registry.offers a' = true → a'.ordinal ≠ a.ordinal := by
      simpa [meets, hop, ha, Command.isOperate, Registry.offered, Algorithm.mem_all] using h
    exact Bool.eq_false_iff.mpr fun hoffers => hnone a hoffers rfl
  have hasked : r.algorithm ≠ none := by
    intro hnone
    simp [meets, hnone] at h
  have hresolved := b.registry.resolved op r.algorithm
  unfold operate
  generalize b.registry.resolve op r.algorithm = result at hresolved
  cases ha : r.algorithm with
  | none => exact absurd ha hasked
  | some n =>
    rw [ha] at hresolved
    cases hresolved with
    | unknown n hnone => exact ⟨_, rfl, .unknown n ha hnone⟩
    | disabled a hrefused => exact ⟨_, rfl, .disabled a ha hrefused⟩
    | offered ordinal a hordinal hoffers =>
      have hn : n = a.ordinal := hordinal
      rw [hoffered a (by rw [ha, hn])] at hoffers
      cases hoffers

/-- An operation that resolves, and has the signature that it needs, gives what running it
    gives. -/
theorem operate_of_run_ok {op : Operation} {p : Primitive} {outcome : Outcome}
    (hresolve : b.registry.resolve op r.algorithm = .ok p)
    (hsigned : ¬ (op = .verify ∧ r.aux = none))
    (hrun : op.run p v.material draw r.payload r.aux = .ok outcome) :
    b.operate draw op v r = .ok outcome.body := by
  simp only [operate, hresolve, if_neg hsigned, hrun]

theorem operate_of_run_error {op : Operation} {p : Primitive} {cause : KeyFault}
    (hresolve : b.registry.resolve op r.algorithm = .ok p)
    (hsigned : ¬ (op = .verify ∧ r.aux = none))
    (hrun : op.run p v.material draw r.payload r.aux = .error cause) :
    b.operate draw op v r = .error (.key cause) := by
  simp only [operate, hresolve, if_neg hsigned, hrun]

theorem operate_of_unsigned {p : Primitive}
    (hresolve : b.registry.resolve .verify r.algorithm = .ok p) (haux : r.aux = none) :
    b.operate draw .verify v r = .error (.malformed .noSignature) := by
  simp only [operate, hresolve, haux, and_self, if_true]

theorem signed_of_meets {op : Operation} (hop : r.command = .operate op)
    (h : b.meets c r .unsigned = false) : ¬ (op = .verify ∧ r.aux = none) := by
  rintro ⟨rfl, haux⟩
  simp [meets, hop, haux] at h

/-- Whether a key is in the way of an operation is whether its kind suits the primitive. -/
theorem meets_misfit {op : Operation} {p : Primitive} (hop : r.command = .operate op)
    (hkey : b.keyFor? r = some v) (hresolve : b.registry.resolve op r.algorithm = .ok p) :
    b.meets c r .misfit = !p.suits v.material.kind := by
  simp [meets, hop, hkey, primitiveFor?, hresolve, Except.toOption]

theorem useKey_of_operate {op : Operation} (hop : r.command = .operate op) :
    b.useKey draw v r = b.operate draw op v r := by
  simp only [useKey, hop]

theorem useKey_of_retrieve (hretrieve : r.command = .retrieve) :
    b.useKey draw v r = v.body := by
  simp only [useKey, hretrieve]

/-! ### Every request -/

/-- An obstacle of an operation is met by a request for one. -/
theorem exists_operation (hmeets : b.meets c r o = true)
    (ho : o ∈ [.unsupported, .unsigned, .misfit]) : ∃ op, r.command = .operate op := by
  cases hcommand : r.command with
  | operate op => exact ⟨op, rfl⟩
  | ping | retrieve =>
    simp only [List.mem_cons, List.not_mem_nil, or_false] at ho
    obtain rfl | rfl | rfl := ho <;> simp [meets, hcommand, Command.isOperate] at hmeets

/-- A request that gets as far as its key gives what the key is used for. -/
theorem serve_of_passed (draw : Draw) (hping : r.command ≠ .ping)
    (hcaller : b.meets c r .unauthenticated = false) (hset : b.meets c r .unnamed = false)
    (hpermitted : b.meets c r .notPermitted = false) (hthere : b.meets c r .missing = false) :
    ∃ v, b.keyFor? r = some v ∧ (b.serve draw c r).1 = b.useKey draw v r := by
  obtain ⟨caller, hkeyed⟩ := keyed_of_meets hping hcaller hset
  have hpermits : b.permits c r = true := by simpa [meets] using hpermitted
  cases hkey : b.keyFor? r with
  | none => simp [meets, hkey] at hthere
  | some v => exact ⟨v, rfl, serve_of_keyFor? hkeyed hpermits hkey⟩

/-- What stands in the way of an operation alone is met with the key at hand. -/
theorem serve_of_operation (draw : Draw) (hping : r.command ≠ .ping)
    (ho : o ∈ [.unsupported, .unsigned, .misfit]) (hmeets : b.meets c r o = true)
    (hearlier : ∀ e ∈ o.earlier, b.meets c r e = false) :
    ∃ op v, r.command = .operate op ∧ b.keyFor? r = some v
      ∧ (b.serve draw c r).1 = b.operate draw op v r := by
  obtain ⟨op, hop⟩ := exists_operation hmeets ho
  -- whoever asks was let in, and the key was found, before the operation is looked at
  have hbefore : ∀ o ∈ [Obstacle.unsupported, .unsigned, .misfit],
      ∀ e ∈ [Obstacle.unauthenticated, .unnamed, .notPermitted, .missing], e ∈ o.earlier := by
    decide
  have hpassed : ∀ e ∈ [Obstacle.unauthenticated, .unnamed, .notPermitted, .missing],
      b.meets c r e = false := by
    intro e he
    exact hearlier e (hbefore o ho e he)
  obtain ⟨v, hkey, hserve⟩ := serve_of_passed draw hping (hpassed _ (by decide))
    (hpassed _ (by decide)) (hpassed _ (by decide)) (hpassed _ (by decide))
  refine ⟨op, v, hop, hkey, ?_⟩
  rw [hserve, useKey_of_operate hop]

/-- A request is told of the first obstacle that it meets. -/
theorem serve_of_obstacle? (draw : Draw) (hping : r.command ≠ .ping)
    (h : b.obstacle? c r = some o) :
    ∃ fault, (b.serve draw c r).1 = .error fault ∧ b.Reports c r o fault := by
  obtain ⟨hmeets, hearlier⟩ := of_obstacle?_eq_some h
  -- the obstacles before this one are passed, one stage after the other
  cases o with
  | unauthenticated =>
    have hcaller : c.caller = none := by simpa [meets] using hmeets
    rw [serve_unauthenticated hping hcaller]
    exact ⟨_, rfl, .unauthenticated⟩
  | unnamed =>
    have hcaller := hearlier .unauthenticated (by decide)
    have hset : r.set = "" := of_decide_eq_true hmeets
    cases hknown : c.caller with
    | none => simp [meets, hknown] at hcaller
    | some caller =>
      rw [serve_unnamed hping hknown hset]
      exact ⟨_, rfl, .unnamed⟩
  | notPermitted =>
    obtain ⟨caller, hkeyed⟩ :=
      keyed_of_meets hping (hearlier _ (by decide)) (hearlier _ (by decide))
    have hpermits : b.permits c r = false := by simpa [meets] using hmeets
    rw [serve_denied hkeyed (authorize_of_not_permits hkeyed.authenticated hpermits)]
    exact ⟨_, rfl, .notPermitted caller hkeyed.authenticated⟩
  | missing =>
    obtain ⟨caller, hkeyed⟩ :=
      keyed_of_meets hping (hearlier _ (by decide)) (hearlier _ (by decide))
    have hpermitted := hearlier .notPermitted (by decide)
    obtain ⟨capability, hverdict⟩ :=
      authorize_of_permits hkeyed.authenticated (by simpa [meets] using hpermitted)
    have hkey : b.keyFor? r = none := by simpa [meets] using hmeets
    obtain ⟨missing, hget, hreports⟩ := get_of_keyFor?_eq_none (c := c) hkey
    rw [serve_permitted hkeyed hverdict, fulfil_of_missing hget]
    exact ⟨_, rfl, hreports⟩
  | unsupported =>
    obtain ⟨op, v, hop, -, hserve⟩ := serve_of_operation draw hping (by decide) hmeets hearlier
    rw [hserve]
    exact operate_of_unsupported hop hmeets
  | unsigned =>
    obtain ⟨op, v, hop, -, hserve⟩ := serve_of_operation draw hping (by decide) hmeets hearlier
    obtain ⟨hverify, haux⟩ : r.command = .operate .verify ∧ r.aux = none := by
      simpa [meets] using hmeets
    obtain rfl := Command.operate.inj (hop.symm.trans hverify)
    obtain ⟨a, hresolve⟩ := resolve_of_meets hop (hearlier _ (by decide))
    rw [hserve, operate_of_unsigned hresolve haux]
    exact ⟨_, rfl, .unsigned⟩
  | misfit =>
    obtain ⟨op, v, hop, hkey, hserve⟩ := serve_of_operation draw hping (by decide) hmeets hearlier
    obtain ⟨a, hresolve⟩ := resolve_of_meets hop (hearlier _ (by decide))
    have hsigned := signed_of_meets hop (hearlier .unsigned (by decide))
    rw [meets_misfit hop hkey hresolve, Bool.not_eq_true'] at hmeets
    rw [hserve]
    -- the primitive does not suit the key, so running it fails for that
    have hran := op.ran a v.material draw r.payload r.aux
    generalize hrun : op.run (Registry.primitive op a) v.material draw r.payload r.aux = result
      at hran
    cases hran with
    | misfit required _ hother =>
      exact ⟨_, operate_of_run_error hresolve hsigned hrun, .misfit v required hkey hother⟩
    | judged _ hkind _ | done _ hkind _ | failed _ hkind _ =>
      rw [hkind] at hmeets
      cases hmeets

/-- A request that meets no obstacle uses its key. -/
theorem serve_of_no_obstacle (draw : Draw) (hping : r.command ≠ .ping)
    (h : b.obstacle? c r = none) :
    ∃ v, b.keyFor? r = some v ∧ Used v r.command (b.serve draw c r).1 := by
  have hpassed := of_obstacle?_eq_none h
  obtain ⟨v, hkey, hserve⟩ := serve_of_passed draw hping (hpassed _) (hpassed _)
    (hpassed _) (hpassed _)
  refine ⟨v, hkey, ?_⟩
  rw [hserve]
  cases hcommand : r.command with
  | ping => exact absurd hcommand hping
  | retrieve =>
    rw [useKey_of_retrieve hcommand]
    cases hbody : v.body with
    | ok body => exact .retrieved body (KeyVersion.carries_of_body hbody)
    | error fault =>
      obtain ⟨k, cause, hpair, hwritten, rfl⟩ := KeyVersion.pair_of_body hbody
      exact .unwritten k cause hpair hwritten
  | operate op =>
    obtain ⟨a, hresolve⟩ := resolve_of_meets hcommand (hpassed _)
    have hsigned := signed_of_meets hcommand (hpassed _)
    have hsuits := hpassed .misfit
    rw [meets_misfit hcommand hkey hresolve, Bool.not_eq_false'] at hsuits
    rw [useKey_of_operate hcommand]
    have hran := op.ran a v.material draw r.payload r.aux
    generalize hrun : op.run (Registry.primitive op a) v.material draw r.payload r.aux = result
      at hran
    cases hran with
    | misfit required hkind _ =>
      rw [hsuits] at hkind
      cases hkind
    | judged hop _ valid =>
      subst hop
      rw [operate_of_run_ok hresolve hsigned hrun]
      exact .judged valid
    | done hop _ bytes =>
      rw [operate_of_run_ok hresolve hsigned hrun]
      exact .done op hop bytes
    | failed hop _ cause =>
      rw [operate_of_run_error hresolve hsigned hrun]
      exact .failed op hop cause

theorem handle_response : (b.handle draw c r).response = .ofResult (b.serve draw c r).1 := by
  cases h : (b.serve draw c r).1 with
  | ok body => exact handle_response_of_ok h
  | error fault => exact handle_response_of_error h

/-- The first obstacle decides. Whatever a connection remembers and a registry refuses, a
    ping is answered; any other request is told of the first obstacle that it meets, by a
    fault of that obstacle and under its class; and a request that meets none uses its key.
    It is given the key to retrieve, or a verdict on a signature, or the bytes of any other
    operation, and if not, then an algorithm failed, or the key has no written form. So
    nothing is ever reported as unreachable, and no operation fails because it cannot run
    what was resolved for it. -/
theorem decided_by_first_obstacle (b : Broker) (draw : Draw) (c : Connection) (r : Request) :
    let a := (b.handle draw c r).response
    (r.command = .ping → a = .success (.verdict true))
    ∧ (r.command ≠ .ping → ∀ o, b.obstacle? c r = some o →
      a.kind = some o.kind ∧ ∃ fault, b.Reports c r o fault ∧ a = .ofFault fault)
    ∧ (r.command ≠ .ping → b.obstacle? c r = none →
      (a.status = .ok ∨ a.kind = some .algorithmFailure)
      ∧ ∃ v result, b.keyFor? r = some v ∧ Used v r.command result ∧ a = .ofResult result)
    ∧ a.kind ≠ some .unreachable
    ∧ ∀ op p, (b.serve draw c r).1 ≠ .error (.key (.unsupported (.cannotRun op p))) := by
  intro a
  have ha : a = .ofResult (b.serve draw c r).1 := handle_response
  by_cases hping : r.command = .ping
  · have hserve : b.serve draw c r = (.ok (.verdict true), c, [.pinged c.id]) := serve_ping hping
    rw [hserve] at ha ⊢
    rw [ha]
    exact ⟨fun _ => rfl, fun h => absurd hping h, fun h => absurd hping h, nofun, nofun⟩
  · cases hfirst : b.obstacle? c r with
    | some o =>
      obtain ⟨fault, hserve, hreports⟩ := serve_of_obstacle? draw hping hfirst
      rw [hserve] at ha ⊢
      have hkind : a.kind = some o.kind := by
        rw [ha, ← hreports.kind]
        rfl
      refine ⟨fun h => absurd h hping, ?_, nofun, ?_, ?_⟩
      · rintro _ _ ⟨⟩
        exact ⟨hkind, fault, hreports, ha⟩
      · rw [hkind]
        cases o <;> nofun
      · intro op p h
        exact hreports.ne_cannotRun op p (Except.error.inj h)
    | none =>
      obtain ⟨v, hkey, hused⟩ := serve_of_no_obstacle draw hping hfirst
      generalize (b.serve draw c r).1 = result at ha hused ⊢
      have hstatus : a.status = .ok ∨ a.kind = some .algorithmFailure := by
        rw [ha]
        cases result with
        | ok body => exact Or.inl rfl
        | error fault => exact Or.inr (congrArg some hused.kind)
      refine ⟨fun h => absurd h hping, nofun, fun _ _ => ⟨hstatus, v, result, hkey, hused, ha⟩,
        ?_, ?_⟩
      · rw [ha]
        cases result with
        | ok body => nofun
        | error fault =>
          intro hkind
          have hunreachable : fault.kind = .unreachable := Option.some.inj hkind
          rw [hused.kind] at hunreachable
          cases hunreachable
      · rintro op p rfl
        exact hused.ne_cannotRun op p rfl

/-- A request to verify nothing, with a secret: for want of a signature it is malformed, and
    that the key is of the wrong kind is not told. -/
theorem decided_by_first_obstacle_of_two :
    let b : Broker :=
      ⟨KeyStore.empty.after [.next "a" (.secret [1])], fun _ _ => some .operate, {}⟩
    let draw : Draw := ⟨Vector.replicate 12 0, Vector.replicate 64 0, 1⟩
    let c : Connection := { id := 1, caller := some ⟨1000, 100, none⟩ }
    let r : Request := { command := .operate .verify, set := "a" }
    b.meets c r .unsigned = true ∧ b.meets c r .misfit = true
      ∧ (b.handle draw c r).response.kind = some .malformed := by
  intro b draw c r
  refine ⟨by decide +kernel, by decide +kernel, ?_⟩
  obtain ⟨-, hrefused, -⟩ := decided_by_first_obstacle b draw c r
  exact (hrefused (by decide) .unsigned (by decide +kernel)).1

end Broker

end KeyBroker
