import KeyBroker.Proofs.Access.Audit
import KeyBroker.Proofs.Key.Sealing

/-! # Nothing is told but lengths

  Two brokers are compared whose secrets differ in their bytes, and two requests that differ
  in the bytes of what they carry. What stays the same is the outline: names, numbers, kinds
  and lengths. Every stage decides by the outline and words its faults from it, so both
  requests come to the same, but for the bytes of what they are given.

  To decrypt is the exception, and the only one: whether a box opens depends on its bytes.
  So of two such requests one may succeed alone. If they do not part like that, they are
  told the same as well.
-/

namespace KeyBroker

/-! ### Outlines -/

/-- The length of a secret. -/
def KeyMaterial.secretSize? : KeyMaterial → Option Nat
  | secret bytes => some bytes.length
  | pair _ => none

/-- A version without its secret. -/
def KeyVersion.outline (v : KeyVersion) : UInt32 × Option Nat := (v.number, v.material.secretSize?)

/-- A set without its secrets. -/
def KeySet.outline (s : KeySet) : String × KeyKind × List (UInt32 × Option Nat) :=
  (s.name, s.kind, s.versions.map KeyVersion.outline)

/-- Two stores of secrets that differ in their bytes at most. -/
structure KeyStore.SameOutline (store other : KeyStore) : Prop where
  /-- They have the same sets by name, with the same versions and lengths, -/
  named : ∀ name, (other.set? name).map KeySet.outline = (store.set? name).map KeySet.outline
  /-- and nothing but secrets. -/
  symmetric : ∀ s ∈ store.sets, s.kind = .symmetric

/-- Two requests that differ in the bytes of what they carry at most. -/
structure Request.SameOutline (r other : Request) : Prop where
  command : other.command = r.command
  set : other.set = r.set
  version : other.version = r.version
  algorithm : other.algorithm = r.algorithm
  payload : other.payload.length = r.payload.length
  aux : other.aux.map List.length = r.aux.map List.length

/-- Two versions under one number, with secrets of one length. -/
structure KeyVersion.SameOutline (v other : KeyVersion) : Prop where
  number : other.number = v.number
  secrets : ∃ secret secret', v.material = .secret secret ∧ other.material = .secret secret'
    ∧ secret'.length = secret.length

/-! ### Looking keys up -/

namespace KeyStore

variable {store other : KeyStore}

/-- Stores that list the same outlines have them by name. -/
theorem SameOutline.of_listed (h : other.sets.map KeySet.outline = store.sets.map KeySet.outline)
    (hkind : ∀ s ∈ store.sets, s.kind = .symmetric) : store.SameOutline other := by
  have hfind : ∀ (name : String) (sets : List KeySet), (lookup name sets).map KeySet.outline
      = (sets.map KeySet.outline).find? (·.1 == name) := by
    intro name sets
    rw [List.find?_map]
    rfl
  refine ⟨fun name => ?_, hkind⟩
  rw [set?, set?, hfind, hfind, h]

/-- A version is found alike in sets with one outline. -/
theorem get?_outline {s t : KeySet} (h : t.outline = s.outline) (selector : Selector) :
    (t.get? selector).map KeyVersion.outline = (s.get? selector).map KeyVersion.outline := by
  have hversions : t.versions.map KeyVersion.outline = s.versions.map KeyVersion.outline :=
    congrArg (fun o => o.2.2) h
  cases selector with
  | latest =>
    show t.versions.head?.map KeyVersion.outline = s.versions.head?.map KeyVersion.outline
    rw [← List.head?_map, ← List.head?_map, hversions]
  | exactly n =>
    have hfind : ∀ versions : List KeyVersion,
        (versions.find? (·.number == n)).map KeyVersion.outline
          = (versions.map KeyVersion.outline).find? (·.1 == n) := by
      intro versions
      rw [List.find?_map]
      rfl
    show (t.versions.find? (·.number == n)).map KeyVersion.outline
      = (s.versions.find? (·.number == n)).map KeyVersion.outline
    rw [hfind, hfind, hversions]

/-- A version of a symmetric set holds a secret, and so does any with its outline. -/
theorem sameOutline_of_outline {v w : KeyVersion} (h : w.outline = v.outline)
    (hkind : v.material.kind = .symmetric) : v.SameOutline w := by
  refine ⟨congrArg Prod.fst h, ?_⟩
  have hsize : w.material.secretSize? = v.material.secretSize? := congrArg Prod.snd h
  cases hv : v.material with
  | pair k =>
    rw [hv] at hkind
    cases hkind
  | secret secret =>
    cases hw : w.material with
    | pair k =>
      rw [hv, hw] at hsize
      cases hsize
    | secret secret' =>
      rw [hv, hw] at hsize
      exact ⟨secret, secret', rfl, rfl, Option.some.inj hsize⟩

/-- So one key is missing from both, or both have it, with secrets of one length. -/
theorem get_of_sameOutline (h : store.SameOutline other) (set : String) (selector : Selector) :
    (∃ missing, store.get set selector = .error missing ∧ other.get set selector = .error missing)
      ∨ ∃ v w, store.get set selector = .ok v ∧ other.get set selector = .ok w
        ∧ v.SameOutline w := by
  have hset := h.named set
  cases hs : store.set? set with
  | none =>
    rw [hs] at hset
    have ht : other.set? set = none := Option.map_eq_none_iff.mp hset
    refine .inl ⟨.noSet set, ?_, ?_⟩
    · simp only [get, find, hs]; rfl
    · simp only [get, find, ht]; rfl
  | some s =>
    rw [hs] at hset
    obtain ⟨t, ht, houtline⟩ := Option.map_eq_some_iff.mp hset
    have hversion := get?_outline houtline selector
    cases hv : s.get? selector with
    | none =>
      rw [hv] at hversion
      have hw : t.get? selector = none := Option.map_eq_none_iff.mp hversion
      refine .inl ⟨.noVersion set selector, ?_, ?_⟩
      · simp only [get, find, hs, bind, Except.bind, hv]
      · simp only [get, find, ht, bind, Except.bind, hw]
    | some v =>
      rw [hv] at hversion
      obtain ⟨w, hw, hsame⟩ := Option.map_eq_some_iff.mp hversion
      -- the set is of secrets, and its versions are of its kind
      have hmem : v ∈ s.versions := by
        cases selector with
        | latest => exact List.mem_of_head? hv
        | exactly n => exact List.mem_of_find?_eq_some hv
      have hkind : v.material.kind = .symmetric :=
        (s.uniform v hmem).trans (h.symmetric s (mem_of_set? hs).1)
      exact .inr ⟨v, w, get_eq_ok_iff.mpr ⟨s, hs, hv⟩, get_eq_ok_iff.mpr ⟨t, ht, hw⟩,
        sameOutline_of_outline hsame hkind⟩

end KeyStore

/-! ### Results that tally -/

/-- Two results tally if both succeed, with whatever they give, or both fail by the same
    fault. Where they may part, one may also succeed alone. -/
inductive Tallies {ε α : Type} (mayPart : Prop) : Except ε α → Except ε α → Prop where
  | given (a a' : α) : Tallies mayPart (.ok a) (.ok a')
  | failed (e : ε) : Tallies mayPart (.error e) (.error e)
  | firstAlone (hpart : mayPart) (a : α) (e : ε) : Tallies mayPart (.ok a) (.error e)
  | secondAlone (hpart : mayPart) (e : ε) (a : α) : Tallies mayPart (.error e) (.ok a)

namespace Tallies

variable {ε ε' α β : Type} {mayPart : Prop} {x y : Except ε α}

theorem map (h : Tallies mayPart x y) (f : α → β) : Tallies mayPart (x.map f) (y.map f) := by
  cases h with
  | given a a' => exact .given (f a) (f a')
  | failed e => exact .failed e
  | firstAlone hpart a e => exact .firstAlone hpart (f a) e
  | secondAlone hpart e a => exact .secondAlone hpart e (f a)

theorem mapError (h : Tallies mayPart x y) (f : ε → ε') :
    Tallies mayPart (x.mapError f) (y.mapError f) := by
  cases h with
  | given a a' => exact .given a a'
  | failed e => exact .failed (f e)
  | firstAlone hpart a e => exact .firstAlone hpart a (f e)
  | secondAlone hpart e a => exact .secondAlone hpart (f e) a

end Tallies

/-! ### Running operations -/

section Operations

variable {mayPart : Prop} {secret secret' : Bytes}

/-- Whether a secret has a length for sealing is told from its length. -/
theorem keySized_of_length (h : secret'.length = secret.length) :
    Crypto.Gcm.keySized secret' = Crypto.Gcm.keySized secret := by
  rw [Crypto.Gcm.keySized, h, Crypto.Gcm.keySized]

/-- Sealing fails by the length of the secret or of the message alone. -/
theorem tallies_sealWith (nonce nonce' : Vector UInt8 12) {message message' : Bytes}
    (hsecret : secret'.length = secret.length) (hmessage : message'.length = message.length) :
    Tallies mayPart (sealWith secret nonce message) (sealWith secret' nonce' message') := by
  simp only [sealWith, keySized_of_length hsecret, hsecret, hmessage]
  split
  · exact .failed _
  · split
    · exact .failed _
    · exact .given _ _

/-- Opening fails by lengths too, or else for a reason that tells nothing more. -/
theorem tallies_openWith (hpart : mayPart) {box box' : Bytes}
    (hsecret : secret'.length = secret.length) (hbox : box'.length = box.length) :
    Tallies mayPart (openWith secret box) (openWith secret' box') := by
  simp only [openWith, keySized_of_length hsecret, hsecret, hbox]
  split
  · exact .failed _
  · split
    · exact .failed _
    -- from here on the bytes decide
    · cases Crypto.Gcm.opened? secret box with
      | none =>
        cases Crypto.Gcm.opened? secret' box' with
        | none => exact .failed _
        | some message' => exact .secondAlone hpart _ message'
      | some message =>
        cases Crypto.Gcm.opened? secret' box' with
        | none => exact .firstAlone hpart message _
        | some message' => exact .given message message'

/-- Under secrets of one length an operation comes to the same with payloads of one length;
    only decryptions may part. -/
theorem tallies_run (op : Operation) (p : Primitive) (draw draw' : Draw)
    {payload payload' : Bytes} (aux aux' : Option Bytes)
    (hsecret : secret'.length = secret.length) (hpayload : payload'.length = payload.length) :
    Tallies (op = .decrypt) (op.run p (.secret secret) draw payload aux)
      (op.run p (.secret secret') draw' payload' aux') := by
  cases op with
  | encrypt =>
    cases p with
    | cipher c =>
      cases c with
      | standard =>
        exact ((tallies_sealWith draw.nonce draw'.nonce hsecret hpayload).mapError _).map _
      | oaep h => exact .failed _
    | mac h => exact .failed _
    | signature h => exact .failed _
  | decrypt =>
    cases p with
    | cipher c =>
      cases c with
      | standard => exact ((tallies_openWith rfl hsecret hpayload).mapError _).map _
      | oaep h => exact .failed _
    | mac h => exact .failed _
    | signature h => exact .failed _
  | hmac =>
    cases p with
    | cipher c => exact .failed _
    | mac h => exact .given _ _
    | signature h => exact .failed _
  | sign => cases p <;> exact .failed _
  | verify => cases p <;> exact .failed _

end Operations

/-! ### One request -/

namespace Broker

variable {b : Broker} {store : KeyStore} {draw draw' : Draw} {c : Connection} {caller : Caller}
  {r r' : Request} {v w : KeyVersion}

theorem tallies_operate (op : Operation) (hr : r.SameOutline r') (hkey : v.SameOutline w) :
    Tallies (op = .decrypt) (b.operate draw op v r) (b.operate draw' op w r') := by
  obtain ⟨secret, secret', hv, hw, hsecret⟩ := hkey.secrets
  -- of what is carried beside the payload, only whether it is there is looked at
  have haux : r'.aux = none ↔ r.aux = none := by
    rw [← Option.map_eq_none_iff, hr.aux, Option.map_eq_none_iff]
  cases hresolve : b.registry.resolve op r.algorithm with
  | error cause =>
    simp only [operate, hr.algorithm, hresolve]
    exact .failed _
  | ok p =>
    simp only [operate, hr.algorithm, hresolve, haux, hv, hw]
    split
    · exact .failed _
    · have hrun := tallies_run op p draw draw' r.aux r'.aux hsecret hr.payload
      generalize op.run p (.secret secret) draw r.payload r.aux = x at hrun ⊢
      generalize op.run p (.secret secret') draw' r'.payload r'.aux = y at hrun ⊢
      cases hrun with
      | given outcome outcome' => exact .given _ _
      | failed cause => exact .failed _
      | firstAlone hpart outcome cause => exact .firstAlone hpart _ _
      | secondAlone hpart cause outcome => exact .secondAlone hpart _ _

/-- A secret is always handed out. -/
theorem body_of_secret {secret : Bytes} (h : v.material = .secret secret) :
    v.body = .ok (.secretKey v.number secret) := by
  simp only [KeyVersion.body, h]

theorem tallies_useKey (hr : r.SameOutline r') (hkey : v.SameOutline w) :
    Tallies (r.command = .operate .decrypt) (b.useKey draw v r) (b.useKey draw' w r') := by
  obtain ⟨secret, secret', hv, hw, -⟩ := hkey.secrets
  cases hcommand : r.command with
  | operate op =>
    rw [useKey_of_operate hcommand, useKey_of_operate (hr.command.trans hcommand),
      Command.operate.injEq]
    exact tallies_operate op hr hkey
  | ping =>
    simp only [useKey, hr.command, hcommand, body_of_secret hv, body_of_secret hw]
    exact .given _ _
  | retrieve =>
    simp only [useKey, hr.command, hcommand, body_of_secret hv, body_of_secret hw]
    exact .given _ _

/-- What a permitted request comes to, and what happens on the way. -/
theorem tallies_fulfil {conn : Nat} {capability : Capability}
    (hstores : b.store.SameOutline store) (hr : r.SameOutline r') :
    Tallies (r.command = .operate .decrypt) (b.fulfil draw conn caller capability r).1
        ({ b with store }.fulfil draw' conn caller capability r').1
      ∧ ({ b with store }.fulfil draw' conn caller capability r').2
        = (b.fulfil draw conn caller capability r).2 := by
  obtain ⟨missing, hnone, hnone'⟩ | ⟨v, w, hv, hw, hkey⟩ :=
    KeyStore.get_of_sameOutline hstores r.set (Selector.ofNumber r.version)
  · rw [fulfil_of_missing hnone, fulfil_of_missing (b := { b with store })
      (by rw [hr.set, hr.version]; exact hnone'), hr.set, hr.version]
    exact ⟨.failed _, rfl⟩
  · rw [fulfil_of_found hv, fulfil_of_found (b := { b with store })
      (by rw [hr.set, hr.version]; exact hw), hr.set, hr.version, hr.command, hkey.number]
    exact ⟨tallies_useKey hr hkey, rfl⟩

/-- What any request comes to. Until a key is used nothing of the secrets is looked at. -/
theorem tallies_serve (hstores : b.store.SameOutline store) (hr : r.SameOutline r') :
    Tallies (r.command = .operate .decrypt) (b.serve draw c r).1
        ({ b with store }.serve draw' c r').1
      ∧ ({ b with store }.serve draw' c r').2 = (b.serve draw c r).2 := by
  by_cases hping : r.command = .ping
  · rw [serve_ping hping, serve_ping (hr.command.trans hping)]
    exact ⟨.given _ _, rfl⟩
  have hping' : r'.command ≠ .ping := hr.command ▸ hping
  cases hcaller : c.caller with
  | none =>
    rw [serve_unauthenticated hping hcaller, serve_unauthenticated hping' hcaller]
    exact ⟨.failed _, rfl⟩
  | some caller =>
    by_cases hset : r.set = ""
    · rw [serve_unnamed hping hcaller hset, serve_unnamed hping' hcaller (hr.set.trans hset),
        hr.command]
      exact ⟨.failed _, rfl⟩
    have hkeyed : Keyed c caller r := ⟨hcaller, hping, hset⟩
    have hkeyed' : Keyed c caller r' := ⟨hcaller, hping', hr.set ▸ hset⟩
    -- deciding looks at the set and the action, and not at the store
    have hdecide : ({ b with store } : Broker).authorize c caller r'.set r'.command.action
        = b.authorize c caller r.set r.command.action := by
      rw [hr.set, hr.command]
      rfl
    cases hverdict : (b.authorize c caller r.set r.command.action).1 with
    | error denial =>
      rw [serve_denied hkeyed hverdict,
        serve_denied (b := { b with store }) hkeyed' (by rw [hdecide]; exact hverdict), hdecide]
      exact ⟨.failed _, rfl⟩
    | ok capability =>
      obtain ⟨htallies, hevents⟩ :=
        @tallies_fulfil b store draw draw' caller r r' c.id capability hstores hr
      rw [serve_permitted hkeyed hverdict,
        serve_permitted (b := { b with store }) hkeyed' (by rw [hdecide]; exact hverdict),
        hdecide, hevents]
      exact ⟨htallies, rfl⟩

/-- Errors and records tell lengths, and no bytes of keys or payloads. Two brokers with one
    policy and registry, whose stores hold secrets of the same lengths under the same names
    and numbers, are sent requests that carry as many bytes, on equal connections and with
    any draws. Both answer with the same status, class of errors and message, log the same
    events, the lines of the audit among them, and come to the same connection; but if the
    request is to decrypt, one of the two may succeed alone. -/
theorem told_by_outline (gate : Gate) (registry : Registry) (store other : KeyStore)
    (c : Connection) (r r' : Request) (draw draw' : Draw) (hstores : store.SameOutline other)
    (hrequests : r.SameOutline r') :
    let answer := Broker.handle ⟨store, gate, registry⟩ draw c r
    let answer' := Broker.handle ⟨other, gate, registry⟩ draw' c r'
    (answer'.response.status = answer.response.status
        ∧ answer'.response.kind = answer.response.kind
        ∧ answer'.response.message = answer.response.message
        ∧ answer'.events = answer.events
        ∧ answer'.connection = answer.connection)
      ∨ r.command = .operate .decrypt
        ∧ ¬ (answer'.response.status = .ok ↔ answer.response.status = .ok) := by
  obtain ⟨htallies, hrest⟩ :=
    @tallies_serve ⟨store, gate, registry⟩ other draw draw' c r r' hstores hrequests
  -- an answer adds a response and, after a fault, a record of the fault
  simp only [handle, hrequests.command, hrequests.set, hrequests.version]
  generalize Broker.serve ⟨store, gate, registry⟩ draw c r = served at htallies hrest ⊢
  generalize Broker.serve ⟨other, gate, registry⟩ draw' c r' = served' at htallies hrest ⊢
  obtain ⟨result, after, events⟩ := served
  obtain ⟨result', after', events'⟩ := served'
  obtain ⟨rfl, rfl⟩ := Prod.mk.inj hrest
  cases htallies with
  | given body body' => exact .inl ⟨rfl, rfl, rfl, rfl, rfl⟩
  | failed fault => exact .inl ⟨rfl, rfl, rfl, rfl, rfl⟩
  | firstAlone hdecrypt body fault => exact .inr ⟨hdecrypt, fun h => nomatch h.mpr rfl⟩
  | secondAlone hdecrypt fault body => exact .inr ⟨hdecrypt, fun h => nomatch h.mp rfl⟩

/-- Two keys of sixteen bytes, and two boxes of five that are none. -/
theorem told_by_outline_of_short_boxes :
    let store := KeyStore.empty.after [.next "a" (.secret (List.replicate 16 1))]
    let other := KeyStore.empty.after [.next "a" (.secret (List.replicate 16 2))]
    let gate : Gate := fun _ _ => some .operate
    let c : Connection := { id := 1, caller := some ⟨1000, 100, none⟩ }
    let r : Request := { command := .operate .decrypt, set := "a", payload := [1, 2, 3, 4, 5] }
    let r' : Request := { r with payload := [6, 7, 8, 9, 10] }
    let draw : Draw := ⟨Vector.replicate 12 0, Vector.replicate 64 0, 1⟩
    let answer := Broker.handle ⟨store, gate, {}⟩ draw c r
    let answer' := Broker.handle ⟨other, gate, {}⟩ draw c r'
    store.SameOutline other ∧ r.SameOutline r'
      ∧ answer.response.message = some "Algorithm failure: ciphertext too short: 5 bytes"
      ∧ answer'.response.message = answer.response.message
      ∧ answer'.events = answer.events := by
  intro store other gate c r r' draw answer answer'
  have hstores : store.SameOutline other :=
    .of_listed (by decide +kernel) (by decide +kernel)
  have hrequests : r.SameOutline r' := ⟨rfl, rfl, rfl, rfl, rfl, rfl⟩
  refine ⟨hstores, hrequests, by decide +kernel, ?_⟩
  obtain ⟨-, -, hmessage, hevents, -⟩ | ⟨-, hpart⟩ :=
    told_by_outline gate {} store other c r r' draw draw hstores hrequests
  · exact ⟨hmessage, hevents⟩
  · exact absurd (by decide +kernel) hpart

end Broker

end KeyBroker
