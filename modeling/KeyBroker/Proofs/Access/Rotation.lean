import KeyBroker.Proofs.Access.Obstacles
import KeyBroker.Proofs.Access.Site
import KeyBroker.Proofs.Key.Undoing

/-! # Rotation keeps old data

  A request is given something by one version of a key. Afterwards keys are published,
  the policy changes and other connections send what they like. A later request for that
  version, on whatever connection, takes back what the first was given: the version is
  still there, its operation resolves as that of the first did, and undoes it.
-/

namespace KeyBroker

/-- A request asks for an operation with the very version of a key that an earlier request was
    for, and with the same algorithm. -/
structure Revisits (r : Request) (v : KeyVersion) (op : Operation) (q : Request) : Prop where
  command : q.command = .operate op
  set : q.set = r.set
  version : q.version = v.number
  algorithm : q.algorithm.getD Algorithm.standard.ordinal
    = r.algorithm.getD Algorithm.standard.ordinal

/-- To name no algorithm is to name the standard one. -/
theorem Registry.resolve_of_same {op : Operation} {m n : Option UInt32} (registry : Registry)
    (h : m.getD Algorithm.standard.ordinal = n.getD Algorithm.standard.ordinal) :
    registry.resolve op m = registry.resolve op n := by
  unfold resolve
  rw [h]

namespace Broker

variable {b : Broker} {draw : Draw} {c : Connection} {r q : Request} {v : KeyVersion}
  {body : Body} {op : Operation}

/-! ### The key of a request -/

/-- The key that a request is for is shown by the store, under a number of its own. -/
theorem shown_of_keyFor? (h : b.keyFor? r = some v) :
    v ∈ b.store.shown r.set ∧ v.number ≠ 0 := by
  obtain ⟨s, hset, hget⟩ := Option.bind_eq_some_iff.mp h
  -- both ways to select a version take it from the versions of the set
  have hmem : v ∈ s.versions := by
    cases hselector : Selector.ofNumber r.version with
    | latest =>
      rw [hselector] at hget
      exact List.mem_of_head? hget
    | exactly n =>
      rw [hselector] at hget
      exact List.mem_of_find?_eq_some hget
  rw [KeyStore.shown_of_some hset]
  exact ⟨hmem, s.positive v hmem⟩

/-- A version that is shown is the key of a request for its set and number. -/
theorem keyFor?_of_shown (hshown : v ∈ b.store.shown q.set) (hnumber : v.number ≠ 0)
    (hversion : q.version = v.number) : b.keyFor? q = some v := by
  have hget : b.store.get q.set (Selector.ofNumber q.version) = .ok v := by
    rw [hversion, KeyStore.ofNumber_of_ne hnumber]
    exact KeyStore.get_exactly_eq_ok_iff.mpr ⟨hshown, rfl⟩
  exact Option.bind_eq_some_iff.mpr (KeyStore.get_eq_ok_iff.mp hget)

/-! ### What a request was given -/

/-- An operation that gives something was resolved and run. -/
theorem run_of_operate (h : b.operate draw op v r = .ok body) :
    ∃ p outcome, b.registry.resolve op r.algorithm = .ok p
      ∧ op.run p v.material draw r.payload r.aux = .ok outcome ∧ body = outcome.body := by
  unfold operate at h
  split at h
  · cases h
  · next p hresolve =>
    split at h
    · cases h
    · split at h
      · next outcome hrun => exact ⟨p, outcome, hresolve, hrun, (Except.ok.inj h).symm⟩
      · cases h

/-- What is given a result met no obstacle. -/
theorem not_meets_of_success (hping : r.command ≠ .ping)
    (h : (b.handle draw c r).response = .success body) (o : Obstacle) :
    b.meets c r o = false := by
  have hserve : (b.serve draw c r).1 = .ok body := by
    rw [← handle_result_eq_some, h]
    rfl
  cases hfirst : b.obstacle? c r with
  | none => exact of_obstacle?_eq_none hfirst o
  | some e =>
    obtain ⟨fault, hfault, -⟩ := serve_of_obstacle? draw hping hfirst
    rw [hserve] at hfault
    cases hfault

/-- A request for an operation that is given bytes names a set, and the operation was run
    with its key. -/
theorem run_of_given {given : Bytes} (hop : r.command = .operate op)
    (hkey : b.keyFor? r = some v)
    (h : (b.handle draw c r).response = .success (.bytes given)) :
    r.set ≠ "" ∧ ∃ p, b.registry.resolve op r.algorithm = .ok p
      ∧ op.run p v.material draw r.payload r.aux = .ok (.bytes given) := by
  have hping : r.command ≠ .ping := by
    rw [hop]
    nofun
  have hserve : (b.serve draw c r).1 = .ok (.bytes given) := by
    rw [← handle_result_eq_some, h]
    rfl
  have hpassed : ∀ o, b.meets c r o = false := not_meets_of_success hping h
  refine ⟨of_decide_eq_false (hpassed .unnamed), ?_⟩
  obtain ⟨w, hw, huse⟩ :=
    serve_of_passed draw hping (hpassed _) (hpassed _) (hpassed _) (hpassed _)
  obtain rfl := Option.some.inj (hkey.symm.trans hw)
  rw [hserve, useKey_of_operate hop] at huse
  obtain ⟨p, outcome, hresolve, hrun, hbody⟩ := run_of_operate huse.symm
  cases outcome with
  | bytes b =>
    obtain rfl := Body.bytes.inj hbody
    exact ⟨p, hresolve, hrun⟩
  | verdict valid => cases hbody

/-! ### What a request is given -/

/-- Who is permitted something is known. -/
theorem keyed_of_permits (hping : q.command ≠ .ping) (hset : q.set ≠ "")
    (h : b.permits c q = true) : ∃ caller, Keyed c caller q := by
  unfold permits at h
  cases hcaller : c.caller with
  | none =>
    rw [hcaller] at h
    cases h
  | some caller => exact ⟨caller, hcaller, hping, hset⟩

/-- A permitted request for an operation is given what running it gives. -/
theorem handle_of_run {p : Primitive} {outcome : Outcome} (hop : q.command = .operate op)
    (hset : q.set ≠ "") (hpermits : b.permits c q = true) (hkey : b.keyFor? q = some v)
    (hresolve : b.registry.resolve op q.algorithm = .ok p)
    (hsigned : ¬ (op = .verify ∧ q.aux = none))
    (hrun : op.run p v.material draw q.payload q.aux = .ok outcome) :
    (b.handle draw c q).response = .success outcome.body := by
  have hping : q.command ≠ .ping := by
    intro hping
    rw [hop] at hping
    cases hping
  obtain ⟨caller, hkeyed⟩ := keyed_of_permits hping hset hpermits
  apply handle_response_of_ok
  rw [serve_of_keyFor? hkeyed hpermits hkey, useKey_of_operate hop]
  exact operate_of_run_ok hresolve hsigned hrun

end Broker

namespace Site

variable {site : Site} {r q : Request} {v : KeyVersion} {op : Operation}

/-- The version that a request was for is the key of a request that revisits it, after
    whatever turns. -/
theorem keyFor?_after (turns : List Turn) (hkey : site.broker.keyFor? r = some v)
    (hq : Revisits r v op q) : (site.after turns).broker.keyFor? q = some v := by
  obtain ⟨hshown, hnumber⟩ := Broker.shown_of_keyFor? hkey
  have hlater := mem_shown_after turns hshown
  rw [← hq.set] at hlater
  exact Broker.keyFor?_of_shown hlater hnumber hq.version

/-- And its operation resolves after them as the one that it undoes did before. -/
theorem resolve_after {done : Operation} {p : Primitive} (turns : List Turn)
    (hq : Revisits r v op q)
    (hpaired : ∀ ordinal, site.broker.registry.resolve op ordinal
      = site.broker.registry.resolve done ordinal)
    (hresolve : site.broker.registry.resolve done r.algorithm = .ok p) :
    (site.after turns).broker.registry.resolve op q.algorithm = .ok p := by
  rw [registry_after, Registry.resolve_of_same _ hq.algorithm, hpaired, hresolve]

/-- A request that revisits a version, after whatever turns, is given what its operation makes
    of the key with the primitive that the earlier request was given something by. -/
theorem answer_revisited {i j : Nat} {draw redraw : Draw} {done : Operation} {given : Bytes}
    {outcome : Outcome} (turns : List Turn) (hkey : site.broker.keyFor? r = some v)
    (hgiven : (site.answer i draw r).response = .success (.bytes given))
    (hdone : r.command = .operate done) (hq : Revisits r v op q)
    (hpermits : (site.after turns).broker.permits ((site.after turns).connections j) q = true)
    (hpaired : ∀ ordinal, site.broker.registry.resolve op ordinal
      = site.broker.registry.resolve done ordinal)
    (hsigned : ¬ (op = .verify ∧ q.aux = none))
    (hundoes : ∀ p, done.run p v.material draw r.payload r.aux = .ok (.bytes given) →
      op.run p v.material redraw q.payload q.aux = .ok outcome) :
    ((site.after turns).answer j redraw q).response = .success outcome.body := by
  obtain ⟨hset, p, hresolve, hrun⟩ := Broker.run_of_given hdone hkey hgiven
  rw [← hq.set] at hset
  have hlater := keyFor?_after turns hkey hq
  have hsame := resolve_after turns hq hpaired hresolve
  exact Broker.handle_of_run hq.command hset hpermits hlater hsame hsigned (hundoes p hrun)

/-- Rotation keeps old data. A request on some connection is given a ciphertext by a version
    that is a secret (for which there is the standard algorithm only), or a signature by a
    version that is a key pair. After any turns, in which keys are published or fail to be,
    the policy is replaced, and any connections send any requests, a request that names the
    version, on any connection whose capability in force permits it, is given the message of
    that ciphertext, or the verdict that the signature is valid. -/
theorem rotation_keeps_data (site : Site) (i : Nat) (draw : Draw) (r : Request) (v : KeyVersion)
    (given : Bytes) (turns : List Turn) (j : Nat) (redraw : Draw) (q : Request)
    (hkey : site.broker.keyFor? r = some v)
    (hgiven : (site.answer i draw r).response = .success (.bytes given)) :
    let later := site.after (⟨i, .request draw r⟩ :: turns)
    later.broker.permits (later.connections j) q = true →
    (r.command = .operate .encrypt → v.material.kind = .symmetric →
      Revisits r v .decrypt q → q.payload = given →
      (later.answer j redraw q).response = .success (.bytes r.payload))
    ∧ (r.command = .operate .sign →
      Revisits r v .verify q → q.payload = r.payload → q.aux = some given →
      (later.answer j redraw q).response = .success (.verdict true)) := by
  intro later hpermits
  refine ⟨?_, ?_⟩
  · intro hencrypt hkind hq hpayload
    have hundoes : ∀ p, Operation.encrypt.run p v.material draw r.payload r.aux
          = .ok (.bytes given) →
        Operation.decrypt.run p v.material redraw q.payload q.aux = .ok (.bytes r.payload) := by
      intro p hrun
      rw [hpayload]
      cases hmaterial : v.material with
      | secret secret =>
        rw [hmaterial] at hrun
        exact Operation.run_decrypt_of_run_encrypt redraw q.aux hrun
      | pair k =>
        rw [hmaterial] at hkind
        cases hkind
    have hsigned : ¬ (Operation.decrypt = .verify ∧ q.aux = none) := nofun
    exact answer_revisited _ hkey hgiven hencrypt hq hpermits
      site.broker.registry.resolve_decrypt hsigned hundoes
  · intro hsign hq hpayload haux
    have hundoes : ∀ p, Operation.sign.run p v.material draw r.payload r.aux
          = .ok (.bytes given) →
        Operation.verify.run p v.material redraw q.payload q.aux = .ok (.verdict true) := by
      intro p hrun
      rw [hpayload, haux]
      exact Operation.run_verify_of_run_sign redraw hrun
    have hsigned : ¬ (Operation.verify = .verify ∧ q.aux = none) := by
      rw [haux]
      nofun
    exact answer_revisited _ hkey hgiven hsign hq hpermits
      site.broker.registry.resolve_verify hsigned hundoes

/-- A secret is rotated, and a key pair is no more the latest of its set: what the old secret
    sealed still opens, and what the old pair signed still verifies, on a connection that
    asked for neither. -/
theorem rotation_keeps_data_of_two_sets :
    let p := (1 <<< 184) - 59
    let q := (1 <<< 184) - 287
    let pair : KeyPair :=
      ⟨⟨p * q, 3, (2 * (p - 1) * (q - 1) + 1) / 3, p, q⟩, by decide +kernel⟩
    let secret : Bytes := List.replicate 16 7
    let draw : Draw := ⟨Vector.replicate 12 0, Vector.replicate 64 0, 1⟩
    let site : Site :=
      ⟨⟨KeyStore.empty.after [.next "a" (.secret secret), .next "b" (.pair pair)],
          fun _ _ => some .operate, {}⟩,
        fun i => { id := i, caller := some ⟨1000, 100, none⟩ }⟩
    let turns : List Turn := [⟨1, .publish "a" (.secret [1])⟩, ⟨1, .publishAs "b" 1 (.pair pair)⟩,
      ⟨2, .publishAs "b" 9 (.pair pair)⟩]
    let encrypt : Request := { command := .operate .encrypt, set := "a", payload := [1, 2, 3] }
    let sign : Request :=
      { command := .operate .sign, set := "b", algorithm := some 1, payload := [1, 2, 3] }
    let box := Crypto.Gcm.sealed secret draw.nonce.toList [1, 2, 3]
    let signature := (pair.sign .sha1 1 [1, 2, 3]).toOption.getD []
    let decrypt : Request :=
      { command := .operate .decrypt, set := "a", version := 1, algorithm := some 0,
        payload := box }
    let verify : Request :=
      { sign with command := .operate .verify, version := 1, aux := some signature }
    let sealed := site.after (⟨0, .request draw encrypt⟩ :: turns)
    let signed := site.after (⟨0, .request draw sign⟩ :: turns)
    sealed.broker.keyFor? encrypt ≠ site.broker.keyFor? encrypt
      ∧ (site.answer 0 draw encrypt).response = .success (.bytes box)
      ∧ (sealed.answer 3 draw decrypt).response = .success (.bytes [1, 2, 3])
      ∧ (site.answer 0 draw sign).response = .success (.bytes signature)
      ∧ (signed.answer 3 draw verify).response = .success (.verdict true) := by
  intro p q pair secret draw site turns encrypt sign box signature decrypt verify sealed signed
  have hrotated : sealed.broker.keyFor? encrypt ≠ site.broker.keyFor? encrypt := by
    decide +kernel
  have hsecret : site.broker.keyFor? encrypt = some ⟨1, .secret secret⟩ := by decide +kernel
  have hpair : site.broker.keyFor? sign = some ⟨1, .pair pair⟩ := by decide +kernel
  -- the box is not computed here, what counts is how it came about
  have hrun : Operation.encrypt.run (.cipher .standard) (.secret secret) draw [1, 2, 3] none
      = .ok (.bytes box) := rfl
  have hallowed : site.broker.permits (site.connections 0) encrypt = true := by decide +kernel
  have hbox : (site.answer 0 draw encrypt).response = .success (.bytes box) := by
    have hgiven :=
      Broker.handle_of_run (q := encrypt) rfl (by decide) hallowed hsecret rfl nofun hrun
    exact hgiven
  have hsignature : (site.answer 0 draw sign).response = .success (.bytes signature) := by
    decide +kernel
  have hopen : sealed.broker.permits (sealed.connections 3) decrypt = true := by decide +kernel
  have hjudge : signed.broker.permits (signed.connections 3) verify = true := by decide +kernel
  obtain ⟨hdecrypted, -⟩ :=
    rotation_keeps_data site 0 draw encrypt _ box turns 3 draw decrypt hsecret hbox hopen
  obtain ⟨-, hverified⟩ :=
    rotation_keeps_data site 0 draw sign _ signature turns 3 draw verify hpair hsignature hjudge
  exact ⟨hrotated, hbox, hdecrypted rfl rfl ⟨rfl, rfl, rfl, rfl⟩ rfl, hsignature,
    hverified rfl ⟨rfl, rfl, rfl, rfl⟩ rfl rfl⟩

end Site

end KeyBroker
