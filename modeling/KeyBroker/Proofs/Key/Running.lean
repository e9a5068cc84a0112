import KeyBroker.Operation

/-! # Operations run what they resolve to

  The registry and the operations fit together: what an algorithm stands for under an
  operation is something that the operation can run. Whether it suits a key depends on the
  kind of the key alone, and is looked at before anything else. After that only the
  algorithms themselves can fail, and verifying cannot.
-/

namespace KeyBroker

/-! ### Ordinals -/

namespace Algorithm

/-- Every algorithm is listed. -/
theorem mem_all (a : Algorithm) : a ∈ all := by
  cases a with
  | standard => decide
  | hash h => cases h <;> decide

/-- An ordinal that no algorithm has names none. -/
theorem ofOrdinal_of_unknown {n : UInt32} (h : ∀ a : Algorithm, a.ordinal ≠ n) :
    ofOrdinal n = .error (.unknownOrdinal n) := by
  have hnone : all.find? (·.ordinal == n) = none := by
    rw [List.find?_eq_none]
    intro a _ heq
    exact h a (eq_of_beq heq)
  simp only [ofOrdinal, hnone]

end Algorithm

/-! ### Resolving -/

namespace Registry

variable (r : Registry) (op : Operation)

/-- All that can come of resolving an ordinal. -/
inductive Resolved : Option UInt32 → Except Unsupported Primitive → Prop where
  /-- No algorithm has the ordinal. -/
  | unknown (n : UInt32) (hnone : ∀ a : Algorithm, a.ordinal ≠ n) :
    Resolved (some n) (.error (.unknownOrdinal n))
  /-- The algorithm is refused. -/
  | disabled (a : Algorithm) (hrefused : r.offers a = false) :
    Resolved (some a.ordinal) (.error (.disabled a))
  /-- The algorithm is offered; without an ordinal it is the standard one. -/
  | offered (ordinal : Option UInt32) (a : Algorithm)
      (hordinal : ordinal.getD Algorithm.standard.ordinal = a.ordinal)
      (hoffered : r.offers a = true) :
    Resolved ordinal (.ok (primitive op a))

theorem resolve_of_ordinal {ordinal : Option UInt32} {a : Algorithm}
    (h : ordinal.getD Algorithm.standard.ordinal = a.ordinal) :
    r.resolve op ordinal
      = if r.offers a then .ok (primitive op a) else .error (.disabled a) := by
  simp only [resolve, h, Algorithm.ofOrdinal_ordinal]
  rfl

theorem resolved (ordinal : Option UInt32) : r.Resolved op ordinal (r.resolve op ordinal) := by
  by_cases hknown : ∃ a : Algorithm, ordinal.getD Algorithm.standard.ordinal = a.ordinal
  · obtain ⟨a, ha⟩ := hknown
    rw [r.resolve_of_ordinal op ha]
    by_cases hoffers : r.offers a = true
    · rw [if_pos hoffers]
      exact .offered ordinal a ha hoffers
    · rw [if_neg hoffers]
      -- the standard algorithm is always offered, so an ordinal was given
      cases ordinal with
      | none =>
        have hstandard : a = .standard := by
          have hname := Algorithm.ofOrdinal_ordinal a
          rw [← ha] at hname
          exact (Except.ok.inj hname).symm
        exact absurd (hstandard ▸ r.offers_standard) hoffers
      | some n =>
        cases ha
        exact .disabled a (Bool.eq_false_iff.mpr hoffers)
  · have hnone : ∀ a : Algorithm, a.ordinal ≠ ordinal.getD Algorithm.standard.ordinal :=
      fun a ha => hknown ⟨a, ha.symm⟩
    cases ordinal with
    | none => exact absurd rfl (hnone .standard)
    | some n =>
      have hunknown : Algorithm.ofOrdinal n = .error (.unknownOrdinal n) :=
        Algorithm.ofOrdinal_of_unknown hnone
      have hresolve : r.resolve op (some n) = .error (.unknownOrdinal n) := by
        simp only [resolve, Option.getD_some, hunknown]
        rfl
      rw [hresolve]
      exact .unknown n hnone

/-- Operations that belong together resolve alike. -/
theorem resolve_decrypt (ordinal : Option UInt32) :
    r.resolve .decrypt ordinal = r.resolve .encrypt ordinal := by
  have hsame : ∀ a, primitive .decrypt a = primitive .encrypt a := by
    intro a
    cases a <;> rfl
  simp only [resolve, hsame]

theorem resolve_verify (ordinal : Option UInt32) :
    r.resolve .verify ordinal = r.resolve .sign ordinal := by
  have hsame : ∀ a, primitive .verify a = primitive .sign a := by
    intro a
    cases a <;> rfl
  simp only [resolve, hsame]

end Registry

/-! ### Running -/

/-- Whether a primitive works with keys of a kind. -/
def Primitive.suits : Primitive → KeyKind → Bool
  | cipher .standard, _ => true
  | cipher (.oaep _), kind => kind = .asymmetric
  | mac _, kind => kind = .symmetric
  | signature _, kind => kind = .asymmetric

namespace Operation

/-- All that can come of running an operation with a primitive that it can run. -/
inductive Ran (op : Operation) (p : Primitive) (key : KeyMaterial) :
    Except KeyFault Outcome → Prop where
  /-- The key is of the wrong kind. -/
  | misfit (required : KeyKind) (hkind : p.suits key.kind = false)
      (hother : required ≠ key.kind) :
    Ran op p key (.error (.kindMismatch required key.kind))
  /-- A signature is judged. -/
  | judged (hop : op = .verify) (hkind : p.suits key.kind = true) (valid : Bool) :
    Ran op p key (.ok (.verdict valid))
  /-- Any other operation gives bytes, -/
  | done (hop : op ≠ .verify) (hkind : p.suits key.kind = true) (b : Bytes) :
    Ran op p key (.ok (.bytes b))
  /-- or its algorithm fails. -/
  | failed (hop : op ≠ .verify) (hkind : p.suits key.kind = true) (cause : AlgorithmFault) :
    Ran op p key (.error (.algorithm cause))

variable {op : Operation} {p : Primitive} {key : KeyMaterial}

/-- What an algorithm gives is what the operation gives. -/
theorem ran_of_algorithm (hop : op ≠ .verify) (hkind : p.suits key.kind = true)
    (x : Except AlgorithmFault Bytes) :
    Ran op p key ((x.mapError .algorithm).map .bytes) := by
  cases x with
  | ok b => exact .done hop hkind b
  | error cause => exact .failed hop hkind cause

/-- An operation never fails to run what an algorithm stands for under it. -/
theorem ran (op : Operation) (a : Algorithm) (key : KeyMaterial) (draw : Draw) (payload : Bytes)
    (aux : Option Bytes) :
    Ran op (Registry.primitive op a) key
      (op.run (Registry.primitive op a) key draw payload aux) := by
  cases op with
  | encrypt =>
    have hop : encrypt ≠ verify := nofun
    cases a with
    | standard =>
      cases key with
      | secret bytes =>
        exact ran_of_algorithm hop rfl (sealWith bytes draw.nonce payload)
      | pair k => exact ran_of_algorithm hop rfl (k.encrypt .sha1 draw.seed payload)
    | hash h =>
      cases key with
      | secret bytes => exact .misfit .asymmetric rfl nofun
      | pair k => exact ran_of_algorithm hop rfl (k.encrypt h draw.seed payload)
  | decrypt =>
    have hop : decrypt ≠ verify := nofun
    cases a with
    | standard =>
      cases key with
      | secret bytes => exact ran_of_algorithm hop rfl (openWith bytes payload)
      | pair k => exact ran_of_algorithm hop rfl (k.decrypt .sha1 payload)
    | hash h =>
      cases key with
      | secret bytes => exact .misfit .asymmetric rfl nofun
      | pair k => exact ran_of_algorithm hop rfl (k.decrypt h payload)
  | hmac =>
    have hop : hmac ≠ verify := nofun
    cases key with
    | secret bytes =>
      exact .done hop rfl (Crypto.mac (a.hash?.getD Registry.standardMac) bytes payload)
    | pair k => exact .misfit .symmetric rfl nofun
  | sign =>
    have hop : sign ≠ verify := nofun
    cases key with
    | secret bytes => exact .misfit .asymmetric rfl nofun
    | pair k =>
      exact ran_of_algorithm hop rfl (k.sign (a.hash?.getD Registry.standardSignature) draw.blinding payload)
  | verify =>
    cases key with
    | secret bytes => exact .misfit .asymmetric rfl nofun
    | pair k => exact .judged rfl rfl _

end Operation

end KeyBroker
