import KeyBroker.Proofs.Key.Inverting
import KeyBroker.Proofs.Key.Padding

/-! # A message has one signature

  What was signed verifies, for any two factors and whatever was drawn to hide the digest.
  That nothing else verifies in its place takes factors that are primes and not the same. Then
  the public operation tells numbers apart, and a signature is below the modulus and has its
  length, so its number determines it. Such a pair also signs whatever there is room for, and
  gives the same signature for every draw. With other factors it may depend on the draw
  whether a pair signs at all.
-/

namespace KeyBroker

namespace KeyPair

variable {k : KeyPair} {h : Hash} {message signature other : Bytes}

/-! ### Signing -/

/-- With two distinct primes, a digest for which there is room is signed, and what is drawn
    makes no difference to the signature. -/
theorem sign_of_primes (hp : k.prime₁.Prime) (hq : k.prime₂.Prime)
    (hdistinct : k.prime₁ ≠ k.prime₂) {padded : Bytes}
    (hpad : Crypto.signaturePad h k.size message = some padded) (drawn : Nat) :
    k.sign h drawn message
      = .ok (Bytes.ofNatBE k.size (k.privatePower (Bytes.toNatBE padded))) := by
  have hbelow := k.toNatBE_signaturePad_lt hpad
  refine sign_eq_ok_iff.mpr ⟨padded, hpad, hbelow, ?_, ?_⟩
  · exact publicPower_blindPower hp hq hdistinct hbelow drawn
  · rw [blindPower_eq hp hq hdistinct hbelow]

/-! ### Verifying -/

/-- What verifies is as long as the modulus, below it, and leads to the padded digest. -/
theorem verify_iff :
    k.verify h message signature = true
      ↔ signature.length = k.size ∧ Bytes.toNatBE signature < k.modulus
        ∧ Crypto.signaturePad h k.size message
            = some (Bytes.ofNatBE k.size (k.publicPower (Bytes.toNatBE signature))) := by
  simp only [verify, Bool.and_eq_true, beq_iff_eq, decide_eq_true_eq, and_assoc]

/-- With two distinct primes, no two signatures of one message verify. -/
theorem eq_of_verify (hp : k.prime₁.Prime) (hq : k.prime₂.Prime)
    (hdistinct : k.prime₁ ≠ k.prime₂) (hsignature : k.verify h message signature = true)
    (hother : k.verify h message other = true) : other = signature := by
  obtain ⟨hlength, hbelow, hpad⟩ := verify_iff.mp hsignature
  obtain ⟨hlength', hbelow', hpad'⟩ := verify_iff.mp hother
  -- both lead to the same padded digest, hence to the same number
  have hbytes : Bytes.ofNatBE k.size (k.publicPower (Bytes.toNatBE other))
      = Bytes.ofNatBE k.size (k.publicPower (Bytes.toNatBE signature)) :=
    Option.some.inj (hpad'.symm.trans hpad)
  have hpower : k.publicPower (Bytes.toNatBE other)
      = k.publicPower (Bytes.toNatBE signature) := by
    have hback := congrArg Bytes.toNatBE hbytes
    rwa [toNatBE_ofNatBE_of_lt (k.publicPower_lt _),
      toNatBE_ofNatBE_of_lt (k.publicPower_lt _)] at hback
  have hnumber : Bytes.toNatBE other = Bytes.toNatBE signature :=
    publicPower_inj hp hq hdistinct hbelow' hbelow hpower
  calc other = Bytes.ofNatBE other.length (Bytes.toNatBE other) :=
        (Bytes.ofNatBE_toNatBE other).symm
    _ = Bytes.ofNatBE signature.length (Bytes.toNatBE signature) := by
        rw [hnumber, hlength, hlength']
    _ = signature := Bytes.ofNatBE_toNatBE signature

end KeyPair

/-! ### Under any key -/

namespace Operation

/-- Verifying fails under a secret, as the key is of the wrong kind, and nowhere else. -/
theorem run_verify_eq_error_iff {h : Hash} {key : KeyMaterial} {draw : Draw} {message : Bytes}
    {aux : Option Bytes} {fault : KeyFault} :
    verify.run (.signature h) key draw message aux = .error fault
      ↔ key.kind = .symmetric ∧ fault = .kindMismatch .asymmetric .symmetric := by
  cases key with
  | secret bytes =>
    show Except.error (KeyFault.kindMismatch .asymmetric .symmetric) = .error fault ↔ _
    constructor
    · intro hfault
      exact ⟨rfl, (Except.error.inj hfault).symm⟩
    · rintro ⟨-, rfl⟩
      rfl
  | pair k =>
    rw [run_verify_pair]
    constructor
    · nofun
    · rintro ⟨hkind, -⟩
      cases hkind

/-- Whatever a key pair signs, for whatever draw, is as long as its modulus and verifies. If
    the two factors are distinct primes, then every draw gives this signature, and no other
    byte string verifies for the message. Under a key pair verifying always comes to a
    verdict. It fails only under a secret. -/
theorem signs_and_verifies_uniquely (h : Hash) (message : Bytes) :
    (∀ (k : KeyPair) (draw : Draw) (aux : Option Bytes) (signature : Bytes),
        sign.run (.signature h) (.pair k) draw message aux = .ok (.bytes signature) →
        signature.length = k.size
          ∧ (∀ redraw : Draw,
              verify.run (.signature h) (.pair k) redraw message (some signature)
                = .ok (.verdict true))
          ∧ (k.prime₁.Prime → k.prime₂.Prime → k.prime₁ ≠ k.prime₂ →
              (∀ redraw : Draw, sign.run (.signature h) (.pair k) redraw message aux
                = .ok (.bytes signature))
              ∧ ∀ (redraw : Draw) (other : Bytes), other ≠ signature →
                verify.run (.signature h) (.pair k) redraw message (some other)
                  = .ok (.verdict false)))
      ∧ (∀ (k : KeyPair) (draw : Draw) (signature : Bytes), ∃ valid : Bool,
          verify.run (.signature h) (.pair k) draw message (some signature)
            = .ok (.verdict valid))
      ∧ ∀ (key : KeyMaterial) (draw : Draw) (signature : Bytes) (fault : KeyFault),
          verify.run (.signature h) key draw message (some signature) = .error fault
            ↔ key.kind = .symmetric ∧ fault = .kindMismatch .asymmetric .symmetric := by
  refine ⟨?_, ?_, ?_⟩
  · intro k draw aux signature hsigned
    have hgiven : k.sign h draw.blinding message = .ok signature := ok_of_algorithm hsigned
    have hverified : k.verify h message signature = true := KeyPair.verify_of_sign hgiven
    refine ⟨(KeyPair.verify_iff.mp hverified).1, ?_, ?_⟩
    · intro redraw
      exact run_verify_of_run_sign redraw hsigned
    · intro hp hq hdistinct
      refine ⟨?_, ?_⟩
      · intro redraw
        obtain ⟨padded, hpad, -⟩ := KeyPair.sign_eq_ok_iff.mp hgiven
        have hsame : k.sign h redraw.blinding message = k.sign h draw.blinding message := by
          rw [KeyPair.sign_of_primes hp hq hdistinct hpad,
            KeyPair.sign_of_primes hp hq hdistinct hpad]
        show ((k.sign h redraw.blinding message).mapError KeyFault.algorithm).map Outcome.bytes = _
        rw [hsame]
        exact hsigned
      · intro redraw other hother
        have hrefused : k.verify h message other = false := by
          -- what is accepted as well is no other signature
          apply Bool.eq_false_iff.mpr
          intro haccepted
          exact hother (KeyPair.eq_of_verify hp hq hdistinct hverified haccepted)
        rw [run_verify_pair, Option.getD_some, hrefused]
  · intro k draw signature
    exact ⟨_, run_verify_pair h k draw message _⟩
  · intro key draw signature fault
    exact run_verify_eq_error_iff

/-- A pair with two primes whose product has room for a padded digest: its signature, made
    behind one factor, is that made behind another, and verifies, and neither the same bytes
    with the last one changed nor one byte less nor one byte more do. Under a secret nothing is
    verified. -/
theorem signs_and_verifies_uniquely_with_two_primes :
    let p := (7 <<< 180) + 1
    let q := (25 <<< 184) + 1
    let pair : KeyPair :=
      ⟨⟨p * q, 3, (2 * (p - 1) * (q - 1) + 1) / 3, p, q⟩, by decide +kernel⟩
    let draw : Draw := ⟨Vector.replicate 12 0, Vector.replicate 64 0, 2⟩
    let redraw : Draw := ⟨Vector.replicate 12 0, Vector.replicate 64 0, 5⟩
    let signature := (pair.sign .sha1 2 [1, 2, 3]).toOption.getD []
    let verdict := fun given =>
      verify.run (.signature .sha1) (.pair pair) draw [1, 2, 3] (some given)
    sign.run (.signature .sha1) (.pair pair) draw [1, 2, 3] none = .ok (.bytes signature)
      ∧ p.Prime ∧ q.Prime ∧ p ≠ q
      ∧ sign.run (.signature .sha1) (.pair pair) redraw [1, 2, 3] none = .ok (.bytes signature)
      ∧ signature.length = 47
      ∧ verdict signature = .ok (.verdict true)
      ∧ verdict (signature.modify 46 (· ^^^ 1)) = .ok (.verdict false)
      ∧ verdict signature.dropLast = .ok (.verdict false)
      ∧ verdict (signature ++ [0]) = .ok (.verdict false)
      ∧ verify.run (.signature .sha1) (.secret [7]) draw [1, 2, 3] (some signature)
          = .error (.kindMismatch .asymmetric .symmetric) := by
  intro p q pair draw redraw signature verdict
  have hsigned : sign.run (.signature .sha1) (.pair pair) draw [1, 2, 3] none
      = .ok (.bytes signature) := by
    decide +kernel
  have hp : p.Prime := by
    apply Crypto.prime_of_powMod (a := 3) (r := 7) (i := 180) (j := 1) <;> decide +kernel
  have hq : q.Prime := by
    apply Crypto.prime_of_powMod (a := 3) (r := 5) (i := 184) (j := 2) <;> decide +kernel
  have hdistinct : p ≠ q := by decide +kernel
  obtain ⟨hsigns, -, hfails⟩ := signs_and_verifies_uniquely .sha1 [1, 2, 3]
  obtain ⟨hlength, hverified, hothers⟩ := hsigns pair draw none signature hsigned
  obtain ⟨hagain, hrefused⟩ := hothers hp hq hdistinct
  have hsize : pair.size = 47 := by decide +kernel
  have hlong : signature.length = 47 := hlength.trans hsize
  refine ⟨hsigned, hp, hq, hdistinct, hagain redraw, hlong, hverified draw, hrefused draw _ ?_,
    hrefused draw _ ?_, hrefused draw _ ?_, (hfails (.secret [7]) draw signature _).mpr ⟨rfl, rfl⟩⟩
  · decide +kernel
  · intro hsame
    have hcut := congrArg List.length hsame
    rw [List.length_dropLast, hlong] at hcut
    cases hcut
  · simp

/-- With a factor that is no prime, one draw may lead to a signature and another to none. -/
example :
    let q := (55 <<< 356) + 1
    let pair : KeyPair := ⟨⟨9 * q, 13, (12 * (q - 1) + 1) / 13, 9, q⟩, by decide +kernel⟩
    (pair.sign .sha1 1 []).toOption.isSome = true
      ∧ pair.sign .sha1 2 [] = .error .signatureNoInverse := by
  decide +kernel

end Operation

end KeyBroker
