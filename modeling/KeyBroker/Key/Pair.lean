import KeyBroker.Bytes
import KeyBroker.Crypto.Modular

/-! # RSA key pairs

A key pair is a modulus with two factors and a pair of exponents that undo each other modulo each
factor less one. A private operation may be hidden behind a factor that is drawn at random. Main
statement: whatever was drawn, the private operation never answers a number that the public
operation does not take back.
-/

namespace KeyBroker

/-- The numbers of a key pair. -/
structure PairNumbers where
  modulus : Nat
  publicExponent : Nat
  privateExponent : Nat
  prime₁ : Nat
  prime₂ : Nat
  deriving DecidableEq, Repr

/-- The longest modulus that is accepted, in bits. -/
def maxModulusBits : Nat := 4096

/-- The largest public exponent that is accepted. -/
def maxPublicExponent : Nat := (1 <<< 33) - 1

/-- Numbers fit to be a key pair. Nobody checks that the factors are prime. -/
def PairNumbers.Valid (k : PairNumbers) : Prop :=
  k.modulus < 1 <<< maxModulusBits ∧ k.modulus % 2 = 1
    ∧ 2 ≤ k.publicExponent ∧ k.publicExponent % 2 = 1 ∧ k.publicExponent < k.modulus
    ∧ k.publicExponent ≤ maxPublicExponent
    ∧ 2 ≤ k.prime₁ ∧ 2 ≤ k.prime₂ ∧ k.prime₁ * k.prime₂ = k.modulus
    ∧ k.privateExponent * k.publicExponent % (k.prime₁ - 1) = 1
    ∧ k.privateExponent * k.publicExponent % (k.prime₂ - 1) = 1

instance (k : PairNumbers) : Decidable k.Valid := by
  unfold PairNumbers.Valid
  infer_instance

/-- A key pair. -/
structure KeyPair extends PairNumbers where
  valid : toPairNumbers.Valid
  deriving DecidableEq, Repr

/-- Why a private operation gives no answer: the number is out of range, or the factors are no
primes and the result does not lead back to it. -/
inductive PrivateFault where
  | outOfRange
  | noInverse
  deriving DecidableEq, Repr

namespace KeyPair

/-- The length of the modulus in bytes. -/
def size (k : KeyPair) : Nat := k.modulus.log2 / 8 + 1

/-- The private exponent reduced for the first factor. -/
def exponent₁ (k : KeyPair) : Nat := k.privateExponent % (k.prime₁ - 1)

/-- The private exponent reduced for the second factor. -/
def exponent₂ (k : KeyPair) : Nat := k.privateExponent % (k.prime₂ - 1)

/-- The inverse of the second factor modulo the first. -/
def coefficient? (k : KeyPair) : Option Nat := Crypto.inverse? k.prime₁ k.prime₂

/-- The public operation. -/
def publicPower (k : KeyPair) (m : Nat) : Nat := Crypto.powMod k.modulus m k.publicExponent

/-- The private operation, unchecked: by the two factors if they are coprime, else at once. -/
def privatePower (k : KeyPair) (c : Nat) : Nat :=
  match k.coefficient? with
  | some q' =>
    let m₁ := Crypto.powMod k.prime₁ c k.exponent₁
    let m₂ := Crypto.powMod k.prime₂ c k.exponent₂
    let h := (m₁ + (k.prime₁ - m₂ % k.prime₁)) * q' % k.prime₁
    m₂ + h * k.prime₂
  | none => Crypto.powMod k.modulus c k.privateExponent

/-- A factor to hide a number behind, and its inverse. A number that has no inverse is drawn again,
so the factor may be any that has one, and no other; here one stands for the draw after that. -/
def blinding (k : KeyPair) (drawn : Nat) : Nat × Nat :=
  match Crypto.inverse? k.modulus (drawn % k.modulus) with
  | some inverse => (drawn % k.modulus, inverse)
  | none => (1, 1)

/-- The private operation on a number that is hidden behind a factor, unchecked. The public power of
the factor goes in with the number, and the factor itself is taken away from what comes out. -/
def blindPower (k : KeyPair) (drawn c : Nat) : Nat :=
  let (factor, inverse) := k.blinding drawn
  k.privatePower (c * k.publicPower factor % k.modulus) * inverse % k.modulus

/-- What the private operation gives for `c`, if `m` was worked out: it is checked by the public
one. -/
def checked (k : KeyPair) (c m : Nat) : Except PrivateFault Nat :=
  if k.modulus ≤ c then .error .outOfRange
  else if k.publicPower m = c then .ok m
  else .error .noInverse

/-- The private operation, in the open. -/
def undo (k : KeyPair) (c : Nat) : Except PrivateFault Nat := k.checked c (k.privatePower c)

/-- The private operation, hidden behind a factor that was drawn. -/
def undoBlind (k : KeyPair) (drawn c : Nat) : Except PrivateFault Nat :=
  k.checked c (k.blindPower drawn c)

/-- What is given was worked out, and leads back. -/
theorem checked_eq_ok_iff {k : KeyPair} {c m given : Nat} :
    k.checked c m = .ok given ↔ c < k.modulus ∧ k.publicPower m = c ∧ given = m := by
  unfold checked
  split
  · next hout => exact ⟨nofun, fun h => absurd h.1 (Nat.not_lt.mpr hout)⟩
  · next hin =>
    split
    · next hback =>
      constructor
      · intro h
        exact ⟨Nat.not_le.mp hin, hback, (Except.ok.inj h).symm⟩
      · rintro ⟨-, -, rfl⟩
        rfl
    · next hback => exact ⟨nofun, fun h => absurd h.2.1 hback⟩

end KeyPair

end KeyBroker
