import KeyBroker.Algorithm

/-! # The algorithm registry

A registry says which algorithms a broker offers and which primitive each stands for under an
operation. Main statement: the standard algorithm is always offered.
-/

namespace KeyBroker

/-- The digest functions a broker refuses. -/
structure Registry where
  refused : List Hash := []
  deriving DecidableEq, Repr

namespace Registry

/-- The registry that refuses the given algorithms; the standard one cannot be refused. -/
def without (disabled : List Algorithm) : Registry := ⟨disabled.filterMap Algorithm.hash?⟩

/-- Whether the registry offers an algorithm. -/
def offers (r : Registry) : Algorithm → Bool
  | .standard => true
  | .hash h => !r.refused.contains h

/-- The algorithms offered, by ascending ordinal. -/
def offered (r : Registry) : List Algorithm := Algorithm.all.filter r.offers

/-- The digest function of message authentication when the caller names none. -/
def standardMac : Hash := .sha1

/-- The digest function of signatures when the caller names none. -/
def standardSignature : Hash := .sha256

/-- The primitive an algorithm stands for under an operation. -/
def primitive (op : Operation) (a : Algorithm) : Primitive :=
  match op, a with
  | .encrypt, .standard | .decrypt, .standard => .cipher .standard
  | .encrypt, .hash h | .decrypt, .hash h => .cipher (.oaep h)
  | .hmac, a => .mac (a.hash?.getD standardMac)
  | .sign, a | .verify, a => .signature (a.hash?.getD standardSignature)

/-- The primitive for an ordinal, the standard one when no ordinal is given. -/
def resolve (r : Registry) (op : Operation) (ordinal : Option UInt32) :
    Except Unsupported Primitive := do
  let a ← Algorithm.ofOrdinal (ordinal.getD Algorithm.standard.ordinal)
  if r.offers a then .ok (primitive op a) else .error (.disabled a)

@[simp] theorem offers_standard (r : Registry) : r.offers .standard = true := rfl

end Registry

end KeyBroker
