import KeyBroker.Access.Caller

/-! # Grants and policies

A grant gives a class of callers access to the key sets of a pattern: an exact name, or all names
that start with the text before a trailing star. A policy is a list of grants; what a caller may do
with a set is the highest access of the grants that apply. Main statement: who may read the keys of
a set may do anything with it.
-/

namespace KeyBroker

/-- What a request wants of a key set: to use its keys, or to read them. -/
inductive Action where
  | operate
  | retrieve
  deriving DecidableEq, Repr

/-- The action in messages. -/
def Action.name : Action → String
  | operate => "operate"
  | retrieve => "retrieve"

/-- What a caller may do with a key set. To read keys is more than to use them. -/
inductive Capability where
  | operate
  | retrieve
  deriving DecidableEq, Repr

namespace Capability

/-- Whether an action is allowed. -/
def permits : Capability → Action → Bool
  | _, .operate => true
  | c, .retrieve => c == retrieve

/-- The capability in configuration files. -/
def name : Capability → String
  | operate => "operate"
  | retrieve => "retrieve"

/-- The capability in records. -/
def word : Capability → String
  | operate => "Operate"
  | retrieve => "Retrieve"

/-- The capability with a given name. -/
def ofName? (name : String) : Option Capability :=
  if name = "operate" then some operate
  else if name = "retrieve" then some retrieve
  else none

/-- The higher of two capabilities. -/
protected def max : Capability → Capability → Capability
  | operate, c => c
  | retrieve, _ => retrieve

instance : Max Capability := ⟨Capability.max⟩

@[simp] theorem retrieve_permits (a : Action) : retrieve.permits a = true := by
  cases a <;> rfl

end Capability

/-- One entry of a policy. -/
structure Grant where
  entity : Entity
  pattern : String
  access : Capability
  deriving DecidableEq, Repr

/-- Why a grant is refused. -/
inductive GrantFault where
  | badPattern (pattern : String)
  deriving DecidableEq, Repr

/-- The reason in words. -/
def GrantFault.message : GrantFault → String
  | badPattern pattern =>
    "invalid set pattern " ++ Text.quote pattern ++ ": use an exact name or a trailing '*'"

namespace Grant

/-- Whether the pattern covers a set name. -/
def covers (g : Grant) (set : String) : Bool :=
  let p := g.pattern.toList
  if p.getLast? = some '*' then p.dropLast.isPrefixOf set.toList else g.pattern == set

/-- Whether the grant speaks of this caller and this set. -/
def applies (g : Grant) (c : Caller) (set : String) : Bool :=
  g.entity.matches? c && g.covers set

/-- Whether the pattern is neither empty nor has a star before its end. -/
def wellFormed (g : Grant) : Bool :=
  let p := g.pattern.toList
  !p.isEmpty && !p.dropLast.contains '*'

/-- Refuses a grant whose pattern is not well formed. -/
def check (g : Grant) : Except GrantFault Unit :=
  if g.wellFormed then .ok () else .error (.badPattern g.pattern)

end Grant

/-- Decides what a caller may do with a key set. -/
abbrev Gate := Caller → String → Option Capability

/-- Why a request is not permitted. -/
inductive Denial where
  | unauthenticated
  | notPermitted (caller : Caller) (action : Action) (set : String)
  deriving DecidableEq, Repr

/-- The reason in words. -/
def Denial.message : Denial → String
  | unauthenticated => "connection is not authenticated"
  | notPermitted caller action set =>
    s!"{caller.describe} may not {action.name} key set {set}"

/-- Lets an action pass if the capability that the caller holds permits it. -/
def Capability.judge (caller : Caller) (set : String) (action : Action) :
    Option Capability → Except Denial Capability
  | some c => if c.permits action then .ok c else .error (.notPermitted caller action set)
  | none => .error (.notPermitted caller action set)

/-- Asks a gate whether an action is permitted. -/
def Gate.authorize (gate : Gate) (caller : Caller) (set : String) (action : Action) :
    Except Denial Capability :=
  Capability.judge caller set action (gate caller set)

/-- A static list of grants. -/
structure Policy where
  grants : List Grant := []
  deriving DecidableEq, Repr

namespace Policy

/-- The highest capability that the grants give a caller on a set. -/
def capability (p : Policy) : Gate := fun caller set =>
  ((p.grants.filter (·.applies caller set)).map (·.access)).max?

end Policy

end KeyBroker
