import KeyBroker.Text.Blank
import KeyBroker.Text.Decimal
import KeyBroker.Text.Quoted

/-! # Callers and entities

A caller is the process at the other end of a connection. An entity is a class of callers: anyone,
one user, or one group; it is written `*`, `user:` and a number, or `group:` and a number.
-/

namespace KeyBroker

/-- An authenticated caller. -/
structure Caller where
  uid : UInt32
  gid : UInt32
  pid : Option Int
  deriving DecidableEq, Repr

/-- The caller in records and messages. -/
def Caller.describe (c : Caller) : String :=
  match c.pid with
  | some pid => s!"uid={c.uid.toNat} gid={c.gid.toNat} pid={pid}"
  | none => s!"uid={c.uid.toNat} gid={c.gid.toNat}"

/-- A class of callers. -/
inductive Entity where
  | anyone
  | user (id : UInt32)
  | group (id : UInt32)
  deriving DecidableEq, Repr

/-- Why a text names no entity. -/
inductive EntityFault where
  | badId (text : String)
  | badForm (text : String)
  deriving DecidableEq, Repr

/-- The reason in words. -/
def EntityFault.message : EntityFault → String
  | badId text => "invalid entity id in " ++ Text.quote text
  | badForm text =>
    "invalid entity " ++ Text.quote text
      ++ ", expected \"*\", \"user:<uid>\" or \"group:<gid>\""

namespace Entity

/-- Whether a caller belongs to the entity. -/
def matches? (e : Entity) (c : Caller) : Bool :=
  match e with
  | anyone => true
  | user id => id == c.uid
  | group id => id == c.gid

/-- The written form of an entity. -/
def text : Entity → String
  | anyone => "*"
  | user id => s!"user:{id.toNat}"
  | group id => s!"group:{id.toNat}"

/-- The entity in descriptions. -/
def word : Entity → String
  | anyone => "Any"
  | user id => s!"User({id.toNat})"
  | group id => s!"Group({id.toNat})"

/-- A text cut at its first colon. -/
def splitColon (cs : List Char) : Option (List Char × List Char) :=
  match cs.dropWhile (· ≠ ':') with
  | [] => none
  | _ :: after => some (cs.takeWhile (· ≠ ':'), after)

/-- Reads the number of a user or group; `whole` is the text to blame. -/
def readId (whole : String) (make : UInt32 → Entity) (cs : List Char) : Except EntityFault Entity :=
  match Text.word32? (Text.trim cs) with
  | some id => .ok (make id)
  | none => .error (.badId whole)

/-- Reads an entity; blanks around the whole and around a number do not matter. -/
def ofText (whole : String) : Except EntityFault Entity :=
  let cs := Text.trim whole.toList
  match splitColon cs with
  | none => if cs = ['*'] then .ok anyone else .error (.badForm whole)
  | some (kind, id) =>
    if kind = "user".toList then readId whole user id
    else if kind = "group".toList then readId whole group id
    else .error (.badForm whole)

end Entity

end KeyBroker
