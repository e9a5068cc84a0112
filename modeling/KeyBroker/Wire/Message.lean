import KeyBroker.Algorithm
import KeyBroker.Bytes

/-! # Messages

A request names a command, a key set and a version, and carries a payload; a response carries a
result or an error. Descriptions of messages show the sizes of payloads and hide keys.
-/

namespace KeyBroker

/-- What a request asks for. -/
inductive Command where
  | ping
  | operate (op : Operation)
  | retrieve
  deriving DecidableEq, Repr

namespace Command

/-- Every command, in the order of the wire. -/
def all : List Command :=
  [ping, operate .encrypt, operate .decrypt, operate .hmac, operate .sign, operate .verify,
    retrieve]

/-- The command in records and messages. -/
def name : Command → String
  | ping => "ping"
  | operate op => op.name
  | retrieve => "retrieve"

/-- The command in descriptions. -/
def word : Command → String
  | ping => "Ping"
  | operate op => op.word
  | retrieve => "Retrieve"

/-- Whether the command uses a key without showing it. -/
def isOperate : Command → Bool
  | operate _ => true
  | _ => false

end Command

/-- A request. Version zero means the latest; `aux` is the signature to be verified. -/
structure Request where
  command : Command
  set : String := ""
  version : UInt32 := 0
  algorithm : Option UInt32 := none
  payload : Bytes := []
  aux : Option Bytes := none
  deriving DecidableEq, Repr

/-- The description of a value that may be absent. -/
def describeOption : Option String → String
  | none => "None"
  | some s => s!"Some({s})"

/-- The request that only asks whether someone answers. -/
def Request.ping : Request where
  command := .ping

/-- The description of a request. -/
def Request.describe (r : Request) : String :=
  "Request \x7b operation: " ++ r.command.word
    ++ ", set_name: " ++ Text.quote r.set
    ++ ", version: " ++ toString r.version.toNat
    ++ ", algorithm: " ++ describeOption (r.algorithm.map fun n => toString n.toNat)
    ++ ", payload_len: " ++ toString r.payload.length
    ++ ", aux_len: " ++ describeOption (r.aux.map fun b => toString b.length) ++ " \x7d"

/-- What a successful response carries. -/
inductive Body where
  | bytes (b : Bytes)
  | verdict (valid : Bool)
  | secretKey (version : UInt32) (secret : Bytes)
  | keyPair (version : UInt32) (publicBytes privateBytes : Bytes)
  deriving DecidableEq, Repr

/-- The description of a result. -/
def Body.describe : Body → String
  | bytes b => s!"Bytes({b.length} bytes)"
  | verdict valid => s!"Bool({valid})"
  | secretKey version _ =>
    "SymmetricKey \x7b version: " ++ toString version.toNat ++ ", secret: [REDACTED] \x7d"
  | keyPair version _ _ =>
    "KeyPair \x7b version: " ++ toString version.toNat ++ ", private_der: [REDACTED] \x7d"

/-- The classes of errors, sent by name. -/
inductive FaultKind where
  | unreachable
  | denied
  | notFound
  | kindMismatch
  | unsupportedAlgorithm
  | algorithmFailure
  | malformed
  deriving DecidableEq, Repr

namespace FaultKind

/-- Every class of errors. -/
def all : List FaultKind :=
  [unreachable, denied, notFound, kindMismatch, unsupportedAlgorithm, algorithmFailure, malformed]

/-- The name of a class on the wire. -/
def name : FaultKind → String
  | unreachable => "unreachable"
  | denied => "denied"
  | notFound => "not_found"
  | kindMismatch => "kind_mismatch"
  | unsupportedAlgorithm => "unsupported_algorithm"
  | algorithmFailure => "algorithm_failure"
  | malformed => "malformed"

/-- The class in descriptions. -/
def word : FaultKind → String
  | unreachable => "Unreachable"
  | denied => "Denied"
  | notFound => "NotFound"
  | kindMismatch => "KindMismatch"
  | unsupportedAlgorithm => "UnsupportedAlgorithm"
  | algorithmFailure => "AlgorithmFailure"
  | malformed => "Malformed"

/-- The class with a given name. -/
def ofName? (name : String) : Option FaultKind := all.find? (·.name == name)

theorem ofName?_name (k : FaultKind) : ofName? k.name = some k := by cases k <;> rfl

end FaultKind

/-- Whether a response reports success. -/
inductive Status where
  | ok
  | error
  deriving DecidableEq, Repr

/-- The status in descriptions. -/
def Status.word : Status → String
  | ok => "Ok"
  | error => "Error"

/-- A response. The wire admits any combination of its parts. -/
structure Response where
  status : Status
  result : Option Body := none
  kind : Option FaultKind := none
  message : Option String := none
  deriving DecidableEq, Repr

namespace Response

/-- The response that carries a result. -/
def success (body : Body) : Response where
  status := .ok
  result := some body

/-- The response that reports an error. -/
def failure (kind : FaultKind) (message : String) : Response where
  status := .error
  kind := some kind
  message := some message

/-- The description of a response. -/
def describe (r : Response) : String :=
  "Response \x7b status: " ++ r.status.word
    ++ ", result: " ++ describeOption (r.result.map Body.describe)
    ++ ", error_kind: " ++ describeOption (r.kind.map FaultKind.word)
    ++ ", message: " ++ describeOption (r.message.map Text.quote) ++ " \x7d"

end Response

end KeyBroker
