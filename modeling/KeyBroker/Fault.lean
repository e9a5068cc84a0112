import KeyBroker.Access.Policy
import KeyBroker.Operation
import KeyBroker.Path
import KeyBroker.Store.KeyStore
import KeyBroker.Wire.Codec

/-! # Faults

Everything that can go wrong, by the part of the broker that notices it. Each fault has a message,
and a class under which a response reports it.
-/

namespace KeyBroker

/-! ## Causes -/

/-- What the operating system, or a stream, refuses. -/
inductive SystemFault where
  | noSuchFile
  | noPermission
  | fileExists
  | notDirectory
  | isDirectory
  | brokenPipe
  | nameTooLong
  | noSuchDevice
  | addressInUse
  | connectionReset
  | connectionRefused
  | socketPathTooLong
  | nulInPath
  | nulInSocketPath
  | notText
  | endOfStream
  | streamClosed
  deriving DecidableEq, Repr

/-- The refusal in words. -/
def SystemFault.message : SystemFault → String
  | noSuchFile => "No such file or directory (os error 2)"
  | noPermission => "Permission denied (os error 13)"
  | fileExists => "File exists (os error 17)"
  | notDirectory => "Not a directory (os error 20)"
  | isDirectory => "Is a directory (os error 21)"
  | brokenPipe => "Broken pipe (os error 32)"
  | nameTooLong => "File name too long (os error 36)"
  | noSuchDevice => "No such device or address (os error 6)"
  | addressInUse => "Address already in use (os error 98)"
  | connectionReset => "Connection reset by peer (os error 104)"
  | connectionRefused => "Connection refused (os error 111)"
  | socketPathTooLong => "path must be shorter than SUN_LEN"
  | nulInPath => "file name contained an unexpected NUL byte"
  | nulInSocketPath => "paths must not contain interior null bytes"
  | notText => "stream did not contain valid UTF-8"
  | endOfStream => "early eof"
  | streamClosed => "broken pipe"

/-- Why no broker answers. -/
inductive Silence where
  | closed
  | noReply (milliseconds : Nat)
  | noConnection (path : Path) (last : String)
  deriving DecidableEq, Repr

/-- A span of time with its largest unit, without zeros at the end of its fraction. -/
def describeMilliseconds (n : Nat) : String :=
  if n = 0 then "0ns"
  else if n < 1000 then s!"{n}ms"
  else
    let digits := Nat.toDigits 10 (1000 + n % 1000)
    let fraction := ((digits.drop 1).reverse.dropWhile (· = '0')).reverse
    if fraction.isEmpty then s!"{n / 1000}s"
    else s!"{n / 1000}." ++ String.ofList fraction ++ "s"

/-- The reason in words. -/
def Silence.message : Silence → String
  | closed => "broker closed the connection"
  | noReply ms => "no ping reply within " ++ describeMilliseconds ms
  | noConnection path last => s!"{path.display}: {last}"

/-- What is wrong with a request. -/
inductive Malformation where
  | noSet (command : Command)
  | noSignature
  | undecodable (cause : Wire.DecodeFault)
  deriving DecidableEq, Repr

/-- The reason in words. -/
def Malformation.message : Malformation → String
  | noSet command => s!"{command.name} request without a key set name"
  | noSignature => "verify request without a signature"
  | undecodable cause => cause.message

/-- How the two ends of a stream fail to understand each other. -/
inductive ProtocolFault where
  | unknownKind (name : String)
  | oversized (size limit : Nat)
  | frameOverflow
  | emptySuccess
  | undecodable (cause : Wire.DecodeFault)
  | unexpected (command : Command) (body : Body)
  deriving DecidableEq, Repr

/-- The reason in words. -/
def ProtocolFault.message : ProtocolFault → String
  | unknownKind name => "unknown error kind " ++ Text.quote name
  | oversized size limit => s!"frame of {size} bytes exceeds limit of {limit}"
  | frameOverflow => "frame length overflows u32"
  | emptySuccess => "ok response without a result"
  | undecodable cause => s!"undecodable response: Malformed request: {cause.message}"
  | unexpected command body => s!"unexpected {command.name} result: {body.describe}"

/-- The fault of a body that is not written: it is longer than the limit, or than any frame. -/
def ProtocolFault.unwritable (size limit : Nat) : ProtocolFault :=
  if size > limit then oversized size limit else frameOverflow

/-- What is wrong with a configuration. -/
inductive ConfigFault where
  | reading (path : Path) (cause : SystemFault)
  | parsing (path : Path)
  | encoding
  | entity (cause : EntityFault)
  | grant (cause : GrantFault)
  | noSocketPath
  | badMode (mode : Nat)
  | badLimit (limit : Nat)
  | standardDisabled
  | notSocket (path : Path)
  | alreadyServed (path : Path)
  deriving DecidableEq, Repr

/-- The reason in words. -/
def ConfigFault.message : ConfigFault → String
  | reading path cause => s!"reading {path.display}: {cause.message}"
  | parsing path => s!"parsing {path.display}: no configuration"
  | encoding => "encoding config: no written form"
  | entity cause => cause.message
  | grant cause => cause.message
  | noSocketPath => "server.socket_path is empty"
  | badMode mode => "server.socket_mode " ++ Text.octal mode ++ " is not a permission mode"
  | badLimit limit => s!"server.max_frame_bytes {limit} is out of range"
  | standardDisabled => "the default algorithm cannot be disabled"
  | notSocket path => s!"{path.display} exists and is not a socket"
  | alreadyServed path => s!"another broker is already serving {path.display}"

/-- What is wrong with one version in a key store document. -/
inductive EntryFault where
  | badSecret
  | badPrivateKey
  | badPair (cause : PairFault)
  | needsSecret
  | needsPrivateKey
  deriving DecidableEq, Repr

/-- The reason in words. -/
def EntryFault.message : EntryFault → String
  | badSecret => "secret is not base64: bad symbol, length or padding"
  | badPrivateKey => "private_key is not base64: bad symbol, length or padding"
  | badPair cause => (KeyFault.badPair cause).message
  | needsSecret => "symmetric versions need exactly a secret"
  | needsPrivateKey => "asymmetric versions need exactly a private_key"

/-- What is wrong with a key store. -/
inductive StoreFault where
  | publish (cause : PublishFault)
  | reading (path : Path) (cause : SystemFault)
  | parsing (path : Path)
  | emptyName
  | setTwice (set : String)
  | versionZero (set : String)
  | versionTwice (set : String) (number : UInt32)
  | entry (set : String) (number : UInt32) (cause : EntryFault)
  deriving DecidableEq, Repr

/-- The reason in words. -/
def StoreFault.message : StoreFault → String
  | publish cause => cause.message
  | reading path cause => s!"reading {path.display}: {cause.message}"
  | parsing path => s!"parsing {path.display}: no key store document"
  | emptyName => "key set with an empty name"
  | setTwice set => s!"key set {set} is defined twice"
  | versionZero set => s!"{set}: versions start at 1"
  | versionTwice set number => s!"{set} v{number.toNat} is defined twice"
  | entry set number cause => s!"{set} v{number.toNat}: {cause.message}"

/-! ## Faults -/

/-- What goes wrong, by the part that notices it. -/
inductive Fault where
  | unreachable (cause : Silence)
  | denied (cause : Denial)
  | notFound (cause : Missing)
  | key (cause : KeyFault)
  | malformed (cause : Malformation)
  | protocol (cause : ProtocolFault)
  | config (cause : ConfigFault)
  | store (cause : StoreFault)
  | transport (cause : SystemFault)
  | remote (kind : FaultKind) (message : String)
  deriving DecidableEq, Repr

namespace Fault

/-- The class under which a fault is reported. -/
def kind : Fault → FaultKind
  | unreachable _ => .unreachable
  | denied _ => .denied
  | notFound _ => .notFound
  | key (.kindMismatch ..) => .kindMismatch
  | key (.unsupported _) => .unsupportedAlgorithm
  | key (.algorithm _) => .algorithmFailure
  | key (.badPair _) => .algorithmFailure
  | malformed _ => .malformed
  | protocol _ => .malformed
  | config _ => .algorithmFailure
  | store _ => .algorithmFailure
  | transport _ => .unreachable
  | remote kind _ => kind

/-- The fault in words. -/
def message : Fault → String
  | unreachable cause => s!"Broker unreachable: {cause.message}"
  | denied cause => s!"Permission denied: {cause.message}"
  | notFound cause => s!"Not found: {cause.message}"
  | key cause => cause.message
  | malformed cause => s!"Malformed request: {cause.message}"
  | protocol cause => s!"Protocol error: {cause.message}"
  | config cause => s!"Configuration error: {cause.message}"
  | store cause => s!"Key store error: {cause.message}"
  | transport cause => s!"Transport error: {cause.message}"
  | remote kind message => s!"{kind.name}: {message}"

end Fault

/-- The class of errors with a given name. -/
def FaultKind.ofName (name : String) : Except Fault FaultKind :=
  match ofName? name with
  | some k => .ok k
  | none => .error (.protocol (.unknownKind name))

namespace Response

/-- The response that reports a fault. -/
def ofFault (f : Fault) : Response := failure f.kind f.message

/-- What a response means to who asked: a result, or a fault of the other end. -/
def outcome (r : Response) : Except Fault Body :=
  match r.status with
  | .ok =>
    match r.result with
    | some body => .ok body
    | none => .error (.protocol .emptySuccess)
  | .error => .error (.remote (r.kind.getD .malformed) (r.message.getD ""))

end Response

end KeyBroker
