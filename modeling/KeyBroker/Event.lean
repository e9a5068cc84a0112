import KeyBroker.Fault

/-! # Events and records

What a broker does, as data: every question to the gate, every reading of a key, every decision. An
event may leave a record, which has a level, a topic and a text. The decisions about keys go to the
audit topic.
-/

namespace KeyBroker

/-- How much a record matters. -/
inductive Level where
  | debug
  | info
  | warn
  | error
  deriving DecidableEq, Repr

/-- The level in the log. -/
def Level.name : Level → String
  | debug => "DEBUG"
  | info => "INFO"
  | warn => "WARN"
  | error => "ERROR"

/-- A line of the log. -/
structure Record where
  /-- How much it matters. -/
  level : Level
  /-- The part of the program it comes from. -/
  topic : String
  /-- What happened. -/
  text : String
  deriving DecidableEq, Repr

/-- The topics under which records are filed. -/
inductive Topic where
  | audit
  | permission
  | broker
  | server
  | client
  | storeFile
  | program
  deriving DecidableEq, Repr

/-- The topic in the log. -/
def Topic.name : Topic → String
  | audit => "custody::audit"
  | permission => "custody_kbs::permission"
  | broker => "custody_kbs::broker"
  | server => "custody_kbs::server"
  | client => "custody_kbs::client"
  | storeFile => "custody_kbs::keystore::file"
  | program => "custodyd"

/-- The stages in the life of a connection to a server. -/
inductive Stage where
  | listening
  | accepted
  | authenticating
  | ready
  | closed
  deriving DecidableEq, Repr

/-- The stage in the log. -/
def Stage.word : Stage → String
  | listening => "Listening"
  | accepted => "Accepted"
  | authenticating => "Authenticating"
  | ready => "Ready"
  | closed => "Closed"

/-- Who made a request, in records. -/
def describeCaller : Option Caller → String
  | some c => c.describe
  | none => "unauthenticated"

/-- What happens. -/
inductive Event where
  | pinged (conn : Nat)
  | gateAsked (caller : Caller) (set : String) (answer : Option Capability)
  | keyRead (set : String) (selector : Selector)
  | granted (conn : Nat) (caller : Caller) (command : Command) (set : String) (version : UInt32)
      (capability : Capability)
  | refused (conn : Nat) (caller : Option Caller) (command : Command) (set : String)
      (selector : Selector) (fault : Fault)
  | undecodable (conn : Nat) (cause : Wire.DecodeFault)
  | published (p : Publication)
  | exposedStore (path : Path) (mode : Nat)
  | loadedStore (count : Nat) (path : Path)
  | staleSocket (path : Path)
  | bound (path : Path) (mode : Nat)
  | serving
  | stopping (path : Path)
  | removalFailed (path : Path) (cause : SystemFault)
  | moved (conn : Nat) (before after : Stage)
  | acceptedFrom (conn : Nat) (caller : Caller)
  | connectionFault (conn : Nat) (fault : Fault)
  | attemptFailed (attempt attempts : Nat) (path : Path) (fault : Fault)
  | started (version : String)
  | setsNamed (names : List String)
  | grantsCounted (count : Nat)
  | checked
  deriving DecidableEq, Repr

namespace Event

/-- The record an event leaves in the log, if any. -/
def record? : Event → Option Record
  | pinged conn => entry .debug .broker s!"conn#{conn} ping"
  | gateAsked caller set answer =>
    entry .debug .permission
      s!"capability of {caller.describe} on {set}: {describeOption (answer.map Capability.word)}"
  | keyRead _ _ => none
  | granted conn caller command set version capability =>
    entry .info .audit
      (s!"conn#{conn} {caller.describe} {command.name} {set} v{version.toNat} granted "
        ++ s!"({capability.word})")
  | refused conn caller command set selector fault =>
    entry .warn .audit
      (s!"conn#{conn} {describeCaller caller} {command.name} {set} {selector.describe}: "
        ++ fault.message)
  | undecodable conn cause =>
    entry .warn .server
      s!"conn#{conn} undecodable request: {(Fault.malformed (.undecodable cause)).message}"
  | published p => entry .info .audit s!"published {p.set} v{p.number.toNat} ({p.kind.name})"
  | exposedStore path mode =>
    entry .warn .storeFile
      ("key store " ++ path.display ++ " is accessible to group or others (mode "
        ++ Text.octal mode ++ ")")
  | loadedStore count path =>
    entry .info .storeFile s!"Loaded {count} key set(s) from {path.display}"
  | staleSocket path => entry .info .server s!"Removing stale socket {path.display}"
  | bound path mode =>
    entry .info .server
      ("Broker listening on " ++ path.display ++ " (mode " ++ Text.octal mode ++ ")")
  | serving => entry .debug .server Stage.listening.word
  | stopping path => entry .info .server s!"Shutting down broker on {path.display}"
  | removalFailed path cause =>
    entry .warn .server s!"Could not remove {path.display}: {cause.message}"
  | moved conn before after => entry .debug .server s!"conn#{conn} {before.word} -> {after.word}"
  | acceptedFrom conn caller => entry .info .server s!"conn#{conn} accepted from {caller.describe}"
  | connectionFault conn fault =>
    entry .warn .server s!"conn#{conn} closed on transport error: {fault.message}"
  | attemptFailed attempt attempts path fault =>
    entry .debug .client
      s!"connect attempt {attempt}/{attempts} to {path.display} failed: {fault.message}"
  | started version => entry .info .program s!"Starting custodyd v{version}"
  | setsNamed names => entry .info .program ("Key sets: " ++ ", ".intercalate names)
  | grantsCounted count => entry .info .program s!"{count} grant(s) configured"
  | checked => entry .info .program "Configuration OK"
where
  /-- A record under a topic. -/
  entry (level : Level) (topic : Topic) (text : String) : Option Record :=
    some ⟨level, topic.name, text⟩

/-- Whether the event is a question to the gate. -/
def isGateAsked : Event → Bool
  | gateAsked .. => true
  | _ => false

/-- Whether the event is a reading of a key. -/
def isKeyRead : Event → Bool
  | keyRead .. => true
  | _ => false

end Event

/-- The records that events leave, in order. -/
def records (events : List Event) : List Record := events.filterMap Event.record?

end KeyBroker
