import KeyBroker.Event

/-! # The broker

A request for a key passes four stages: the gate decides whether the caller may do what it asks, the
key is read from the store, the registry resolves the algorithm, and the operation runs. The first
stage that fails decides the response. A connection remembers the capabilities that the gate granted
on it, up to a bound, and asks the gate only for other sets.
-/

namespace KeyBroker

/-! ### Connections -/

/-- How many granted capabilities a connection remembers. -/
def maxRemembered : Nat := 256

/-- A connection. -/
structure Connection where
  /-- Its number in records. -/
  id : Nat
  /-- Who is at the other end, if known. -/
  caller : Option Caller
  /-- The capabilities granted so far, by set. -/
  remembered : List (String × Capability) := []
  deriving DecidableEq, Repr

namespace Connection

/-- The capability remembered for a set. -/
def known? (c : Connection) (set : String) : Option Capability := c.remembered.lookup set

/-- Remembers an answer of the gate, if it grants something and there is room. -/
def remember (c : Connection) (set : String) : Option Capability → Connection
  | some capability =>
    if c.remembered.length < maxRemembered then
      { c with remembered := (set, capability) :: c.remembered }
    else c
  | none => c

end Connection

/-! ### Brokers -/

/-- A broker. -/
structure Broker where
  /-- The keys. -/
  store : KeyStore
  /-- Who may do what. -/
  gate : Gate
  /-- The algorithms on offer. -/
  registry : Registry

/-- The action that a command needs permission for. -/
def Command.action : Command → Action
  | retrieve => .retrieve
  | _ => .operate

/-- A key on its way out. -/
def KeyVersion.body (v : KeyVersion) : Except Fault Body :=
  match v.material with
  | .secret bytes => .ok (.secretKey v.number bytes)
  | .pair k =>
    match k.privateBytes with
    | .ok privateBytes => .ok (.keyPair v.number k.publicBytes privateBytes)
    | .error cause => .error (.key (.badPair cause))

/-- The result of an operation as the result of a request. -/
def Outcome.body : Outcome → Body
  | bytes b => .bytes b
  | verdict valid => .verdict valid

/-- What handling a request gives. -/
structure Answer where
  /-- What the caller gets. -/
  response : Response
  /-- The connection afterwards. -/
  connection : Connection
  /-- What happened, in order. -/
  events : List Event
  deriving DecidableEq, Repr

namespace Broker

/-- The capability of a caller on a set: the remembered one, or else what the gate answers. -/
def consult (b : Broker) (c : Connection) (caller : Caller) (set : String) :
    Option Capability × Connection × List Event :=
  match c.known? set with
  | some capability => (some capability, c, [])
  | none =>
    let answer := b.gate caller set
    (answer, c.remember set answer, [.gateAsked caller set answer])

/-- Runs an operation with a key that was read. -/
def operate (b : Broker) (draw : Draw) (op : Operation) (v : KeyVersion) (r : Request) :
    Except Fault Body :=
  match b.registry.resolve op r.algorithm with
  | .error cause => .error (.key (.unsupported cause))
  | .ok primitive =>
    if op = .verify ∧ r.aux = none then .error (.malformed .noSignature)
    else
      match op.run primitive v.material draw r.payload r.aux with
      | .ok outcome => .ok outcome.body
      | .error cause => .error (.key cause)

/-- What a permitted request does with the key it is for. -/
def useKey (b : Broker) (draw : Draw) (v : KeyVersion) (r : Request) : Except Fault Body :=
  match r.command with
  | .operate op => b.operate draw op v r
  | .ping | .retrieve => v.body

/-- Decides whether a caller may do something with a set: by the remembered capability, or else by
the gate. -/
def authorize (b : Broker) (c : Connection) (caller : Caller) (set : String) (action : Action) :
    Except Denial Capability × Connection × List Event :=
  let (held, c, asked) := b.consult c caller set
  (Capability.judge caller set action held, c, asked)

/-- Does what a permitted request asks: reads its key and uses it. -/
def fulfil (b : Broker) (draw : Draw) (conn : Nat) (caller : Caller) (capability : Capability)
    (r : Request) : Except Fault Body × List Event :=
  let selector := Selector.ofNumber r.version
  let read := Event.keyRead r.set selector
  match b.store.get r.set selector with
  | .error missing => (.error (.notFound missing), [read])
  | .ok v =>
    (b.useKey draw v r, [read, .granted conn caller r.command r.set v.number capability])

/-- Handles a request for a key from a known caller. -/
def serveCaller (b : Broker) (draw : Draw) (c : Connection) (caller : Caller) (r : Request) :
    Except Fault Body × Connection × List Event :=
  match b.authorize c caller r.set r.command.action with
  | (.error denial, c, asked) => (.error (.denied denial), c, asked)
  | (.ok capability, c, asked) =>
    let (result, events) := b.fulfil draw c.id caller capability r
    (result, c, asked ++ events)

/-- Handles a request, up to the form of the response. -/
def serve (b : Broker) (draw : Draw) (c : Connection) (r : Request) :
    Except Fault Body × Connection × List Event :=
  match r.command with
  | .ping => (.ok (.verdict true), c, [.pinged c.id])
  | command =>
    match c.caller with
    | none => (.error (.denied .unauthenticated), c, [])
    | some caller =>
      if r.set = "" then (.error (.malformed (.noSet command)), c, [])
      else b.serveCaller draw c caller r

/-- Handles a request. A fault is reported to the caller and recorded. -/
def handle (b : Broker) (draw : Draw) (c : Connection) (r : Request) : Answer :=
  match b.serve draw c r with
  | (.ok body, after, events) => ⟨.success body, after, events⟩
  | (.error fault, after, events) =>
    let refused := Event.refused c.id c.caller r.command r.set (Selector.ofNumber r.version) fault
    ⟨.ofFault fault, after, events ++ [refused]⟩

end Broker

end KeyBroker
