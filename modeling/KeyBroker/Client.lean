import KeyBroker.Fault
import KeyBroker.Wire.Frame

/-! # Clients

A client turns a call into one request, sends it as one frame, and reads one frame for the answer.
It sends a request at most once, and a request that is too long for a frame not at all.
-/

namespace KeyBroker

/-- What a program asks of a broker through a client. -/
inductive Call where
  | ping
  | operate (op : Operation) (set : String) (version : UInt32) (algorithm : Option Algorithm)
      (data : Bytes) (signature : Option Bytes)
  | retrieve (set : String) (version : UInt32)
  | send (r : Request)
  deriving DecidableEq, Repr

/-- A key that left the broker. -/
structure RetrievedKey where
  version : UInt32
  material : KeyMaterial
  deriving DecidableEq

/-- The description of a key that left the broker. -/
def RetrievedKey.describe (k : RetrievedKey) : String :=
  match k.material with
  | .secret bytes =>
    "Symmetric \x7b version: " ++ toString k.version.toNat ++ ", secret: "
      ++ describeSecret bytes ++ " \x7d"
  | .pair pair =>
    "Asymmetric \x7b version: " ++ toString k.version.toNat ++ ", pair: " ++ pair.describe
      ++ " \x7d"

/-- What a call gives. -/
inductive Value where
  | pong
  | bytes (b : Bytes)
  | verdict (valid : Bool)
  | key (k : RetrievedKey)
  | body (b : Body)
  deriving DecidableEq

namespace Call

/-- The request that a call sends. -/
def request : Call → Request
  | ping => .ping
  | operate op set version algorithm data signature =>
    ⟨.operate op, set, version, algorithm.map Algorithm.ordinal, data, signature⟩
  | retrieve set version => ⟨.retrieve, set, version, none, [], none⟩
  | send r => r

/-- What a call makes of the result it gets. -/
def value (call : Call) (body : Body) : Except Fault Value :=
  match call, body with
  | ping, .verdict true => .ok .pong
  | operate .verify .., .verdict valid => .ok (.verdict valid)
  | operate .verify .., other => unexpected other
  | operate .., .bytes b => .ok (.bytes b)
  | retrieve .., .secretKey version secret => .ok (.key ⟨version, .secret secret⟩)
  | retrieve .., .keyPair version _ privateBytes =>
    match KeyPair.ofBytes privateBytes with
    | .ok pair => .ok (.key ⟨version, .pair pair⟩)
    | .error cause => .error (.key (.badPair cause))
  | send _, body => .ok (.body body)
  | _, other => unexpected other
where
  /-- The fault of a result that no such call can have. -/
  unexpected (other : Body) : Except Fault Value :=
    .error (.protocol (.unexpected call.request.command other))

end Call

namespace Client

/-- The frame of a request, unless it is too long. -/
def frame (limit : Nat) (r : Request) : Except Fault Bytes :=
  let body := Wire.encode Wire.request r
  match Frame.write limit body with
  | some bytes => .ok bytes
  | none => .error (.protocol (.unwritable body.length limit))

/-- What an answer means. -/
def outcome (body : Bytes) : Except Fault Body :=
  match Wire.decode Wire.response body with
  | .ok r => r.outcome
  | .error cause => .error (.protocol (.undecodable cause))

/-- What comes behind the bytes that are there to be read. -/
inductive Tail where
  /-- More bytes, perhaps. -/
  | waiting
  /-- The end of the stream. -/
  | ended
  /-- A refusal. -/
  | broken (cause : SystemFault)
  deriving DecidableEq, Repr

/-- Reads an answer off a stream. Nothing is given when the client waits for more. A refused body
stays on the stream. -/
def receive (limit : Nat) (tail : Tail) (stream : Bytes) : Option (Except Fault Body × Bytes) :=
  match Frame.read limit stream, tail with
  | .body b rest, _ => some (outcome b, rest)
  | .oversized size rest, _ => some (.error (.protocol (.oversized size limit)), rest)
  | _, .waiting => none
  | _, .broken cause => some (.error (.transport cause), [])
  | .closed, .ended => some (.error (.unreachable .closed), [])
  | .cut, .ended => some (.error (.transport .endOfStream), [])

end Client

/-! ### A scripted peer -/

/-- A client at whose other end a fixed stream was written and then ended. -/
structure ScriptedClient where
  /-- What the client has yet to read. -/
  inbox : Bytes
  /-- What the client wrote so far. -/
  sent : Bytes := []

/-- Makes one call to a scripted peer. -/
def ScriptedClient.call (limit : Nat) (c : ScriptedClient) (call : Call) :
    Except Fault Value × ScriptedClient :=
  match Client.frame limit call.request with
  | .error fault => (.error fault, c)
  | .ok frame =>
    let sent := c.sent ++ frame
    match Client.receive limit .ended c.inbox with
    | none => (.error (.unreachable .closed), ⟨[], sent⟩)
    | some (.error fault, rest) => (.error fault, ⟨rest, sent⟩)
    | some (.ok body, rest) => (call.value body, ⟨rest, sent⟩)

end KeyBroker
