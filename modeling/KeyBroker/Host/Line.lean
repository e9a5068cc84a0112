import KeyBroker.Config.Basic
import KeyBroker.Host.Tree
import KeyBroker.Link

/-! # Hosts and lines

On a host, servers share one broker, and clients reach them through sockets. A line is what a client
holds once it is connected. Servers number all connections that they accept, and a connection once
made outlives the socket and the server.
-/

namespace KeyBroker

/-- What the servers of a host share. -/
structure Service where
  /-- The broker. -/
  broker : Broker
  /-- As whom clients connect. -/
  caller : Caller
  /-- The random draws of each connection. -/
  draws : Nat → Draws

/-- A server. -/
structure Server where
  /-- The path of its socket. -/
  path : Path
  /-- Its limit on frames. -/
  limit : Nat
  /-- Whether it accepts connections. -/
  serving : Bool := false
  /-- Whether connections may still be made. -/
  listening : Bool := true
  /-- How many connections it has accepted. -/
  accepted : Nat := 0
  /-- How many connections it has yet to accept. -/
  pending : Nat := 0
  deriving DecidableEq, Repr

/-- A host. -/
structure Host where
  tree : Tree := {}
  /-- Every server there was, by its number. -/
  servers : List Server := []
  /-- How many connections there were. -/
  connected : Nat := 0
  deriving DecidableEq, Repr

/-- A client's end of a connection. -/
inductive Line where
  /-- To a session, with the limits of both ends and the number of the connection on the host. -/
  | session (link : Link) (limits : LinkLimits) (serial : Nat)
  /-- To a peer; `inbox` has yet to be read, and `closed` says that the peer is gone. -/
  | peer (inbox : Bytes) (closed : Bool) (limit : Nat)

namespace Line

/-- The events of accepting a connection. -/
def acceptance (conn : Nat) (caller : Caller) : List Event :=
  [.moved conn .listening .accepted, .moved conn .accepted .authenticating,
    .acceptedFrom conn caller, .moved conn .authenticating .ready]

/-- The events of the end of a connection. -/
def closure (conn : Nat) : Ending → List Event
  | .ok () => [.moved conn .ready .closed]
  | .error fault => [.connectionFault conn fault, .moved conn .ready .closed]

/-- Makes a call. Nothing is given when the client would wait for ever. -/
def call (w : Service) (call : Call) : Line → Option (Except Fault Value) × Line × List Event
  | session link limits serial =>
    let (result, after, events) := link.call w.broker (w.draws serial) limits call
    let ended :=
      match link.ending, after.ending with
      | none, some ending => closure link.session.connection.id ending
      | _, _ => []
    (result, session after limits serial, events ++ ended)
  | peer inbox closed limit =>
    match Client.frame limit call.request with
    | .error fault => (some (.error fault), peer inbox closed limit, [])
    | .ok _ =>
      if closed then (some (.error (.transport .brokenPipe)), peer inbox closed limit, [])
      else
        match Client.receive limit .waiting inbox with
        | none => (none, peer inbox closed limit, [])
        | some (.error fault, rest) => (some (.error fault), peer rest closed limit, [])
        | some (.ok body, rest) => (some (call.value body), peer rest closed limit, [])

/-- Closes a line. -/
def close (w : Service) : Line → List Event
  | session link limits serial =>
    match link.ending with
    | some _ => []
    | none =>
      let (ending, events) := link.finish w.broker (w.draws serial) limits
      events ++ closure link.session.connection.id ending
  | peer .. => []

end Line

/-- How a client connects. -/
structure ConnectOptions where
  /-- How often it tries; it tries once at least. -/
  attempts : Nat := 3
  /-- How long it waits for an answer, in milliseconds. -/
  timeout : Nat := 2000
  /-- Its limit on frames. -/
  limit : Nat := 1048576
  deriving DecidableEq, Repr

namespace Host

/-- Who answers on a path. -/
def listenerAt (h : Host) (path : Path) : Except SystemFault Listener :=
  match path.socketFault? with
  | some cause => .error cause
  | none =>
    match h.tree.find path with
    | .error cause => .error cause
    | .ok none => .error .noSuchFile
    | .ok (some (.socket _ .nobody)) => .error .connectionRefused
    | .ok (some (.socket _ listener)) => .ok listener
    | .ok (some _) => .error .connectionRefused

/-- A new connection to a server, which accepts it. The server serves it on a thread of its own, and
so serves whatever it can before the client goes on. -/
def accept (w : Service) (h : Host) (number : Nat) (s : Server) (limit : Nat) :
    Line × Host × List Event :=
  let conn := s.accepted + 1
  let link : Link := { session := { connection := { id := conn, caller := some w.caller } } }
  let limits : LinkLimits :=
    { client := limit, server := s.limit, writeFault := .brokenPipe,
      readFault := some .connectionReset, ahead := fun _ l => l.outbox.length }
  (.session link limits h.connected,
    { h with
      servers := h.servers.set number { s with accepted := conn }
      connected := h.connected + 1 },
    Line.acceptance conn w.caller)

/-- Pings over a new line, which is closed unless the ping succeeds. -/
def greet (w : Service) (o : ConnectOptions) (line : Line) : Except Fault Line × List Event :=
  if o.timeout = 0 then (.error (.unreachable (.noReply 0)), line.close w)
  else
    match line.call w .ping with
    | (some (.ok _), line, events) => (.ok line, events)
    | (some (.error fault), line, events) => (.error fault, events ++ line.close w)
    | (none, line, events) => (.error (.unreachable (.noReply o.timeout)), events ++ line.close w)

/-- Makes a connection to a peer and pings. A peer that closes does so once it was pinged. -/
def greetPeer (w : Service) (o : ConnectOptions) (p : Peer) : Except Fault Line × List Event :=
  if o.timeout = 0 then (.error (.unreachable (.noReply 0)), [])
  else if !p.closes then greet w o (.peer p.reply false o.limit)
  else
    match ({ inbox := p.reply } : ScriptedClient).call o.limit .ping with
    | (.ok _, c) => (.ok (.peer c.inbox true o.limit), [])
    | (.error fault, _) => (.error fault, [])

/-- Tries once to connect and ping. -/
def tryConnect (w : Service) (o : ConnectOptions) (path : Path) (h : Host) :
    Except Fault Line × Host × List Event :=
  match h.listenerAt path with
  | .error cause => (.error (.transport cause), h, [])
  | .ok .nobody => (.error (.transport .connectionRefused), h, [])
  | .ok (.peer p) =>
    let (result, events) := greetPeer w o p
    (result, h, events)
  | .ok (.server number) =>
    match h.servers[number]? with
    | none => (.error (.transport .connectionRefused), h, [])
    | some s =>
      if !s.listening then (.error (.transport .connectionRefused), h, [])
      else if !s.serving then
        (.error (.unreachable (.noReply o.timeout)),
          { h with servers := h.servers.set number { s with pending := s.pending + 1 } }, [])
      else
        let (line, h, events) := h.accept w number s o.limit
        let (result, more) := greet w o line
        (result, h, events ++ more)

/-- Tries to connect until it succeeds, `left` times at most; `last` is what went wrong before. -/
def connectFrom (w : Service) (o : ConnectOptions) (path : Path) (last : String) :
    (left : Nat) → Host → Except Fault Line × Host × List Event
  | 0, h => (.error (.unreachable (.noConnection path last)), h, [])
  | left + 1, h =>
    match h.tryConnect w o path with
    | (.ok line, h, events) => (.ok line, h, events)
    | (.error fault, h, events) =>
      let attempts := max o.attempts 1
      let failed := Event.attemptFailed (attempts - left) attempts path fault
      let (result, h, more) := connectFrom w o path fault.message left h
      (result, h, events ++ failed :: more)

/-- Connects. -/
def connect (w : Service) (o : ConnectOptions) (path : Path) (h : Host) :
    Except Fault Line × Host × List Event :=
  connectFrom w o path "" (max o.attempts 1) h

/-- Connects without a client, writes a stream and ends it, and reads what is answered. -/
def transmit (w : Service) (path : Path) (stream : Bytes) (h : Host) :
    Except Fault (List Bytes) × Host × List Event :=
  match h.listenerAt path with
  | .error cause => (.error (.transport cause), h, [])
  | .ok .nobody => (.error (.transport .connectionRefused), h, [])
  | .ok (.peer p) => (.ok (Frame.readAll UInt32.size p.reply).1, h, [])
  | .ok (.server number) =>
    match h.servers[number]? with
    | none => (.error (.transport .connectionRefused), h, [])
    | some s =>
      if !(s.listening && s.serving) then (.error (.transport .connectionRefused), h, [])
      else
        match h.accept w number s s.limit with
        | (.session link _ serial, h, events) =>
          let run := link.session.serve w.broker (w.draws serial) s.limit stream
          (.ok run.replies, h,
            events ++ run.events ++ Line.closure link.session.connection.id run.ending)
        | (_, h, events) => (.ok [], h, events)

end Host

end KeyBroker
