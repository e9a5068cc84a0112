import KeyBroker.Client
import KeyBroker.Session

/-! # A client joined to a session

A client and the session that serves it share one stream in each direction. Requests carry no
numbers, so an answer belongs to the call that reads it. The session runs beside the client: what
the client wrote is read when the session gets to it, and an answer is written whether or not the
client is still there to read it.
Main statement: a step of the session leaves it less to read.
-/

namespace KeyBroker

/-- A client joined to a session. -/
structure Link where
  /-- The session at the server's end. -/
  session : Session
  /-- How the session ended, once it has. -/
  ending : Option Ending := none
  /-- What the client wrote and the session has yet to read, or left unread when it ended. -/
  outbox : Bytes := []
  /-- What the session wrote and the client has yet to read. -/
  inbox : Bytes := []
  deriving Repr

/-- The limits of the two ends, what either finds once the other is gone, and how the session keeps
up with the client. -/
structure LinkLimits where
  /-- The client's limit on frames. -/
  client : Nat
  /-- The server's limit on frames. -/
  server : Nat
  /-- The fault of writing to an end that is gone. -/
  writeFault : SystemFault := .streamClosed
  /-- The fault of reading from an end that left something unread, if that is a fault. -/
  readFault : Option SystemFault := none
  /-- How many requests the session serves, of those that are pending once a call has its answer,
  before the next call. The number of requests sent grows with every call that is sent, so a
  function of the link is as good as any schedule. On one thread the session runs when the client
  waits, and then for as long as it has requests to read. -/
  ahead : (waited : Bool) → Link → Nat := fun waited l => if waited then l.outbox.length else 0

namespace Link

/-! ## The session's part -/

/-- The session's next step: it reads a request and writes the answer, or ends. Nothing is given
when it is over, or waits for a request. -/
def advance (b : Broker) (draws : Draws) (limit : Nat) (l : Link) : Option (Link × List Event) :=
  if l.ending.isSome then none
  else
    match Frame.read limit l.outbox with
    | .body body rest =>
      match l.session.reply b draws limit body with
      | (.ok out, after, events) =>
        some ({ l with session := after, outbox := rest, inbox := l.inbox ++ Frame.wrap out },
          events)
      | (.error fault, after, events) =>
        some ({ l with session := after, outbox := rest, ending := some (.error fault) }, events)
    | .oversized size rest =>
      some ({ l with outbox := rest, ending := some (.error (Session.oversized size limit)) }, [])
    | .cut | .closed => none

/-- A step takes something off what the client wrote. -/
theorem outbox_lt_of_advance {b : Broker} {draws : Draws} {limit : Nat} {l next : Link}
    {events : List Event} (h : l.advance b draws limit = some (next, events)) :
    next.outbox.length < l.outbox.length := by
  unfold advance at h
  split at h
  · cases h
  · split at h
    · next body rest hread =>
      have hrest := Frame.rest_lt_of_read hread
      -- whether the answer can be sent makes no difference to what is left
      split at h
      all_goals
        injection h with h
        injection h with hnext
        subst hnext
        exact hrest
    · next size rest hread =>
      injection h with h
      injection h with hnext
      subst hnext
      exact Frame.rest_lt_of_oversized hread
    · cases h
    · cases h

/-- The session's next `n` steps, or as many as there are. -/
def serve (b : Broker) (draws : Draws) (limit : Nat) : (n : Nat) → Link → Link × List Event
  | 0, l => (l, [])
  | n + 1, l =>
    match l.advance b draws limit with
    | none => (l, [])
    | some (next, events) =>
      let (after, more) := serve b draws limit n next
      (after, events ++ more)

/-! ## Calls -/

/-- What comes behind the bytes that the client has to read. -/
def tail (limits : LinkLimits) (l : Link) : Client.Tail :=
  match l.ending, l.outbox, limits.readFault with
  | none, _, _ => .waiting
  | some _, _ :: _, some cause => .broken cause
  | some _, _, _ => .ended

/-- Reads an answer. As long as the client waits, the session takes its steps. Nothing is given when
both wait. -/
def await (b : Broker) (draws : Draws) (limits : LinkLimits) (l : Link) :
    Option (Except Fault Body) × Link × List Event :=
  match Client.receive limits.client (l.tail limits) l.inbox with
  | some (result, rest) => (some result, { l with inbox := rest }, [])
  | none =>
    match h : l.advance b draws limits.server with
    | none => (none, l, [])
    | some (next, events) =>
      have := outbox_lt_of_advance h
      let (result, after, more) := next.await b draws limits
      (result, after, events ++ more)
termination_by l.outbox.length

/-- Sends a request and reads an answer. Then the session may get ahead. -/
def exchange (b : Broker) (draws : Draws) (limits : LinkLimits) (l : Link) (r : Request) :
    Option (Except Fault Body) × Link × List Event :=
  match Client.frame limits.client r with
  | .error fault => (some (.error fault), l, [])
  | .ok frame =>
    if l.ending.isSome then (some (.error (.transport limits.writeFault)), l, [])
    else
      let sent := { l with outbox := l.outbox ++ frame }
      let waits := (Client.receive limits.client (sent.tail limits) sent.inbox).isNone
      let (result, after, events) := sent.await b draws limits
      let (after, more) := after.serve b draws limits.server (limits.ahead waits after)
      (result, after, events ++ more)

/-- Makes one call. -/
def call (b : Broker) (draws : Draws) (limits : LinkLimits) (l : Link) (call : Call) :
    Option (Except Fault Value) × Link × List Event :=
  match l.exchange b draws limits call.request with
  | (some (.ok body), l, events) => (some (call.value body), l, events)
  | (some (.error fault), l, events) => (some (.error fault), l, events)
  | (none, l, events) => (none, l, events)

/-- Makes calls in order. -/
def run (b : Broker) (draws : Draws) (limits : LinkLimits) (l : Link) :
    List Call → List (Option (Except Fault Value)) × Link × List Event
  | [] => ([], l, [])
  | c :: rest =>
    let (result, l, events) := l.call b draws limits c
    let (results, l, more) := run b draws limits l rest
    (result :: results, l, events ++ more)

/-! ## The end -/

/-- How the session ends once the client is gone. It serves a request that is pending, but the
answer finds nobody, and no other request is read. -/
def finish (b : Broker) (draws : Draws) (limits : LinkLimits) (l : Link) : Ending × List Event :=
  match l.ending, l.advance b draws limits.server with
  | some ending, _ => (ending, [])
  | none, some (after, events) =>
    (after.ending.getD (.error (.transport limits.writeFault)), events)
  | none, none =>
    match l.inbox, limits.readFault with
    | _ :: _, some cause => (.error (.transport cause), [])
    | _, _ => (Session.endingOf limits.server (Frame.read limits.server l.outbox), [])

end Link

end KeyBroker
