import KeyBroker.Broker
import KeyBroker.Wire.Frame

/-! # Serving a connection

A session takes request bodies off its connection and writes one response body for each. A body that
is no request is answered too, and so is a request whose response is too long for a frame: by a
notice of its true length. Only when not even the notice fits does the session end.
-/

namespace KeyBroker

/-- A source of random draws. -/
abbrev Draws := Nat → Draw

/-- A connection being served. -/
structure Session where
  /-- The connection. -/
  connection : Connection
  /-- How many requests were handled, which is how many draws are used up. -/
  handled : Nat := 0
  deriving DecidableEq, Repr

/-- How the serving of a connection ends. -/
abbrev Ending := Except Fault Unit

namespace Session

/-- Answers a body, before looking at the length of the answer. -/
def answer (b : Broker) (draws : Draws) (s : Session) (body : Bytes) :
    Response × Session × List Event :=
  match Wire.decode Wire.request body with
  | .ok r =>
    let a := b.handle (draws s.handled) s.connection r
    (a.response, ⟨a.connection, s.handled + 1⟩, a.events)
  | .error cause =>
    (.ofFault (.malformed (.undecodable cause)), s, [.undecodable s.connection.id cause])

/-- The notice in place of a response that is too long. -/
def notice (size : Nat) : Response :=
  .failure .malformed s!"response of {size} bytes exceeds the frame limit"

/-- The body that is sent for a response: its own, or the notice. -/
def fitted (limit : Nat) (r : Response) : Bytes :=
  let body := Wire.encode Wire.response r
  if body.length > limit then Wire.encode Wire.response (notice body.length) else body

/-- The fault of announcing a body that is too long. -/
def oversized (size limit : Nat) : Fault := .protocol (.oversized size limit)

/-- Answers a body by a body, or ends when none can be sent. -/
def reply (b : Broker) (draws : Draws) (limit : Nat) (s : Session) (body : Bytes) :
    Except Fault Bytes × Session × List Event :=
  let (r, after, events) := s.answer b draws body
  let out := fitted limit r
  match Frame.write limit out with
  | some _ => (.ok out, after, events)
  | none => (.error (.protocol (.unwritable out.length limit)), after, events)

/-- What serving gives. -/
structure Run where
  /-- The bodies written, in order. -/
  replies : List Bytes
  /-- How it ended. -/
  ending : Ending
  /-- The session afterwards. -/
  session : Session
  /-- What happened, in order. -/
  events : List Event

/-- Answers bodies in order; `last` is what follows when all are answered. -/
def run (b : Broker) (draws : Draws) (limit : Nat) (last : Ending) (s : Session) :
    List Bytes → Run
  | [] => ⟨[], last, s, []⟩
  | body :: rest =>
    match s.reply b draws limit body with
    | (.error fault, after, events) => ⟨[], .error fault, after, events⟩
    | (.ok out, after, events) =>
      let next := run b draws limit last after rest
      ⟨out :: next.replies, next.ending, next.session, events ++ next.events⟩

/-- What the end of a stream means to who reads it. -/
def endingOf (limit : Nat) : Frame.Reading → Ending
  | .oversized size _ => .error (oversized size limit)
  | .cut => .error (.transport .endOfStream)
  | .closed | .body _ _ => .ok ()

/-- Serves a whole stream. -/
def serve (b : Broker) (draws : Draws) (limit : Nat) (s : Session) (stream : Bytes) : Run :=
  let (bodies, last) := Frame.readAll limit stream
  s.run b draws limit (endingOf limit last) bodies

end Session

end KeyBroker
