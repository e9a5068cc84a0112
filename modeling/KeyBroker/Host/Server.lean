import KeyBroker.Host.Line

/-! # Servers on a host

A server binds its path, serves, and stops. It binds a path on which something stands only if that
is a socket on which no broker answers a ping; it then takes the socket for stale and replaces it.
When it stops, it removes what its path leads to at that moment.
-/

namespace KeyBroker.Host

/-- How a server asks whether a broker answers on its path. -/
def probeOptions (c : ServerConfig) : ConnectOptions :=
  { attempts := 1, timeout := c.probeTimeout.toNat }

/-- Clears the path of a new server: nothing may stand there but a socket on which no broker
answers, and that is removed. -/
def clear (w : Service) (c : ServerConfig) (h : Host) : Except Fault Unit × Host × List Event :=
  let path := c.socketPath
  match h.tree.find path with
  | .ok (some (.socket ..)) =>
    match h.connect w (probeOptions c) path with
    | (.ok line, h, events) => (.error (.config (.alreadyServed path)), h, events ++ line.close w)
    | (.error _, h, events) =>
      match h.tree.remove path with
      | (.error cause, tree) =>
        (.error (.transport cause), { h with tree }, events ++ [.staleSocket path])
      | (.ok (), tree) => (.ok (), { h with tree }, events ++ [.staleSocket path])
  | .ok (some _) => (.error (.config (.notSocket path)), h, [])
  | .ok none | .error _ => (.ok (), h, [])

/-- Puts the socket of a new server at its path. -/
def place (c : ServerConfig) (h : Host) : Except Fault Nat × Host × List Event :=
  let path := c.socketPath
  match h.tree.makeParents path with
  | (.error cause, tree) => (.error (.transport cause), { h with tree }, [])
  | (.ok (), tree) =>
    let h := { h with tree }
    match path.socketFault? with
    | some cause => (.error (.transport cause), h, [])
    | none =>
      match tree.resolve path with
      | .error cause => (.error (.transport cause), h, [])
      | .ok spot =>
        match tree.atPlace spot with
        | some _ => (.error (.transport .addressInUse), h, [])
        | none =>
          let number := h.servers.length
          let mode := c.socketMode.toNat
          (.ok number,
            { h with
              tree := tree.put spot (.socket (mode % 512) (.server number))
              servers := h.servers ++ [{ path := path, limit := c.frameLimit.toNat }] },
            [.bound path mode])

/-- Binds a server to its path and gives its number. It does not accept connections yet. -/
def bind (w : Service) (c : ServerConfig) (h : Host) : Except Fault Nat × Host × List Event :=
  match h.clear w c with
  | (.error fault, h, events) => (.error fault, h, events)
  | (.ok (), h, events) =>
    let (result, h, more) := h.place c
    (result, h, events ++ more)

/-- Accepts the connections that wait, whose clients are gone. -/
def acceptPending (w : Service) (first : Nat) : Nat → List Event
  | 0 => []
  | n + 1 =>
    Line.acceptance first w.caller ++ Line.closure first (.ok ()) ++ acceptPending w (first + 1) n

/-- Lets a server accept connections. -/
def start (w : Service) (number : Nat) (h : Host) : Host × List Event :=
  match h.servers[number]? with
  | none => (h, [])
  | some s =>
    let served := { s with serving := true, accepted := s.accepted + s.pending, pending := 0 }
    ({ h with servers := h.servers.set number served },
      .serving :: acceptPending w (s.accepted + 1) s.pending)

/-- Stops a server. Connections that it accepted stay. -/
def stop (number : Nat) (h : Host) : Host × List Event :=
  match h.servers[number]? with
  | none => (h, [])
  | some s =>
    let (removed, tree) := h.tree.remove s.path
    let failed :=
      match removed with
      | .ok () => []
      | .error cause => [Event.removalFailed s.path cause]
    let ended := { s with serving := false, listening := false }
    ({ h with tree, servers := h.servers.set number ended },
      .stopping s.path :: failed)

end KeyBroker.Host
