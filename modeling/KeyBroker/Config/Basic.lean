import KeyBroker.Location
import KeyBroker.Registry

/-! # Configurations

A configuration says where a broker listens, where its key store is, which algorithms it refuses and
who may do what. What it leaves out has a standard value, which depends on the surroundings of the
program. Main statement: a configuration that checks gives a registry.
-/

namespace KeyBroker

/-- What a program is told by its surroundings. -/
structure Surroundings where
  /-- The home of the user. -/
  home : Path
  /-- Where the user keeps configurations. -/
  configHome : Option Path := none
  /-- Where the user keeps sockets. -/
  runtimeDir : Option Path := none
  /-- Where anyone keeps files that need not last. -/
  temporaryDir : Option Path := none
  deriving DecidableEq, Repr

namespace Surroundings

/-- A path that counts only if it starts at the root. -/
def rooted? (p : Option Path) : Option Path := p.filter Path.isAbsolute

/-- The standard place of the socket. -/
def socketPath (s : Surroundings) : Path :=
  let base := (rooted? s.runtimeDir).getD (s.temporaryDir.getD (Path.ofText "/tmp"))
  (base.child "custody").child "custodyd.sock"

/-- The standard place of the key store. -/
def storePath (s : Surroundings) : Path :=
  let base := (rooted? s.configHome).getD (s.home.child ".config")
  (base.child "custody").child "keys.json"

end Surroundings

/-- How a broker listens. -/
structure ServerConfig where
  socketPath : Path
  /-- Who may connect. -/
  socketMode : UInt32 := 0o660
  /-- The greatest length of a frame. -/
  frameLimit : UInt64 := 1048576
  /-- How long another broker may take to answer, in milliseconds. -/
  probeTimeout : UInt64 := 500
  deriving DecidableEq, Repr

/-- The configuration of a broker. -/
structure Config where
  server : ServerConfig
  /-- Where the key store is. -/
  storePath : Path
  /-- The names of the algorithms refused. -/
  disabled : List String := []
  grants : List Grant := []
  deriving DecidableEq, Repr

namespace Config

/-- The configuration that says nothing. -/
def standard (s : Surroundings) : Config where
  server := { socketPath := s.socketPath }
  storePath := s.storePath

/-! ### Checking -/

/-- The algorithm that an entry of the refused names. The standard one cannot be refused. -/
def refusal (name : String) : Except Fault Algorithm :=
  match Algorithm.ofName name with
  | .error cause => .error (.key (.unsupported cause))
  | .ok .standard => .error (.config .standardDisabled)
  | .ok a => .ok a

/-- The algorithms refused. -/
def refusals (names : List String) : Except Fault (List Algorithm) :=
  match names with
  | [] => .ok []
  | name :: rest =>
    match refusal name with
    | .error fault => .error fault
    | .ok a =>
      match refusals rest with
      | .error fault => .error fault
      | .ok as => .ok (a :: as)

/-- The registry of the broker. -/
def registry (c : Config) : Except Fault Registry := (refusals c.disabled).map Registry.without

/-- The policy of the broker. -/
def policy (c : Config) : Policy := ⟨c.grants⟩

/-- Checks grants in order. -/
def checkGrants : List Grant → Except Fault Unit
  | [] => .ok ()
  | g :: rest =>
    match g.check with
    | .error cause => .error (.config (.grant cause))
    | .ok () => checkGrants rest

/-- Checks that a broker can run with the configuration. -/
def check (c : Config) : Except Fault Unit :=
  if c.server.socketPath.bytes.isEmpty then .error (.config .noSocketPath)
  else if c.server.socketMode > 0o777 then .error (.config (.badMode c.server.socketMode.toNat))
  else if c.server.frameLimit ≤ 4 ∨ c.server.frameLimit ≥ 0x100000000 then
    .error (.config (.badLimit c.server.frameLimit.toNat))
  else
    match checkGrants c.grants with
    | .error fault => .error fault
    | .ok () => (refusals c.disabled).map fun _ => ()

theorem registry_of_check {c : Config} (h : c.check = .ok ()) : ∃ r, c.registry = .ok r := by
  unfold check at h
  split at h <;> try contradiction
  split at h <;> try contradiction
  split at h <;> try contradiction
  split at h <;> try contradiction
  unfold registry
  cases hr : refusals c.disabled with
  | error fault => simp [hr, Except.map] at h
  | ok l => exact ⟨Registry.without l, rfl⟩

end Config

end KeyBroker
