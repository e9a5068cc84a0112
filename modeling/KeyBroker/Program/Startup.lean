import KeyBroker.Config.File
import KeyBroker.Host.Server
import KeyBroker.Program.Arguments
import KeyBroker.Store.Document

/-! # Starting the program

The program reads its configuration, checks it, reads the key store, and then either stops, if it
was only asked to check, or binds its socket and serves. The first of these tasks that fails ends
the program with a report of what it was at and why it failed. Main statement: a program that was
only asked to check never gets to serve.
-/

namespace KeyBroker

/-! ### Reports -/

/-- What the program does before it serves. -/
inductive Task where
  | readConfig (path : Path)
  | checkConfig
  | readStore (path : Path)
  | bindSocket
  deriving DecidableEq, Repr

/-- The task in words. -/
def Task.describe : Task → String
  | readConfig path => s!"loading config {path.display}"
  | checkConfig => "invalid configuration"
  | readStore path => s!"loading key store {path.display}"
  | bindSocket => "binding broker socket"

/-- A fault and what caused it, in words. -/
def Fault.causes : Fault → List String
  | transport cause => [(transport cause).message, cause.message]
  | fault => [fault.message]

/-- A task that failed. -/
structure Failure where
  task : Task
  fault : Fault
  deriving DecidableEq, Repr

namespace Failure

/-- A text whose lines are indented, except the first. -/
def hang (width : Nat) (text : String) : String :=
  ("\n".pushn ' ' width).intercalate ((Text.parts '\n' text.toList).map String.ofList)

/-- Causes in words, a line each. They are numbered if there are several. -/
def listing : List String → String
  | [cause] => "\n    " ++ hang 4 cause
  | causes => String.join (causes.zipIdx.map fun (cause, n) => s!"\n    {n}: " ++ hang 7 cause)

/-- The report of a failure. -/
def report (f : Failure) : String :=
  "Error: " ++ f.task.describe ++ "\n\nCaused by:" ++ listing f.fault.causes

/-- What the program returns after a failure. -/
def code : Nat := 1

/-- What the program returns if it cannot read its command line. -/
def usageCode : Nat := 2

end Failure

/-! ### Tasks -/

/-- What a program is told by its environment, in which the home of the user may be missing. -/
def Surroundings.ofEnvironment (home : String) (env : String → Option String) : Surroundings :=
  let path? (name : String) := (env name).map Path.ofText
  { home := (path? "HOME").getD (Path.ofText home)
    configHome := path? "XDG_CONFIG_HOME"
    runtimeDir := path? "XDG_RUNTIME_DIR"
    temporaryDir := path? "TMPDIR" }

/-- A configuration with the paths that a command line gives. -/
def Config.withOptions (c : Config) (o : Options) : Config :=
  { c with
    server := { c.server with socketPath := o.socket.getD c.server.socketPath }
    storePath := o.store.getD c.storePath }

namespace Startup

/-- Reads the configuration, if a file of one was named, which is at `l`, and checks it. -/
def configure (s : Surroundings) (o : Options) (l : Location) : Except Failure Config :=
  let read : Except Failure Config :=
    match o.config with
    | none => .ok (Config.standard s)
    | some path => (Config.ofFile s path l).mapError (Failure.mk (.readConfig path))
  match read with
  | .error failure => .error failure
  | .ok c =>
    let c := c.withOptions o
    match c.check with
    | .error fault => .error ⟨.checkConfig, fault⟩
    | .ok () => .ok c

/-- Reads the key store of a configuration, which is at `l`. -/
def openStore (c : Config) (l : Location) : Except Failure KeyStore × List Event :=
  match Document.load c.storePath l with
  | (.error fault, events) => (.error ⟨.readStore c.storePath, fault⟩, events)
  | (.ok store, events) =>
    (.ok store, events ++ [.setsNamed store.names, .grantsCounted c.grants.length])

/-- How far the program gets before it serves. -/
inductive Outcome where
  | failed (f : Failure)
  | checked
  | ready (c : Config) (b : Broker)

/-- What the program does with a configuration and a key store. -/
def conclude (o : Options) (c : Config) (store : KeyStore) : Outcome × List Event :=
  if o.check then (.checked, [.checked])
  else
    match c.registry with
    | .error fault => (.failed ⟨.checkConfig, fault⟩, [])
    | .ok registry => (.ready c ⟨store, c.policy.capability, registry⟩, [])

/-- Does what comes before serving, given what paths lead to. -/
def prepare (s : Surroundings) (o : Options) (find : Path → Location) : Outcome × List Event :=
  let started := Event.started programVersion
  match configure s o ((o.config.map find).getD .vacant) with
  | .error failure => (.failed failure, [started])
  | .ok c =>
    match openStore c (find c.storePath) with
    | (.error failure, events) => (.failed failure, started :: events)
    | (.ok store, events) =>
      let (outcome, more) := conclude o c store
      (outcome, started :: events ++ more)

/-- Binds the socket of a configuration and serves on it. -/
def listen (w : Service) (c : Config) (h : Host) : Except Failure Nat × Host × List Event :=
  match h.bind w c.server with
  | (.error fault, h, events) => (.error ⟨.bindSocket, fault⟩, h, events)
  | (.ok number, h, events) =>
    let (h, more) := h.start w number
    (.ok number, h, events ++ more)

theorem conclude_of_check {o : Options} (h : o.check = true) (c : Config) (store : KeyStore) :
    conclude o c store = (.checked, [.checked]) := by
  simp [conclude, h]

theorem prepare_ne_ready {o : Options} (h : o.check = true) (s : Surroundings)
    (find : Path → Location) (c : Config) (b : Broker) : (prepare s o find).1 ≠ .ready c b := by
  unfold prepare
  split
  · simp
  · split
    · simp
    · simp [conclude_of_check h]

end Startup

end KeyBroker
