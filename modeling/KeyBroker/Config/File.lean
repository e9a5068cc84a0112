import KeyBroker.Config.Basic
import KeyBroker.Toml.Document

/-! # Configuration files

A configuration is kept in a TOML document. A reader takes what the document says and the standard
values for the rest, and disregards names it does not know. The writer states every value, the
grants last.
-/

namespace KeyBroker

/-! ### Reading -/

/-- A value that may be left out. -/
def Toml.orElse {α : Type} (read : Toml → Option α) (standard : α) : Option Toml → Option α
  | none => some standard
  | some v => read v

/-- A path. -/
def Path.ofToml (v : Toml) : Option Path := v.text?.map Path.ofText

/-- An entity. -/
def Entity.ofToml (v : Toml) : Option Entity := v.text?.bind fun s => (Entity.ofText s).toOption

/-- Whether a value is an empty table or array. -/
def Toml.isVoid : Toml → Bool
  | .table _ [] | .array [] => true
  | _ => false

/-- A capability, as its name or as a table whose only entry has that name and holds nothing. -/
def Capability.ofToml : Toml → Option Capability
  | .text s => ofName? s
  | .table _ [(name, v)] => if v.isVoid then ofName? name else none
  | _ => none

/-- A grant. -/
def Grant.ofToml (v : Toml) : Option Grant :=
  match v.fields? ["entity", "set", "access"] with
  | some [some entity, some pattern, some access] => do
    some ⟨← Entity.ofToml entity, ← pattern.text?, ← Capability.ofToml access⟩
  | _ => none

/-- A number of 32 bits. -/
def Toml.word32? (v : Toml) : Option UInt32 := (v.natural? (UInt32.size - 1)).map UInt32.ofNat

/-- A number of 64 bits. -/
def Toml.word64? (v : Toml) : Option UInt64 := (v.natural? (UInt64.size - 1)).map UInt64.ofNat

/-- What a document says about the server, over the standard values. -/
def ServerConfig.ofToml (c : ServerConfig) (v : Toml) : Option ServerConfig :=
  match v.fields? ["socket_path", "socket_mode", "max_frame_bytes", "probe_timeout_ms"] with
  | some [path, mode, limit, timeout] => do
    some {
      socketPath := ← Toml.orElse Path.ofToml c.socketPath path
      socketMode := ← Toml.orElse Toml.word32? c.socketMode mode
      frameLimit := ← Toml.orElse Toml.word64? c.frameLimit limit
      probeTimeout := ← Toml.orElse Toml.word64? c.probeTimeout timeout }
  | _ => none

namespace Config

/-- What a document says about the key store, over the standard value. -/
def storePathOf (standard : Path) (v : Toml) : Option Path :=
  match v.fields? ["path"] with
  | some [path] => Toml.orElse Path.ofToml standard path
  | _ => none

/-- What a document says about algorithms. -/
def disabledOf (v : Toml) : Option (List String) :=
  match v.fields? ["disabled"] with
  | some [names] => Toml.orElse (fun v => v.items?.bind (·.mapM Toml.text?)) [] names
  | _ => none

/-- What a document says, over a standard configuration. -/
def ofToml (c : Config) (v : Toml) : Option Config :=
  match v.fields? ["server", "keystore", "algorithms", "grants"] with
  | some [server, store, algorithms, grants] => do
    some {
      server := ← Toml.orElse (ServerConfig.ofToml c.server) c.server server
      storePath := ← Toml.orElse (storePathOf c.storePath) c.storePath store
      disabled := ← Toml.orElse disabledOf c.disabled algorithms
      grants := ← Toml.orElse (fun v => v.items?.bind (·.mapM Grant.ofToml)) c.grants grants }
  | _ => none

/-- Reads the written form of a configuration. -/
def ofText (s : Surroundings) (text : String) : Option Config :=
  (Toml.read? text.toList).bind (ofToml (standard s))

/-- Reads the configuration to which a path leads. -/
def ofFile (s : Surroundings) (path : Path) (l : Location) : Except Fault Config :=
  match l.readText with
  | .error cause => .error (.config (.reading path cause))
  | .ok text =>
    match ofText s text with
    | some c => .ok c
    | none => .error (.config (.parsing path))

/-! ### Writing -/

/-- What stands behind an equals sign. -/
inductive Setting where
  | text (s : String)
  | number (n : Nat)
  | names (l : List String)
  deriving DecidableEq, Repr

/-- The value that a setting is read as. -/
def Setting.value : Setting → Toml
  | text s => .text s
  | number n => .integer n
  | names l => .array (l.map .text)

/-- The written form of a setting. Two names or more have a line each. -/
def Setting.render : Setting → List Char
  | text s => Toml.writeText s.toList
  | number n => Nat.toDigits 10 n
  | names [] => ['[', ']']
  | names [name] => '[' :: Toml.writeText name.toList ++ [']']
  | names l =>
    '[' :: '\n' ::
      l.flatMap (fun name => "    ".toList ++ Toml.writeText name.toList ++ [',', '\n']) ++ [']']

/-- A header with its settings. -/
structure Block where
  header : List Char
  settings : List (String × Setting)
  deriving DecidableEq, Repr

/-- A line that gives a name its value. -/
def settingLine (s : String × Setting) : List Char :=
  s.1.toList ++ [' ', '=', ' '] ++ s.2.render ++ ['\n']

/-- The written form of a block. -/
def Block.render (b : Block) : List Char :=
  b.header ++ '\n' :: b.settings.flatMap settingLine

/-- The block of a grant. -/
def grantBlock (g : Grant) : Block where
  header := "[[grants]]".toList
  settings :=
    [("entity", .text g.entity.text), ("set", .text g.pattern), ("access", .text g.access.name)]

/-- The blocks of a configuration, given the texts of its paths. -/
def blocks (c : Config) (socketPath storePath : String) : List Block :=
  [⟨"[server]".toList, [("socket_path", .text socketPath),
      ("socket_mode", .number c.server.socketMode.toNat),
      ("max_frame_bytes", .number c.server.frameLimit.toNat),
      ("probe_timeout_ms", .number c.server.probeTimeout.toNat)]⟩,
    ⟨"[keystore]".toList, [("path", .text storePath)]⟩,
    ⟨"[algorithms]".toList, [("disabled", .names c.disabled)]⟩]
    ++ c.grants.map grantBlock

/-- What stands before the first header: that there are no grants, if so. -/
def preface (c : Config) : List Char :=
  if c.grants.isEmpty then settingLine ("grants", .names []) ++ ['\n'] else []

/-- Blocks with a blank line between each two. -/
def renderBlocks : List Block → List Char
  | [] => []
  | [b] => b.render
  | b :: rest => b.render ++ '\n' :: renderBlocks rest

/-- The least number beyond the integers of the format. -/
def integerBound : UInt64 := 0x8000000000000000

/-- Whether the numbers of a configuration are integers of the format. -/
def representable (c : Config) : Bool :=
  c.server.frameLimit < integerBound && c.server.probeTimeout < integerBound

/-- The written form of a configuration, if its paths are texts and its numbers are integers of the
format. -/
def text? (c : Config) : Option String :=
  match c.server.socketPath.text?, c.storePath.text? with
  | some socketPath, some storePath =>
    if c.representable then
      some (String.ofList (c.preface ++ renderBlocks (c.blocks socketPath storePath)))
    else none
  | _, _ => none

/-- The mode of a new configuration file. -/
def fileMode : Nat := 0o644

/-- Puts the written form of a configuration at a location. -/
def save (c : Config) (l : Location) : Except Fault Unit × Location :=
  match c.text? with
  | none => (.error (.config .encoding), l)
  | some text =>
    match l.write fileMode text with
    | (.ok (), l) => (.ok (), l)
    | (.error cause, l) => (.error (.transport cause), l)

end Config

end KeyBroker
