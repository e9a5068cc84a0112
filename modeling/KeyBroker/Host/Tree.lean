import KeyBroker.Location
import KeyBroker.Text.Parts

/-! # Places in a file system

The part of a file system that a broker touches: files, directories and sockets, each under the
names that lead to it from the root. A path is followed name by name, and every name but the last
must be that of a directory.
-/

namespace KeyBroker

/-- A program that listens on a socket without being a broker: it says the same to everyone. -/
structure Peer where
  /-- What it writes. -/
  reply : Bytes
  /-- Whether it then closes the connection. -/
  closes : Bool
  deriving DecidableEq, Repr

/-- Who answers on a socket. -/
inductive Listener where
  | nobody
  | server (number : Nat)
  | peer (p : Peer)
  deriving DecidableEq, Repr

/-- What stands at a place. -/
inductive Place where
  | file (f : File)
  | directory (mode : Nat)
  | socket (mode : Nat) (listener : Listener)
  deriving DecidableEq, Repr

/-- A file system, and the place where paths that do not start at the root begin. -/
structure Tree where
  places : List (List Bytes × Place) := []
  start : List Bytes := []
  deriving DecidableEq, Repr

namespace Path

/-- The name of a directory for itself. -/
def here : Bytes := Text.Utf8.encode "."

/-- The name of the directory above. -/
def above : Bytes := Text.Utf8.encode ".."

/-- The names on a path. A separator at its end leads to the directory itself. -/
def names (p : Path) : List Bytes :=
  let parts := Text.parts separator p.bytes
  let named := parts.filter fun part => !part.isEmpty
  if parts.getLast? == some [] && !named.isEmpty then named ++ [here] else named

/-- The names on the path to the directory in which a path ends. -/
def parentNames (p : Path) : List Bytes :=
  ((Text.parts separator p.bytes).filter fun part => !part.isEmpty && part != here).dropLast

/-- Why a path cannot be the address of a socket. -/
def socketFault? (p : Path) : Option SystemFault :=
  if p.bytes.contains 0 then some .nulInSocketPath
  else if p.bytes.length ≥ 108 then some .socketPathTooLong
  else none

end Path

namespace Tree

/-- What stands at a place. The root is always there. -/
def atPlace (t : Tree) (place : List Bytes) : Option Place :=
  if place.isEmpty then some (.directory 0o755) else t.places.lookup place

/-- The tree without what stands at a place. -/
def erase (t : Tree) (place : List Bytes) : Tree :=
  { t with places := t.places.filter (·.1 != place) }

/-- The tree with something at a place. -/
def put (t : Tree) (place : List Bytes) (what : Place) : Tree :=
  { t with places := (place, what) :: (t.erase place).places }

/-- The place to which a name leads. -/
def step (place : List Bytes) (name : Bytes) : List Bytes :=
  if name = Path.here then place
  else if name = Path.above then place.dropLast
  else place ++ [name]

/-- The longest name that a place can have. -/
def nameLimit : Nat := 255

/-- Follows names. -/
def follow (t : Tree) (place : List Bytes) : List Bytes → Except SystemFault (List Bytes)
  | [] => .ok place
  | name :: rest =>
    if name.length > nameLimit then .error .nameTooLong
    else
      let next := step place name
      if rest.isEmpty then .ok next
      else
        match t.atPlace next with
        | some (.directory _) => follow t next rest
        | some _ => .error .notDirectory
        | none => .error .noSuchFile

/-- Where a path begins. -/
def origin (t : Tree) (p : Path) : List Bytes := if p.isAbsolute then [] else t.start

/-- The place to which a path leads, whether something stands there or not. -/
def resolve (t : Tree) (p : Path) : Except SystemFault (List Bytes) :=
  if p.bytes.contains 0 then .error .nulInPath
  else if p.bytes.isEmpty then .error .noSuchFile
  else t.follow (t.origin p) p.names

/-- What a path leads to. -/
def find (t : Tree) (p : Path) : Except SystemFault (Option Place) :=
  (t.resolve p).map t.atPlace

/-- What a path leads to, as far as reading goes. -/
def location (t : Tree) (p : Path) : Location :=
  match t.find p with
  | .error cause => .blocked cause
  | .ok none => .vacant
  | .ok (some (.file f)) => .file f
  | .ok (some (.directory mode)) => .directory mode
  | .ok (some (.socket ..)) => .blocked .noSuchDevice

/-- Makes the directories that names lead through, where there are none. -/
def makeDirectories (t : Tree) (place : List Bytes) : List Bytes → Except SystemFault Unit × Tree
  | [] => (.ok (), t)
  | name :: rest =>
    if name.length > nameLimit then (.error .nameTooLong, t)
    else
      let next := step place name
      match t.atPlace next with
      | some (.directory _) => makeDirectories t next rest
      | some _ => (.error (if rest.isEmpty then .fileExists else .notDirectory), t)
      | none => makeDirectories (t.put next (.directory 0o755)) next rest

/-- Makes the directories on the way to a path. -/
def makeParents (t : Tree) (p : Path) : Except SystemFault Unit × Tree :=
  if p.parentNames.any (·.contains 0) then (.error .nulInPath, t)
  else t.makeDirectories (t.origin p) p.parentNames

/-- Removes what a path leads to, unless it is a directory. -/
def remove (t : Tree) (p : Path) : Except SystemFault Unit × Tree :=
  match t.resolve p with
  | .error cause => (.error cause, t)
  | .ok place =>
    match t.atPlace place with
    | none => (.error .noSuchFile, t)
    | some (.directory _) => (.error .isDirectory, t)
    | some _ => (.ok (), t.erase place)

end Tree

end KeyBroker
