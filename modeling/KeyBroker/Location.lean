import KeyBroker.Fault

/-! # Locations

What a path leads to, as far as reading and writing files goes. Writing creates a file where there
is none and otherwise keeps the mode of the file; a write that fails changes nothing.
-/

namespace KeyBroker

/-- A file: who may use it, and what it holds. -/
structure File where
  mode : Nat
  content : Bytes
  deriving DecidableEq, Repr

/-- What a path leads to. -/
inductive Location where
  /-- Nothing, in a directory that exists. -/
  | vacant
  | file (f : File)
  | directory (mode : Nat)
  /-- Nothing that can be reached. -/
  | blocked (cause : SystemFault)
  deriving DecidableEq, Repr

namespace Location

/-- The mode of what is there. -/
def mode? : Location → Option Nat
  | file f => some f.mode
  | directory mode => some mode
  | vacant | blocked _ => none

/-- The bytes held there. -/
def read : Location → Except SystemFault Bytes
  | vacant => .error .noSuchFile
  | file f => .ok f.content
  | directory _ => .error .isDirectory
  | blocked cause => .error cause

/-- The text held there, if the bytes are UTF-8. -/
def readText (l : Location) : Except SystemFault String :=
  match l.read with
  | .error cause => .error cause
  | .ok bytes =>
    match Text.Utf8.decode bytes with
    | .ok text => .ok text
    | .error _ => .error .notText

/-- Puts a text there; a file that is created gets the given mode. -/
def write (mode : Nat) (text : String) : Location → Except SystemFault Unit × Location
  | vacant => (.ok (), file ⟨mode, Text.Utf8.encode text⟩)
  | file f => (.ok (), file { f with content := Text.Utf8.encode text })
  | directory m => (.error .isDirectory, directory m)
  | blocked cause => (.error cause, blocked cause)

end Location

end KeyBroker
