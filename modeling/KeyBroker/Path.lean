import KeyBroker.Text.Utf8

/-! # Paths

A path is any bytes; only to show it or to write it into a text must it be read as UTF-8.
-/

namespace KeyBroker

/-- The name of a place in the file system. -/
structure Path where
  bytes : Bytes
  deriving DecidableEq, Repr

namespace Path

/-- The byte between the parts of a path. -/
def separator : UInt8 := 0x2f

/-- The path with a given text. -/
def ofText (text : String) : Path := ⟨Text.Utf8.encode text⟩

/-- The text of a path that is UTF-8. -/
def text? (p : Path) : Option String := (Text.Utf8.decode p.bytes).toOption

/-- The path in messages. -/
def display (p : Path) : String := Text.Utf8.lossy p.bytes

/-- Whether the path starts at the root. -/
def isAbsolute (p : Path) : Bool := p.bytes.head? == some separator

/-- A path below another one, unless it is absolute. -/
def join (base p : Path) : Path :=
  if p.isAbsolute then p
  else if base.bytes.isEmpty || base.bytes.getLast? == some separator then ⟨base.bytes ++ p.bytes⟩
  else ⟨base.bytes ++ separator :: p.bytes⟩

/-- A path below another one, given as text. -/
def child (base : Path) (name : String) : Path := base.join (ofText name)

end Path

end KeyBroker
