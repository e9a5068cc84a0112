import KeyBroker.Json.Reader
import KeyBroker.Location
import KeyBroker.Store.Attempt
import KeyBroker.Text.Base64
import KeyBroker.Text.Blank

/-! # Key store documents

A key store is kept in a JSON document: its sets, each with a name, a kind and versions, and each
version with its number and its material in Base64. Descriptions of documents hide the material.
A document that checks is published set by set, versions in ascending order.
-/

namespace KeyBroker

/-- One version in a document. The material belongs in the field for the kind of the set. -/
structure VersionEntry where
  number : UInt32
  secret : Option String := none
  privateKey : Option String := none
  deriving DecidableEq

/-- One set in a document. -/
structure SetEntry where
  name : String
  kind : KeyKind
  versions : List VersionEntry
  deriving DecidableEq

/-- A key store document. -/
structure Document where
  sets : List SetEntry
  deriving DecidableEq

namespace VersionEntry

/-- The entry of a secret. -/
def ofSecret (number : UInt32) (secret : Bytes) : VersionEntry where
  number := number
  secret := some (String.ofList (Text.Base64.encode secret))

/-- The entry of a key pair. -/
def ofPair (number : UInt32) (k : KeyPair) : Except PairFault VersionEntry :=
  k.privateBytes.map fun bytes =>
    { number := number, privateKey := some (String.ofList (Text.Base64.encode bytes)) }

/-- The material of an entry in a set of the given kind. -/
def material (e : VersionEntry) (kind : KeyKind) : Except EntryFault KeyMaterial :=
  match kind, e.secret, e.privateKey with
  | .symmetric, some secret, none =>
    match Text.Base64.decode? secret.toList with
    | some bytes => .ok (.secret bytes)
    | none => .error .badSecret
  | .asymmetric, none, some privateKey =>
    match Text.Base64.decode? privateKey.toList with
    | some bytes =>
      match KeyPair.ofBytes bytes with
      | .ok k => .ok (.pair k)
      | .error cause => .error (.badPair cause)
    | none => .error .badPrivateKey
  | .symmetric, _, _ => .error .needsSecret
  | .asymmetric, _, _ => .error .needsPrivateKey

/-- The description of an entry. -/
def describe (e : VersionEntry) : String :=
  "VersionEntry \x7b version: " ++ toString e.number.toNat ++ ", .. \x7d"

end VersionEntry

/-- The kind in descriptions. -/
def KeyKind.word : KeyKind → String
  | symmetric => "Symmetric"
  | asymmetric => "Asymmetric"

/-- The description of a set in a document. -/
def SetEntry.describe (s : SetEntry) : String :=
  "SetEntry \x7b name: " ++ Text.quote s.name ++ ", kind: " ++ s.kind.word ++ ", versions: ["
    ++ ", ".intercalate (s.versions.map VersionEntry.describe) ++ "] \x7d"

namespace Document

/-- The description of a document. -/
def describe (d : Document) : String :=
  "KeyStoreDocument \x7b sets: [" ++ ", ".intercalate (d.sets.map SetEntry.describe) ++ "] \x7d"

/-! ### Checking and publishing -/

/-- Checks the numbers of versions; `seen` are those already found. -/
def checkVersions (set : String) (seen : List UInt32) : List VersionEntry → Except StoreFault Unit
  | [] => .ok ()
  | e :: rest =>
    if e.number = 0 then .error (.versionZero set)
    else if e.number ∈ seen then .error (.versionTwice set e.number)
    else checkVersions set (e.number :: seen) rest

/-- Checks sets; `seen` are the names already found. -/
def checkSets (seen : List String) : List SetEntry → Except StoreFault Unit
  | [] => .ok ()
  | s :: rest =>
    if (Text.trim s.name.toList).isEmpty then .error .emptyName
    else if s.name ∈ seen then .error (.setTwice s.name)
    else
      match checkVersions s.name [] s.versions with
      | .ok () => checkSets (s.name :: seen) rest
      | .error fault => .error fault

/-- Checks names and numbers. -/
def check (d : Document) : Except StoreFault Unit := checkSets [] d.sets

/-- Publishes versions in the given order. -/
def publishVersions (name : String) (kind : KeyKind) (store : KeyStore) :
    List VersionEntry → Except StoreFault KeyStore × List Event
  | [] => (.ok store, [])
  | e :: rest =>
    match e.material kind with
    | .error cause => (.error (.entry name e.number cause), [])
    | .ok material =>
      match store.attempt (.numbered name e.number material) with
      | (.error cause, _, events) => (.error (.publish cause), events)
      | (.ok _, store, events) =>
        let (result, more) := publishVersions name kind store rest
        (result, events ++ more)

/-- Versions in ascending order. -/
def sorted (versions : List VersionEntry) : List VersionEntry :=
  versions.mergeSort fun a b => a.number ≤ b.number

/-- Publishes sets in the given order. -/
def publishSets (store : KeyStore) : List SetEntry → Except StoreFault KeyStore × List Event
  | [] => (.ok store, [])
  | s :: rest =>
    match publishVersions s.name s.kind store (sorted s.versions) with
    | (.error fault, events) => (.error fault, events)
    | (.ok store, events) =>
      let (result, more) := publishSets store rest
      (result, events ++ more)

/-- The key store that a document describes. -/
def publish (d : Document) : Except StoreFault KeyStore × List Event :=
  match d.check with
  | .error fault => (.error fault, [])
  | .ok () => publishSets KeyStore.empty d.sets

/-! ### As JSON -/

/-- A field that may be absent. -/
def optionalField (name : String) : Option String → List (List Char × Json)
  | some s => [(name.toList, .ofString s)]
  | none => []

/-- A version as JSON. -/
def versionJson (e : VersionEntry) : Json :=
  .object (("version".toList, .number (Nat.toDigits 10 e.number.toNat))
    :: optionalField "secret" e.secret ++ optionalField "private_key" e.privateKey)

/-- A set as JSON. -/
def setJson (s : SetEntry) : Json :=
  .object [("name".toList, .ofString s.name), ("kind".toList, .ofString s.kind.name),
    ("versions".toList, .array (s.versions.map versionJson))]

/-- A document as JSON. -/
def toJson (d : Document) : Json := .object [("sets".toList, .array (d.sets.map setJson))]

/-- The written form of a document. -/
def text (d : Document) : String := String.ofList (d.toJson.render [])

/-! ### From JSON -/

/-- The names of fields with their escapes resolved. -/
def namedFields (fields : List (List Char × Json)) : Option (List (String × Json)) :=
  fields.mapM fun (raw, v) => (Json.unescape? raw).map fun name => (name, v)

/-- The values of the given fields, in order. A value is an object with these fields, each at most
once and others disregarded, or an array of them; a field without a value is absent. -/
def fieldValues (names : List String) : Json → Option (List (Option Json))
  | .object fields => do
    let fields ← namedFields fields
    names.mapM fun name =>
      match fields.filter (·.1 == name) with
      | [] => some none
      | [(_, v)] => some (some v)
      | _ => none
  | .array items =>
    if items.length ≤ names.length then
      some (items.map some ++ List.replicate (names.length - items.length) none)
    else none
  | _ => none

/-- A text. -/
def textOf : Json → Option String
  | .text raw => Json.unescape? raw
  | _ => none

/-- A text that may be null or absent. -/
def optionalText : Option Json → Option (Option String)
  | none => some none
  | some .null => some none
  | some v => (textOf v).map some

/-- A number of a version. -/
def numberOf : Json → Option UInt32
  | .number numeral =>
    match Text.numeral? numeral with
    | some n => if n < UInt32.size then some (UInt32.ofNat n) else none
    | none => none
  | _ => none

/-- A kind, as its name or as an object whose only field is that name, holding null. -/
def kindOf : Json → Option KeyKind
  | .text raw => (Json.unescape? raw).bind KeyKind.ofName?
  | .object [(raw, .null)] => (Json.unescape? raw).bind KeyKind.ofName?
  | _ => none

/-- The items of an array. -/
def itemsOf {α : Type} (f : Json → Option α) : Json → Option (List α)
  | .array items => items.mapM f
  | _ => none

/-- Reads a version. -/
def versionOf (v : Json) : Option VersionEntry := do
  match ← fieldValues ["version", "secret", "private_key"] v with
  | [some number, secret, privateKey] =>
    some ⟨← numberOf number, ← optionalText secret, ← optionalText privateKey⟩
  | _ => none

/-- Reads a set. -/
def setOf (v : Json) : Option SetEntry := do
  match ← fieldValues ["name", "kind", "versions"] v with
  | [some name, some kind, some versions] =>
    some ⟨← textOf name, ← kindOf kind, ← itemsOf versionOf versions⟩
  | _ => none

/-- Reads a document. -/
def ofJson (v : Json) : Option Document := do
  match ← fieldValues ["sets"] v with
  | [some sets] => some ⟨← itemsOf setOf sets⟩
  | _ => none

/-- Reads the written form of a document. -/
def ofText (text : String) : Option Document := (Json.read? text.toList).bind ofJson

/-! ### Files -/

/-- The mode of a new key store file: only the owner may use it. -/
def fileMode : Nat := 0o600

/-- Puts the written form of a document at a location. -/
def save (d : Document) (l : Location) : Except Fault Unit × Location :=
  match l.write fileMode d.text with
  | (.ok (), l) => (.ok (), l)
  | (.error cause, l) => (.error (.transport cause), l)

/-- The bits of a mode that let others than the owner in. -/
def exposed (mode : Nat) : Bool := mode % 64 != 0

/-- Reads the document to which a path leads. -/
def ofFile (path : Path) (l : Location) : Except Fault Document :=
  match l.readText with
  | .error cause => .error (.store (.reading path cause))
  | .ok text =>
    match ofText text with
    | some d => .ok d
    | none => .error (.store (.parsing path))

/-- Loads the key store to which a path leads. A warning tells of a mode that lets others in. -/
def load (path : Path) (l : Location) : Except Fault KeyStore × List Event :=
  let warnings :=
    match l.mode? with
    | some mode => if exposed mode then [Event.exposedStore path (mode % 512)] else []
    | none => []
  match ofFile path l with
  | .error fault => (.error fault, warnings)
  | .ok d =>
    match d.publish with
    | (.error fault, events) => (.error (.store fault), warnings ++ events)
    | (.ok store, events) => (.ok store, warnings ++ events ++ [.loadedStore store.size path])

end Document

end KeyBroker
