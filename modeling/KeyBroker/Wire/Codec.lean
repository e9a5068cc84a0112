import KeyBroker.Wire.Format
import KeyBroker.Wire.Message

/-! # Messages on the wire

The formats of requests and responses. Bytes behind a message are not looked at.
-/

namespace KeyBroker.Wire

open Format

/-- Commands, by index. -/
def command : Format Command := oneOf Command.all

/-- Requests, field by field. -/
def request : Format Request :=
  (command.pair (text.pair (word.pair ((option word).pair (bytes.pair (option bytes)))))).via
    (fun (command, set, version, algorithm, payload, aux) =>
      ⟨command, set, version, algorithm, payload, aux⟩)
    (fun r => (r.command, r.set, r.version, r.algorithm, r.payload, r.aux))

/-- Results, by index. -/
def body : Format Body where
  write
    | .bytes b => word.write 0 ++ bytes.write b
    | .verdict v => word.write 1 ++ bool.write v
    | .secretKey version secret => word.write 2 ++ (word.pair bytes).write (version, secret)
    | .keyPair version publicBytes privateBytes =>
      word.write 3 ++ (word.pair (bytes.pair bytes)).write (version, publicBytes, privateBytes)
  read input := do
    let (index, r) ← word.read input
    match index.toNat with
    | 0 => (bytes.read r).map fun (b, r) => (.bytes b, r)
    | 1 => (bool.read r).map fun (v, r) => (.verdict v, r)
    | 2 =>
      ((word.pair bytes).read r).map fun ((version, secret), r) => (.secretKey version secret, r)
    | 3 =>
      ((word.pair (bytes.pair bytes)).read r).map fun ((version, publicBytes, privateBytes), r) =>
        (.keyPair version publicBytes privateBytes, r)
    | n => .error (.badIndex n 4)

/-- Classes of errors, by name. -/
def faultKind : Format FaultKind where
  write k := text.write k.name
  read input := do
    let (name, r) ← text.read input
    match FaultKind.ofName? name with
    | some k => return (k, r)
    | none => .error (.unknownKind name)

/-- Statuses, by index. -/
def status : Format Status := oneOf [.ok, .error]

/-- Responses, field by field. -/
def response : Format Response :=
  (status.pair ((option body).pair ((option faultKind).pair (option text)))).via
    (fun (status, result, kind, message) => ⟨status, result, kind, message⟩)
    (fun r => (r.status, r.result, r.kind, r.message))

/-- The bytes of a message. -/
def encode {α : Type} (f : Format α) (a : α) : Bytes := f.write a

/-- The message that bytes begin with. -/
def decode {α : Type} (f : Format α) (b : Bytes) : Except DecodeFault α := (f.read b).map Prod.fst

end KeyBroker.Wire
