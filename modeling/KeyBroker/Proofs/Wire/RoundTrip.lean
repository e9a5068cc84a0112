import KeyBroker.Proofs.Wire.Utf8
import KeyBroker.Wire.Codec

/-! # Messages survive the wire

  A format reads a value when it takes exactly what it wrote for the value off the
  front of any bytes. Formats made from smaller ones read what their parts read, so
  requests and responses are read as soon as their byte strings and texts have lengths
  that eight bytes can hold. A message whose encoding is that short has no longer part.
-/

namespace KeyBroker.Wire

namespace Format

variable {α β : Type}

/-- A format takes what it wrote for a value off the front, whatever follows. -/
def Reads (f : Format α) (a : α) : Prop :=
  ∀ rest : Bytes, f.read (f.write a ++ rest) = .ok (a, rest)

/-- The first length that eight bytes cannot hold. -/
def lengthBound : Nat := 1 <<< (8 * 8)

/-! ### Numbers -/

theorem takeBytes_append (fault : DecodeFault) (b rest : Bytes) :
    takeBytes fault b.length (b ++ rest) = .ok (b, rest) := by
  have hfits : b.length ≤ (b ++ rest).length := by
    rw [List.length_append]
    omega
  rw [takeBytes, if_pos hfits, List.take_left, List.drop_left]

theorem reads_number {width n : Nat} (h : n < 1 <<< (8 * width)) : (number width).Reads n := by
  intro rest
  have htake := takeBytes_append .endOfInput (Bytes.ofNatLE width n) rest
  rw [Bytes.length_ofNatLE] at htake
  have hvalue : Bytes.toNatLE (Bytes.ofNatLE width n) = n := by
    rw [Bytes.toNatLE_ofNatLE, Nat.mod_eq_of_lt h]
  simp only [number, htake, bind, Except.bind, hvalue]
  rfl

theorem reads_word (w : UInt32) : word.Reads w := by
  intro rest
  have hnumber : (number 4).Reads w.toNat := reads_number w.toNat_lt
  simp only [word, hnumber rest, bind, Except.bind, UInt32.ofNat_toNat]
  rfl

theorem reads_length {n : Nat} (h : n < lengthBound) : length.Reads n := reads_number h

/-! ### Byte strings and texts -/

theorem reads_bytes {b : Bytes} (h : b.length < lengthBound) : bytes.Reads b := by
  intro rest
  simp only [bytes, List.append_assoc, reads_length h (b ++ rest), bind, Except.bind]
  exact takeBytes_append .endOfInput b rest

theorem reads_text {s : String} (h : (Text.Utf8.encode s).length < lengthBound) :
    text.Reads s := by
  intro rest
  have hlength := reads_length h (Text.Utf8.encode s ++ rest)
  have htake := takeBytes_append .endOfText (Text.Utf8.encode s) rest
  simp only [text, bytes, List.append_assoc, hlength, bind, Except.bind, htake,
    Text.Utf8.decode_encode]
  rfl

/-! ### Choices -/

theorem reads_bool (v : Bool) : bool.Reads v := by
  intro rest
  cases v <;> rfl

theorem reads_none (f : Format α) : (option f).Reads none := by
  intro rest
  rfl

theorem Reads.some {f : Format α} {a : α} (h : f.Reads a) : (option f).Reads (some a) := by
  intro rest
  have hone : (1 : UInt8) ≠ 0 := by decide
  simp only [option, List.cons_append, hone, if_false, if_true, h rest, Except.map]

/-- A value that may be absent is read if the value is, should it be there. -/
theorem reads_option {f : Format α} {o : Option α} (h : ∀ a, o = some a → f.Reads a) :
    (option f).Reads o := by
  cases o with
  | none => exact reads_none f
  | some a => exact (h a rfl).some

theorem reads_oneOf [BEq α] [LawfulBEq α] {values : List α} {a : α} (hmem : a ∈ values)
    (hfew : values.length ≤ UInt32.size) : (oneOf values).Reads a := by
  intro rest
  have hplace : values.idxOf a < values.length := List.idxOf_lt_length_of_mem hmem
  have hword : (UInt32.ofNat (values.idxOf a)).toNat = values.idxOf a :=
    UInt32.toNat_ofNat_of_lt (Nat.lt_of_lt_of_le hplace hfew)
  have hfound : values[values.idxOf a]? = some a := by
    rw [List.getElem?_eq_getElem hplace, List.getElem_idxOf hplace]
  simp only [oneOf, reads_word _ rest, bind, Except.bind, hword, hfound]
  rfl

/-! ### Combinations -/

theorem Reads.pair {f : Format α} {g : Format β} {a : α} {b : β} (hf : f.Reads a)
    (hg : g.Reads b) : (f.pair g).Reads (a, b) := by
  intro rest
  simp only [Format.pair, List.append_assoc, hf (g.write b ++ rest), bind, Except.bind, hg rest]
  rfl

theorem Reads.via {f : Format α} {forth : α → β} {back : β → α} {b : β} (h : f.Reads (back b))
    (hback : forth (back b) = b) : (f.via forth back).Reads b := by
  intro rest
  simp only [Format.via, h rest, Except.map, hback]

end Format

open Format

/-- Reading the bytes of a message gives the message. -/
theorem decode_encode {α : Type} {f : Format α} {a : α} (h : f.Reads a) :
    decode f (encode f a) = .ok a := by
  have hread := h []
  rw [List.append_nil] at hread
  rw [decode, encode, hread]
  rfl

/-! ### Requests -/

/-- The parts of a request have lengths that can be written. -/
structure RequestFits (r : Request) : Prop where
  set : (Text.Utf8.encode r.set).length < lengthBound
  payload : r.payload.length < lengthBound
  aux : ∀ b, r.aux = some b → b.length < lengthBound

theorem mem_all (c : Command) : c ∈ Command.all := by
  cases c with
  | ping => decide
  | operate op => cases op <;> decide
  | retrieve => decide

theorem reads_request {r : Request} (h : RequestFits r) : request.Reads r := by
  have hcommand : command.Reads r.command := reads_oneOf (mem_all r.command) (by decide)
  have halgorithm : (option word).Reads r.algorithm := reads_option fun n _ => reads_word n
  have haux : (option bytes).Reads r.aux := reads_option fun b hb => reads_bytes (h.aux b hb)
  have hfields := hcommand.pair ((reads_text h.set).pair ((reads_word r.version).pair
    (halgorithm.pair ((reads_bytes h.payload).pair haux))))
  unfold request
  apply Reads.via
  · exact hfields
  · rfl

/-- A request whose encoding is short has short parts. -/
theorem requestFits_of_length {r : Request} (h : (encode request r).length < lengthBound) :
    RequestFits r := by
  simp only [encode, request, Format.via, Format.pair, text, bytes, List.length_append] at h
  refine ⟨by omega, by omega, ?_⟩
  intro b hb
  rw [hb] at h
  simp only [option, List.length_cons, List.length_append] at h
  omega

/-- Reading the bytes of a request gives the request. -/
theorem decode_encode_request {r : Request} (h : (encode request r).length < lengthBound) :
    decode request (encode request r) = .ok r :=
  decode_encode (reads_request (requestFits_of_length h))

/-! ### Responses -/

/-- The byte strings of a result have lengths that can be written. -/
def BodyFits : Body → Prop
  | .bytes b => b.length < lengthBound
  | .verdict _ => True
  | .secretKey _ secret => secret.length < lengthBound
  | .keyPair _ publicBytes privateBytes =>
    publicBytes.length < lengthBound ∧ privateBytes.length < lengthBound

theorem reads_body {b : Body} (h : BodyFits b) : body.Reads b := by
  intro rest
  cases b with
  | bytes b =>
    have hcontent := reads_bytes h rest
    simp only [body, List.append_assoc, reads_word _ _, bind, Except.bind, UInt32.reduceToNat,
      hcontent, Except.map]
  | verdict v =>
    have hcontent := reads_bool v rest
    simp only [body, List.append_assoc, reads_word _ _, bind, Except.bind, UInt32.reduceToNat,
      hcontent, Except.map]
  | secretKey version secret =>
    have hcontent := (reads_word version).pair (reads_bytes h) rest
    simp only [body, List.append_assoc, reads_word _ _, bind, Except.bind, UInt32.reduceToNat,
      hcontent, Except.map]
  | keyPair version publicBytes privateBytes =>
    have hcontent := (reads_word version).pair ((reads_bytes h.1).pair (reads_bytes h.2)) rest
    simp only [body, List.append_assoc, reads_word _ _, bind, Except.bind, UInt32.reduceToNat,
      hcontent, Except.map]

theorem reads_faultKind (k : FaultKind) : faultKind.Reads k := by
  intro rest
  have hname : text.Reads k.name := reads_text (by cases k <;> decide)
  simp only [faultKind, hname rest, bind, Except.bind, FaultKind.ofName?_name]
  rfl

/-- The parts of a response have lengths that can be written. -/
structure ResponseFits (r : Response) : Prop where
  result : ∀ b, r.result = some b → BodyFits b
  message : ∀ s, r.message = some s → (Text.Utf8.encode s).length < lengthBound

theorem reads_response {r : Response} (h : ResponseFits r) : response.Reads r := by
  have hstatus : status.Reads r.status :=
    reads_oneOf (by cases r.status <;> decide) (by decide)
  have hresult : (option body).Reads r.result :=
    reads_option fun b hb => reads_body (h.result b hb)
  have hkind : (option faultKind).Reads r.kind := reads_option fun k _ => reads_faultKind k
  have hmessage : (option text).Reads r.message :=
    reads_option fun s hs => reads_text (h.message s hs)
  unfold response
  apply Reads.via
  · exact hstatus.pair (hresult.pair (hkind.pair hmessage))
  · rfl

theorem bodyFits_of_length {b : Body} (h : (body.write b).length < lengthBound) :
    BodyFits b := by
  cases b with
  | bytes b =>
    simp only [body, bytes, List.length_append] at h
    show b.length < lengthBound
    omega
  | verdict v => trivial
  | secretKey version secret =>
    simp only [body, Format.pair, bytes, List.length_append] at h
    show secret.length < lengthBound
    omega
  | keyPair version publicBytes privateBytes =>
    simp only [body, Format.pair, bytes, List.length_append] at h
    show publicBytes.length < lengthBound ∧ privateBytes.length < lengthBound
    omega

/-- A response whose encoding is short has short parts. -/
theorem responseFits_of_length {r : Response}
    (h : (encode response r).length < lengthBound) : ResponseFits r := by
  simp only [encode, response, Format.via, Format.pair, List.length_append] at h
  refine ⟨?_, ?_⟩
  · intro b hb
    rw [hb] at h
    simp only [option, List.length_cons] at h
    exact bodyFits_of_length (by omega)
  · intro s hs
    rw [hs] at h
    simp only [option, text, bytes, List.length_cons, List.length_append] at h
    omega

/-- Reading the bytes of a response gives the response. -/
theorem decode_encode_response {r : Response} (h : (encode response r).length < lengthBound) :
    decode response (encode response r) = .ok r :=
  decode_encode (reads_response (responseFits_of_length h))

end KeyBroker.Wire
