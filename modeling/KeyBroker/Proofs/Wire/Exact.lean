import KeyBroker.Client
import KeyBroker.Proofs.Wire.RoundTrip
import KeyBroker.Session

/-! # Only messages are read

  A format takes nothing off the front of bytes but what it writes: the value that it
  gives is one that can be written, and the bytes taken are the bytes of that value.
  Together with the round trip this fixes reading completely. Bytes are read as a
  message just if they begin with the bytes of that message, so no message has two
  encodings, no encoding begins another, and all other bytes are refused.
-/

namespace KeyBroker

/-! ### Stages that succeed -/

section Except

variable {ε α β : Type}

theorem ok_of_bind_eq_ok {x : Except ε α} {f : α → Except ε β} {b : β}
    (h : (x >>= f) = .ok b) : ∃ a, x = .ok a ∧ f a = .ok b := by
  cases x with
  | error e => cases h
  | ok a => exact ⟨a, rfl, h⟩

theorem ok_of_map_eq_ok {x : Except ε α} {f : α → β} {b : β} (h : x.map f = .ok b) :
    ∃ a, x = .ok a ∧ f a = b := by
  cases x with
  | error e => cases h
  | ok a => exact ⟨a, rfl, Except.ok.inj h⟩

end Except

/-! ### What formats take -/

namespace Wire

namespace Format

variable {α β : Type} {P : α → Prop} {Q : β → Prop}

/-- Whatever a format takes off the front is the bytes of the value it gives, and that
    value holds `P`. -/
def Takes (f : Format α) (P : α → Prop) : Prop :=
  ∀ input a rest, f.read input = .ok (a, rest) → P a ∧ input = f.write a ++ rest

theorem of_takeBytes {fault : DecodeFault} {n : Nat} {b front rest : Bytes}
    (h : takeBytes fault n b = .ok (front, rest)) : front.length = n ∧ b = front ++ rest := by
  unfold takeBytes at h
  split at h
  · next hlong =>
    obtain ⟨rfl, rfl⟩ := Prod.mk.inj (Except.ok.inj h)
    exact ⟨List.length_take_of_le hlong, (List.take_append_drop n b).symm⟩
  · cases h

theorem takes_number (width : Nat) : (number width).Takes fun n => n < 1 <<< (8 * width) := by
  intro input n rest h
  obtain ⟨⟨digits, r⟩, htake, hgive⟩ := ok_of_bind_eq_ok h
  obtain ⟨rfl, rfl⟩ := Prod.mk.inj (Except.ok.inj hgive)
  obtain ⟨hlength, hinput⟩ := of_takeBytes htake
  subst hlength
  refine ⟨Bytes.toNatLE_lt digits, ?_⟩
  show input = Bytes.ofNatLE digits.length (Bytes.toNatLE digits) ++ r
  rw [Bytes.ofNatLE_toNatLE]
  exact hinput

theorem takes_word : word.Takes fun _ => True := by
  intro input w rest h
  obtain ⟨⟨n, r⟩, hread, hgive⟩ := ok_of_bind_eq_ok h
  obtain ⟨rfl, rfl⟩ := Prod.mk.inj (Except.ok.inj hgive)
  obtain ⟨hfits, hinput⟩ := takes_number 4 input n r hread
  refine ⟨trivial, ?_⟩
  have hvalue : (UInt32.ofNat n).toNat = n := UInt32.toNat_ofNat_of_lt hfits
  show input = (number 4).write (UInt32.ofNat n).toNat ++ r
  rw [hvalue]
  exact hinput

theorem takes_length : length.Takes fun n => n < lengthBound := takes_number 8

/-! ### Byte strings and texts -/

theorem takes_bytes : bytes.Takes fun b => b.length < lengthBound := by
  intro input b rest h
  obtain ⟨⟨n, r⟩, hread, htake⟩ := ok_of_bind_eq_ok h
  obtain ⟨hfits, hinput⟩ := takes_length input n r hread
  obtain ⟨rfl, rfl⟩ := of_takeBytes htake
  refine ⟨hfits, ?_⟩
  rw [hinput, ← List.append_assoc]
  rfl

theorem takes_text : text.Takes fun s => (Text.Utf8.encode s).length < lengthBound := by
  intro input s rest h
  obtain ⟨⟨n, r⟩, hread, hrest⟩ := ok_of_bind_eq_ok h
  obtain ⟨⟨content, r'⟩, htake, hgive⟩ := ok_of_bind_eq_ok hrest
  obtain ⟨hfits, hinput⟩ := takes_length input n r hread
  obtain ⟨rfl, rfl⟩ := of_takeBytes htake
  -- only the bytes of a text are read as that text
  cases hdecode : Text.Utf8.decode content with
  | error cause => simp only [hdecode] at hgive; cases hgive
  | ok s' =>
    simp only [hdecode] at hgive
    obtain ⟨rfl, rfl⟩ := Prod.mk.inj (Except.ok.inj hgive)
    have hcontent := Text.Utf8.eq_encode_of_decode hdecode
    subst hcontent
    refine ⟨hfits, ?_⟩
    rw [hinput, ← List.append_assoc]
    rfl

/-! ### Choices -/

theorem takes_bool : bool.Takes fun _ => True := by
  intro input v rest h
  cases input with
  | nil => cases h
  | cons b r =>
    simp only [bool] at h
    split at h
    · next hb =>
      obtain ⟨rfl, rfl⟩ := Prod.mk.inj (Except.ok.inj h)
      exact ⟨trivial, by rw [hb]; rfl⟩
    · split at h
      · next hb =>
        obtain ⟨rfl, rfl⟩ := Prod.mk.inj (Except.ok.inj h)
        exact ⟨trivial, by rw [hb]; rfl⟩
      · cases h

theorem Takes.option {f : Format α} (hf : f.Takes P) :
    (option f).Takes fun o => ∀ a, o = some a → P a := by
  intro input o rest h
  cases input with
  | nil => cases h
  | cons b r =>
    simp only [Format.option] at h
    split at h
    · next hb =>
      obtain ⟨rfl, rfl⟩ := Prod.mk.inj (Except.ok.inj h)
      exact ⟨nofun, by rw [hb]; rfl⟩
    · split at h
      · next hb =>
        obtain ⟨⟨a, r'⟩, hread, hgive⟩ := ok_of_map_eq_ok h
        obtain ⟨rfl, rfl⟩ := Prod.mk.inj hgive
        obtain ⟨ha, hr⟩ := hf r a r' hread
        refine ⟨?_, ?_⟩
        · rintro _ ⟨⟩
          exact ha
        · rw [hb, hr]
          rfl
      · cases h

theorem takes_oneOf [BEq α] [LawfulBEq α] {values : List α} (hdistinct : values.Nodup) :
    (oneOf values).Takes fun _ => True := by
  intro input a rest h
  obtain ⟨⟨i, r⟩, hread, h⟩ := ok_of_bind_eq_ok h
  obtain ⟨-, hinput⟩ := takes_word input i r hread
  cases hplace : values[i.toNat]? with
  | none => simp only [hplace] at h; cases h
  | some a' =>
    simp only [hplace] at h
    obtain ⟨rfl, rfl⟩ := Prod.mk.inj (Except.ok.inj h)
    refine ⟨trivial, ?_⟩
    -- a value has one place only, so it is written as the index that was read
    obtain ⟨hlt, hget⟩ := List.getElem?_eq_some_iff.mp hplace
    have hindex : values.idxOf a' = i.toNat := by
      rw [← hget]
      exact hdistinct.idxOf_getElem i.toNat hlt
    show input = word.write (UInt32.ofNat (values.idxOf a')) ++ r
    rw [hindex, UInt32.ofNat_toNat]
    exact hinput

/-! ### Combinations -/

theorem Takes.pair {f : Format α} {g : Format β} (hf : f.Takes P) (hg : g.Takes Q) :
    (f.pair g).Takes fun p => P p.1 ∧ Q p.2 := by
  intro input p rest h
  obtain ⟨⟨a, r⟩, hread, h⟩ := ok_of_bind_eq_ok h
  obtain ⟨⟨b, r'⟩, hread', hgive⟩ := ok_of_bind_eq_ok h
  obtain ⟨rfl, rfl⟩ := Prod.mk.inj (Except.ok.inj hgive)
  obtain ⟨ha, hinput⟩ := hf input a r hread
  obtain ⟨hb, hr⟩ := hg r b r' hread'
  refine ⟨⟨ha, hb⟩, ?_⟩
  rw [hinput, hr, ← List.append_assoc]
  rfl

theorem Takes.via {f : Format α} {forth : α → β} {back : β → α} (hf : f.Takes P)
    (hforth : ∀ a, back (forth a) = a) : (f.via forth back).Takes fun b => P (back b) := by
  intro input b rest h
  obtain ⟨⟨a, r⟩, hread, hgive⟩ := ok_of_map_eq_ok h
  obtain ⟨rfl, rfl⟩ := Prod.mk.inj hgive
  obtain ⟨ha, hinput⟩ := hf input a r hread
  refine ⟨?_, ?_⟩
  · show P (back (forth a))
    rw [hforth]
    exact ha
  · show input = f.write (back (forth a)) ++ r
    rw [hforth]
    exact hinput

end Format

open Format

/-! ### Messages -/

theorem takes_command : command.Takes fun _ => True := takes_oneOf (by decide)

theorem takes_request : request.Takes RequestFits := by
  have hfields := takes_command.pair (takes_text.pair (takes_word.pair
    (takes_word.option.pair (takes_bytes.pair takes_bytes.option))))
  intro input r rest h
  obtain ⟨⟨-, hset, -, -, hpayload, haux⟩, hinput⟩ :=
    hfields.via (fun _ => rfl) input r rest h
  exact ⟨⟨hset, hpayload, haux⟩, hinput⟩

/-- A result behind its index is made from what the format for that index takes. -/
theorem of_indexed {α : Type} {P : α → Prop} {f : Format α} (hf : f.Takes P) (make : α → Body)
    {give : α × Bytes → Body × Bytes} (hgive : ∀ a r, give (a, r) = (make a, r))
    {input r rest : Bytes} {b : Body} {index : UInt32} {n : Nat}
    (hinput : input = word.write index ++ r) (hindex : index.toNat = n)
    (h : (f.read r).map give = .ok (b, rest)) :
    ∃ a, P a ∧ b = make a ∧ input = word.write (UInt32.ofNat n) ++ f.write a ++ rest := by
  obtain ⟨⟨a, r'⟩, hread, hmade⟩ := ok_of_map_eq_ok h
  rw [hgive] at hmade
  obtain ⟨rfl, rfl⟩ := Prod.mk.inj hmade
  obtain ⟨ha, hr⟩ := hf r a r' hread
  refine ⟨a, ha, rfl, ?_⟩
  rw [hinput, hr, ← hindex, UInt32.ofNat_toNat, List.append_assoc]

theorem takes_body : body.Takes BodyFits := by
  intro input b rest h
  obtain ⟨⟨index, r⟩, hread, hrest⟩ := ok_of_bind_eq_ok h
  obtain ⟨-, hinput⟩ := takes_word input index r hread
  -- the index decides which parts follow
  simp only at hrest
  split at hrest
  · next hindex =>
    obtain ⟨content, hfits, rfl, htaken⟩ :=
      of_indexed takes_bytes .bytes (fun _ _ => rfl) hinput hindex hrest
    exact ⟨hfits, htaken⟩
  · next hindex =>
    obtain ⟨v, -, rfl, htaken⟩ :=
      of_indexed takes_bool .verdict (fun _ _ => rfl) hinput hindex hrest
    exact ⟨trivial, htaken⟩
  · next hindex =>
    obtain ⟨⟨version, secret⟩, hfits, rfl, htaken⟩ :=
      of_indexed (takes_word.pair takes_bytes) (fun p => .secretKey p.1 p.2) (fun _ _ => rfl)
        hinput hindex hrest
    exact ⟨hfits.2, htaken⟩
  · next hindex =>
    obtain ⟨⟨version, publicBytes, privateBytes⟩, hfits, rfl, htaken⟩ :=
      of_indexed (takes_word.pair (takes_bytes.pair takes_bytes))
        (fun p => .keyPair p.1 p.2.1 p.2.2) (fun _ _ => rfl) hinput hindex hrest
    exact ⟨hfits.2, htaken⟩
  · cases hrest

/-- A class of errors is known by its name. -/
theorem name_of_ofName? {name : String} {k : FaultKind} (h : FaultKind.ofName? name = some k) :
    k.name = name := by
  have hfound := List.find?_some h
  exact eq_of_beq hfound

theorem takes_faultKind : faultKind.Takes fun _ => True := by
  intro input k rest h
  obtain ⟨⟨name, r⟩, hread, hrest⟩ := ok_of_bind_eq_ok h
  obtain ⟨-, hinput⟩ := takes_text input name r hread
  cases hkind : FaultKind.ofName? name with
  | none => simp only [hkind] at hrest; cases hrest
  | some k' =>
    simp only [hkind] at hrest
    obtain ⟨rfl, rfl⟩ := Prod.mk.inj (Except.ok.inj hrest)
    rw [← name_of_ofName? hkind] at hinput
    exact ⟨trivial, hinput⟩

theorem takes_status : status.Takes fun _ => True := takes_oneOf (by decide)

theorem takes_response : response.Takes ResponseFits := by
  have hfields := takes_status.pair (takes_body.option.pair (takes_faultKind.option.pair
    takes_text.option))
  intro input r rest h
  obtain ⟨⟨-, hresult, -, hmessage⟩, hinput⟩ := hfields.via (fun _ => rfl) input r rest h
  exact ⟨⟨hresult, hmessage⟩, hinput⟩

/-! ### Reading, completely -/

/-- What a format promises of the values that hold `P`. -/
structure Faithful {α : Type} (f : Format α) (P : α → Prop) : Prop where
  /-- Bytes are read as a value just if they begin with the bytes of that value. -/
  decoded_iff : ∀ a, P a → ∀ b, decode f b = .ok a ↔ encode f a <+: b
  /-- Reading undoes writing. -/
  undone : ∀ a, P a → decode f (encode f a) = .ok a
  /-- No two values have the same bytes. -/
  injective : ∀ a, P a → ∀ a', P a' → encode f a = encode f a' → a = a'
  /-- The bytes of a value do not begin those of another. -/
  apart : ∀ a, P a → ∀ a', P a' → encode f a <+: encode f a' → encode f a = encode f a'
  /-- Bytes that begin with the bytes of no value are refused. -/
  refused : ∀ b, (∀ a, P a → ¬ encode f a <+: b) → ∃ cause, decode f b = .error cause

/-- Bytes from which a value is read begin with the bytes of that value. -/
theorem of_decode {α : Type} {f : Format α} {P : α → Prop} (hf : f.Takes P) {b : Bytes} {a : α}
    (h : decode f b = .ok a) : P a ∧ encode f a <+: b := by
  obtain ⟨⟨a', rest⟩, hread, rfl⟩ := ok_of_map_eq_ok h
  obtain ⟨ha, hb⟩ := hf b a' rest hread
  exact ⟨ha, rest, hb.symm⟩

/-- A format that reads what it writes, and takes nothing else, keeps every promise. -/
theorem faithful_of_takes {α : Type} {f : Format α} {P : α → Prop} (hreads : ∀ a, P a → f.Reads a)
    (htakes : f.Takes P) : Faithful f P := by
  have hdecoded : ∀ a, P a → ∀ b, decode f b = .ok a ↔ encode f a <+: b := by
    intro a ha b
    constructor
    · intro h
      exact (of_decode htakes h).2
    · rintro ⟨rest, rfl⟩
      rw [decode, encode, hreads a ha rest]
      rfl
  have hundone : ∀ a, P a → decode f (encode f a) = .ok a :=
    fun a ha => decode_encode (hreads a ha)
  -- bytes that begin with those of two values are read as both
  have hsame : ∀ a, P a → ∀ a', P a' → encode f a <+: encode f a' → a = a' := by
    intro a ha a' ha' h
    have hread := (hdecoded a ha (encode f a')).mpr h
    rw [hundone a' ha'] at hread
    exact (Except.ok.inj hread).symm
  refine
    { decoded_iff := hdecoded
      undone := hundone
      injective := ?injective
      apart := ?apart
      refused := ?refused }
  case injective =>
    intro a ha a' ha' h
    exact hsame a ha a' ha' (h ▸ List.prefix_rfl)
  case apart =>
    intro a ha a' ha' h
    rw [hsame a ha a' ha' h]
  case refused =>
    intro b h
    cases hread : decode f b with
    | error cause => exact ⟨cause, rfl⟩
    | ok a =>
      obtain ⟨ha, hbegins⟩ := of_decode htakes hread
      exact absurd hbegins (h a ha)

/-- Requests and responses are read exactly from the bytes that begin with theirs. A session
    answers a body that begins with no request as malformed and goes on as it was, and a
    client takes a body that begins with no response for a malformed answer. -/
theorem messages_read_exactly :
    Faithful request RequestFits ∧ Faithful response ResponseFits
    ∧ (∀ body : Bytes, (∀ r, RequestFits r → ¬ encode request r <+: body) →
        ∃ cause, decode request body = .error cause
          ∧ (Fault.malformed (.undecodable cause)).kind = .malformed
          ∧ ∀ b draws (s : Session), s.answer b draws body
            = (.ofFault (.malformed (.undecodable cause)), s, [.undecodable s.connection.id cause]))
    ∧ (∀ body : Bytes, (∀ r, ResponseFits r → ¬ encode response r <+: body) →
        ∃ cause fault, decode response body = .error cause ∧ Client.outcome body = .error fault
          ∧ fault.kind = .malformed) := by
  have hrequest : Faithful request RequestFits :=
    faithful_of_takes (fun _ h => reads_request h) takes_request
  have hresponse : Faithful response ResponseFits :=
    faithful_of_takes (fun _ h => reads_response h) takes_response
  refine ⟨hrequest, hresponse, ?_, ?_⟩
  · intro body h
    obtain ⟨cause, hcause⟩ := hrequest.refused body h
    refine ⟨cause, hcause, rfl, ?_⟩
    intro b draws s
    rw [Session.answer, hcause]
  · intro body h
    obtain ⟨cause, hcause⟩ := hresponse.refused body h
    refine ⟨cause, .protocol (.undecodable cause), hcause, ?_, rfl⟩
    rw [Client.outcome, hcause]

/-- A request is read off its bytes with one byte behind them. A ping whose first option byte
    is neither of the two, and a response with an error of no known class, are refused. -/
theorem messages_read_exactly_spoiled :
    let r : Request := { command := .retrieve, set := "ü", version := 3, aux := some [1] }
    let ping : Bytes := List.replicate 16 0 ++ [2]
    let failure : Bytes := [1, 0, 0, 0, 0, 1] ++ ([1, 0, 0, 0, 0, 0, 0, 0] ++ [0x78]) ++ [0]
    decode request (encode request r ++ [7]) = .ok r
      ∧ (∃ cause, decode request ping = .error cause
        ∧ ∀ b draws (s : Session), (s.answer b draws ping).1.kind = some .malformed
          ∧ (s.answer b draws ping).1 = .ofFault (.malformed (.undecodable cause)))
      ∧ ∃ fault, Client.outcome failure = .error fault ∧ fault.kind = .malformed := by
  intro r ping failure
  obtain ⟨hrequest, hresponse, hping, hfailure⟩ := messages_read_exactly
  have hfits : RequestFits r := by
    refine ⟨by decide, by decide, ?_⟩
    rintro _ ⟨⟩
    decide
  -- bytes that are refused begin with no message, as such bytes would be read
  have hbad : (decode request ping).toOption = none := by decide +kernel
  have hunknown : (decode response failure).toOption = none := by decide +kernel
  refine ⟨?_, ?_, ?_⟩
  · exact (hrequest.decoded_iff r hfits _).mpr (List.prefix_append _ _)
  · obtain ⟨cause, hcause, -, hanswer⟩ := hping ping fun r' hr' hbegins => by
      rw [(hrequest.decoded_iff r' hr' ping).mpr hbegins] at hbad
      cases hbad
    refine ⟨cause, hcause, ?_⟩
    intro b draws s
    rw [hanswer]
    exact ⟨rfl, rfl⟩
  · obtain ⟨-, fault, -, hfault, hkind⟩ := hfailure failure fun r' hr' hbegins => by
      rw [(hresponse.decoded_iff r' hr' failure).mpr hbegins] at hunknown
      cases hunknown
    exact ⟨fault, hfault, hkind⟩

end Wire

end KeyBroker
