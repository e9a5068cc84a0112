import KeyBroker.Proofs.Access.Rotation
import KeyBroker.Proofs.Stream.Credit
import KeyBroker.Proofs.Stream.Direct
import KeyBroker.Proofs.Stream.Replies

/-! # Decrypting what was encrypted

  A client encrypts under a secret, and later asks for the ciphertext to be decrypted on the
  same connection. The box opens to what was sealed. But a ciphertext is longer than its
  message, and a request is longer than the response that brought the ciphertext, so a client
  may be given a ciphertext that it cannot send back. The sizes decide which: a request for
  decryption that is within the limit is answered by the message, and any other is not sent.
  The invariants of a run with one limit at both ends:

  - as long as the session serves, nothing is left to be read, and the session is one that
    requests handed over directly leave;
  - such requests leave the capability in force as it is.
-/

namespace KeyBroker

open Wire (encode)

/-! ### Sizes -/

namespace Wire

/-- A request that names no algorithm and has no signature is its set and its payload, and
    26 bytes around them. -/
theorem length_encode_request (command : Command) (set : String) (version : UInt32)
    (payload : Bytes) :
    (encode request ⟨command, set, version, none, payload, none⟩).length
      = 26 + (Text.Utf8.encode set).length + payload.length := by
  have hwritten : encode request ⟨command, set, version, none, payload, none⟩
      = Wire.command.write command ++ (Format.text.write set ++ (Format.word.write version
        ++ ((0 : UInt8) :: [] ++ (Format.bytes.write payload ++ (0 : UInt8) :: [])))) := rfl
  have hcommand : (Wire.command.write command).length = 4 := Bytes.length_ofNatLE 4 _
  have hversion : (Format.word.write version).length = 4 := Bytes.length_ofNatLE 4 _
  have hpayload : (Format.bytes.write payload).length = 8 + payload.length := by
    show (Bytes.ofNatLE 8 payload.length ++ payload).length = _
    rw [List.length_append, Bytes.length_ofNatLE]
  rw [hwritten]
  simp only [List.length_append, List.length_cons, List.length_nil, length_text, hcommand,
    hversion, hpayload]
  omega

/-- A response that carries bytes is those bytes and 19 around them. -/
theorem length_encode_bytes (given : Bytes) :
    (encode response (.success (.bytes given))).length = 19 + given.length := by
  have hwritten : encode response (.success (.bytes given))
      = status.write .ok ++ (((1 : UInt8) :: (Format.word.write 0 ++ Format.bytes.write given))
        ++ ((0 : UInt8) :: [] ++ (0 : UInt8) :: [])) := rfl
  have hstatus : (status.write .ok).length = 4 := Bytes.length_ofNatLE 4 _
  have hindex : (Format.word.write 0).length = 4 := Bytes.length_ofNatLE 4 _
  have hgiven : (Format.bytes.write given).length = 8 + given.length := by
    show (Bytes.ofNatLE 8 given.length ++ given).length = _
    rw [List.length_append, Bytes.length_ofNatLE]
  rw [hwritten]
  simp only [List.length_append, List.length_cons, List.length_nil, hstatus, hindex, hgiven]
  omega

end Wire

/-- A ciphertext under a secret is the message and 28 bytes around it. -/
theorem Operation.length_of_run_encrypt {p : Primitive} {secret message given : Bytes}
    {draw : Draw} {aux : Option Bytes}
    (h : Operation.encrypt.run p (.secret secret) draw message aux = .ok (.bytes given)) :
    given.length = message.length + 28 := by
  cases p with
  | cipher c =>
    cases c with
    | standard =>
      have hseal : sealWith secret draw.nonce message = .ok given := ok_of_algorithm h
      unfold sealWith at hseal
      split at hseal
      · cases hseal
      split at hseal
      · cases hseal
      obtain rfl := Except.ok.inj hseal
      rw [Crypto.Gcm.length_sealed, Vector.length_toList]
      show 12 + message.length + 16 = _
      omega
    | oaep hash => cases h
  | mac hash => cases h
  | signature hash => cases h

/-! ### The capability in force -/

namespace Broker

variable {b : Broker} {draw : Draw} {c : Connection} {caller : Caller} {q r : Request}

/-- A request leaves the capability in force as it is, for as long as the policy stays: what
    the connection comes to know is what the gate says. -/
theorem inForce_handle (hcaller : c.caller = some caller) (set : String) :
    b.inForce (b.handle draw c r).connection caller set = b.inForce c caller set := by
  obtain ⟨hsame, -⟩ | ⟨asker, hkeyed, hnew, hconnection, -⟩ := handle_cases b draw c r
  · rw [hsame]
  · have hasker : asker = caller :=
      Option.some.inj (hkeyed.authenticated.symm.trans hcaller)
    subst hasker
    cases hknown : c.known? set with
    | some capability =>
      rw [inForce, inForce, known?_handle hknown, hknown]
    | none =>
      rw [inForce, inForce, hknown, Option.none_or, hconnection]
      cases hafter : (c.remember r.set (b.gate asker r.set)).known? set with
      | none => rfl
      | some capability =>
        rcases Connection.known?_remember hafter with hold | ⟨rfl, hgranted⟩
        · rw [hknown] at hold
          cases hold
        · rw [hgranted]
          rfl

/-- So what is permitted stays permitted. -/
theorem permits_handle : b.permits (b.handle draw c r).connection q = b.permits c q := by
  unfold permits
  rw [handle_identity.2]
  cases hcaller : c.caller with
  | none => rfl
  | some caller =>
    show (b.inForce _ caller q.set).any _ = (b.inForce c caller q.set).any _
    rw [inForce_handle hcaller]

/-- Who is given a result was permitted what it asked for. -/
theorem permits_of_success {body : Body} (hping : r.command ≠ .ping)
    (h : (b.handle draw c r).response = .success body) : b.permits c r = true := by
  have hmeets := not_meets_of_success hping h .notPermitted
  simpa [meets] using hmeets

/-! ### Sealing and opening -/

/-- The request to encrypt a message under a version, with the standard algorithm. -/
def encryption (set : String) (v : UInt32) (message : Bytes) : Request :=
  ⟨.operate .encrypt, set, v, none, message, none⟩

/-- The request to decrypt a ciphertext under it. -/
def decryption (set : String) (v : UInt32) (box : Bytes) : Request :=
  ⟨.operate .decrypt, set, v, none, box, none⟩

/-- Whether a request is permitted depends on its set and its action only. -/
theorem permits_congr (hset : q.set = r.set) (haction : q.command.action = r.command.action) :
    b.permits c q = b.permits c r := by
  unfold permits
  rw [hset, haction]

/-- A version that a store has is the key of what asks for it by its number. -/
theorem keyFor?_of_get {v : KeyVersion} (hversion : q.version = v.number) (hnumber : v.number ≠ 0)
    (hget : b.store.get q.set (.exactly v.number) = .ok v) : b.keyFor? q = some v :=
  keyFor?_of_shown (KeyStore.get_exactly_eq_ok_iff.mp hget).1 hnumber hversion

variable {set : String} {v : UInt32} {secret message box : Bytes}

/-- A box that was given for a message is 28 bytes longer. -/
theorem length_of_sealed (hversion : v ≠ 0)
    (hget : b.store.get set (.exactly v) = .ok ⟨v, .secret secret⟩)
    (hgiven : (b.handle draw c (encryption set v message)).response = .success (.bytes box)) :
    box.length = message.length + 28 := by
  have hkey : b.keyFor? (encryption set v message) = some ⟨v, .secret secret⟩ :=
    keyFor?_of_get rfl hversion hget
  obtain ⟨-, p, -, hrun⟩ := run_of_given rfl hkey hgiven
  exact Operation.length_of_run_encrypt hrun

/-- It opens to the message for whoever is permitted what its sealer was. -/
theorem opens_of_sealed {c' : Connection} (redraw : Draw) (hversion : v ≠ 0)
    (hget : b.store.get set (.exactly v) = .ok ⟨v, .secret secret⟩)
    (hgiven : (b.handle draw c (encryption set v message)).response = .success (.bytes box))
    (hpermits : b.permits c' (encryption set v message) = true) :
    (b.handle redraw c' (decryption set v box)).response = .success (.bytes message) := by
  have hkey : b.keyFor? (encryption set v message) = some ⟨v, .secret secret⟩ :=
    keyFor?_of_get rfl hversion hget
  have hkey' : b.keyFor? (decryption set v box) = some ⟨v, .secret secret⟩ :=
    keyFor?_of_get rfl hversion hget
  obtain ⟨hset, p, hresolve, hrun⟩ := run_of_given rfl hkey hgiven
  have hopens : Operation.decrypt.run p (.secret secret) redraw box none
      = .ok (.bytes message) := Operation.run_decrypt_of_run_encrypt redraw none hrun
  have hresolve' : b.registry.resolve .decrypt none = .ok p := by
    rw [b.registry.resolve_decrypt]
    exact hresolve
  have hpermits' : b.permits c' (decryption set v box) = true := by
    rw [← hpermits]
    exact permits_congr rfl rfl
  have hunsigned : ¬ (Operation.decrypt = .verify ∧ (none : Option Bytes) = none) := nofun
  exact handle_of_run (q := decryption set v box) rfl hset hpermits' hkey' hresolve' hunsigned
    hopens

end Broker

namespace Session

variable {b : Broker} {draws : Draws} {s : Session} {q : Request}

/-- Nor do any requests that are handed over. -/
theorem permits_past (rs : List Request) :
    b.permits (s.past b draws rs).connection q = b.permits s.connection q := by
  induction rs generalizing s with
  | nil => rfl
  | cons r rest ih => exact ih.trans Broker.permits_handle

end Session

namespace Link

variable {b : Broker} {draws : Draws} {limits : LinkLimits} {s : Session}

/-! ### Links that serve -/

/-- A session that serves at some place in a run, and still serves later, came there by
    requests handed over directly. -/
theorem later_of_serving {calls : List Call} {i j : Nat} {now : Session}
    (hle : limits.server ≤ limits.client) (hlater : i ≤ j) (hlength : j ≤ calls.length)
    (hnow : (opened s).after b draws limits (calls.take i) = opened now)
    (hserves : ((opened s).after b draws limits (calls.take j)).ending = none) :
    ∃ rs, (opened s).after b draws limits (calls.take j) = opened (now.past b draws rs) := by
  have hopened : (opened s).after b draws limits (calls.take i)
      = opened (s.past b draws (sentBefore limits calls i)) := by
    apply opened_of_clear (Nat.le_trans hlater hlength) fun k _ => not_refusedAt hle k
    rw [hnow]
    rfl
  have hsession : now = s.past b draws (sentBefore limits calls i) :=
    congrArg Link.session (hnow.symm.trans hopened)
  obtain ⟨more, hmore⟩ := @sentBefore_of_le limits calls i j hlater
  refine ⟨more, ?_⟩
  rw [opened_of_clear hlength (fun k _ => not_refusedAt hle k) hserves, hmore,
    Session.past_append, hsession]

/-- A request that is too long is reported, and nothing is sent. -/
theorem call_of_not_fits (b : Broker) (draws : Draws) (l : Link) {c : Call}
    (h : ¬ Frame.Fits limits.client (encode Wire.request c.request)) :
    (l.call b draws limits c).1
        = some (.error (.protocol
            (.unwritable (encode Wire.request c.request).length limits.client)))
      ∧ (l.call b draws limits c).2.1 = l := by
  obtain ⟨hresult, hafter⟩ := call_eq b draws limits l c
  rw [hresult, hafter]
  simp only [exchange, Client.frame_of_not_fits h]
  exact ⟨rfl, trivial⟩

/-! ### The round trip -/

variable {calls : List Call} {i j : Nat} {set : String} {v : UInt32}
  {secret message box : Bytes}

/-- A ciphertext is given by a session that serves, and that the request was handed to. -/
theorem sealed_of_given (hle : limits.server ≤ limits.client)
    (hcall : calls[i]? = some (.operate .encrypt set v none message none))
    (hgiven : (opened s).given b draws limits calls i = some (some (.ok (.bytes box)))) :
    ∃ now : Session, (opened s).after b draws limits (calls.take (i + 1))
        = opened (now.next b draws (Broker.encryption set v message))
      ∧ (now.direct b draws (Broker.encryption set v message)).response
        = .success (.bytes box) := by
  have hclear : ∀ k < i, ¬ RefusedAt b draws limits s calls k := fun k _ => not_refusedAt hle k
  have haligned := aligned_of_clear hcall hclear
  rw [given_eq hcall] at hgiven
  -- what the call makes of a result shows that the result is the ciphertext
  obtain ⟨-, hnext, body, houtcome, hvalue⟩ := haligned.own (.bytes box) (Option.some.inj hgiven)
  have hresponse := Broker.response_of_outcome houtcome
  refine ⟨_, hnext, ?_⟩
  cases body with
  | bytes given =>
    obtain rfl := Value.bytes.inj (Except.ok.inj hvalue)
    exact hresponse
  | verdict valid => cases hvalue
  | secretKey version bytes => cases hvalue
  | keyPair version publicBytes privateBytes => cases hvalue

/-- With one limit at both ends, a call whose request and result are within it is given what
    it makes of the result. -/
theorem call_of_success {now : Session} {c : Call} {body : Body} {value : Value}
    (hsame : limits.server = limits.client)
    (hsends : Frame.Fits limits.client (encode Wire.request c.request))
    (hfits : Frame.Fits limits.client (encode Wire.response (.success body)))
    (hsuccess : (now.direct b draws c.request).response = .success body)
    (hvalue : c.value body = .ok value) :
    ((opened now).call b draws limits c).1 = some (.ok value) := by
  rw [← hsuccess] at hfits
  obtain ⟨hresult, -⟩ := exchange_of_sends hsame (decide_eq_true hsends) hfits
  have houtcome : (now.direct b draws c.request).response.outcome = .ok body := by
    rw [hsuccess]
    rfl
  rw [(call_eq b draws limits (opened now) c).1, hresult, houtcome]
  exact congrArg some hvalue

/-- A request for decryption that is within the limit is given the message: the response is
    shorter than the request. -/
theorem call_of_opens {now : Session} (hsame : limits.server = limits.client)
    (hsends : Frame.Fits limits.client
      (encode Wire.request (Broker.decryption set v box)))
    (hlength : box.length = message.length + 28)
    (hopens : (now.direct b draws (Broker.decryption set v box)).response
      = .success (.bytes message)) :
    ((opened now).call b draws limits (.operate .decrypt set v none box none)).1
      = some (.ok (.bytes message)) := by
  have hfits : Frame.Fits limits.client (encode Wire.response (.success (.bytes message))) := by
    have hshort := hsends.short
    have hword := hsends.word
    rw [Broker.decryption, Wire.length_encode_request] at hshort hword
    have hresponse := Wire.length_encode_bytes message
    exact ⟨by omega, by omega⟩
  have hvalue : (Call.operate .decrypt set v none box none).value (.bytes message)
      = .ok (.bytes message) := rfl
  exact call_of_success hsame hsends hfits hopens hvalue

/-- What a client could encrypt it can decrypt, if it can send the ciphertext. On a connection
    with one limit at both ends, a call to encrypt under a secret is given a box. The box has
    28 bytes more than the message, and so the request to decrypt it has as many bytes as the
    message and the name of the set, and 54 more. At any later call, if the request is within
    the limit, and a session still serves (as it does right after the first call), the
    decryption gives the message. If it is not, the call fails by its length, nothing is sent
    and nothing changes. -/
theorem decrypts_what_it_encrypted (b : Broker) (draws : Draws) (limits : LinkLimits)
    (s : Session) (calls : List Call) (i j : Nat) (set : String) (v : UInt32)
    (secret message box : Bytes) (hsame : limits.server = limits.client) (hversion : v ≠ 0)
    (hget : b.store.get set (.exactly v) = .ok ⟨v, .secret secret⟩)
    (hencrypt : calls[i]? = some (.operate .encrypt set v none message none))
    (hgiven : (opened s).given b draws limits calls i = some (some (.ok (.bytes box))))
    (hlater : i < j) (hdecrypt : calls[j]? = some (.operate .decrypt set v none box none)) :
    let size := message.length + (Text.Utf8.encode set).length + 54
    let before := (opened s).after b draws limits (calls.take j)
    box.length = message.length + 28
      ∧ (size ≤ limits.client ∧ size < Frame.sizeBound → j = i + 1 ∨ before.ending = none →
        (opened s).given b draws limits calls j = some (some (.ok (.bytes message))))
      ∧ (¬ (size ≤ limits.client ∧ size < Frame.sizeBound) →
        (opened s).given b draws limits calls j
            = some (some (.error (.protocol (.unwritable size limits.client))))
          ∧ (opened s).after b draws limits (calls.take (j + 1)) = before) := by
  intro size before
  have hle : limits.server ≤ limits.client := Nat.le_of_eq hsame
  obtain ⟨now, hafter, hsealed⟩ := sealed_of_given hle hencrypt hgiven
  have hping : (Broker.encryption set v message).command ≠ .ping := nofun
  have hpermits := Broker.permits_of_success hping hsealed
  have hlength : box.length = message.length + 28 :=
    Broker.length_of_sealed hversion hget hsealed
  have hsize : (encode Wire.request (Broker.decryption set v box)).length = size := by
    rw [Broker.decryption, Wire.length_encode_request, hlength]
    show _ = message.length + (Text.Utf8.encode set).length + 54
    omega
  have hfits : Frame.Fits limits.client (encode Wire.request (Broker.decryption set v box))
      ↔ size ≤ limits.client ∧ size < Frame.sizeBound := by
    rw [← hsize]
    exact ⟨fun h => ⟨h.short, h.word⟩, fun h => ⟨h.1, h.2⟩⟩
  refine ⟨hlength, ?_, ?_⟩
  · intro hwithin hserves
    have hserving : before.ending = none := by
      rcases hserves with rfl | hending
      · show ((opened s).after b draws limits (calls.take (i + 1))).ending = none
        rw [hafter]
        rfl
      · exact hending
    have hwhole : j ≤ calls.length := Nat.le_of_lt (List.getElem?_eq_some_iff.mp hdecrypt).1
    obtain ⟨rs, hrs⟩ := later_of_serving hle hlater hwhole hafter hserving
    have hpermits' : b.permits
        ((now.next b draws (Broker.encryption set v message)).past b draws rs).connection
        (Broker.encryption set v message) = true := by
      rw [Session.permits_past]
      exact Broker.permits_handle.trans hpermits
    rw [given_eq hdecrypt]
    rw [hrs]
    refine congrArg some (call_of_opens hsame (hfits.mpr hwithin) hlength ?_)
    exact Broker.opens_of_sealed (draws _) hversion hget hsealed hpermits'
  · intro hbeyond
    have hunfit : ¬ Frame.Fits limits.client
        (encode Wire.request (Call.operate .decrypt set v none box none).request) :=
      fun h => hbeyond (hfits.mp h)
    obtain ⟨hresult, hsame'⟩ := call_of_not_fits b draws before hunfit
    refine ⟨?_, ?_⟩
    · rw [given_eq hdecrypt, ← hsize]
      exact congrArg some hresult
    · rw [after_take_succ hdecrypt]
      exact hsame'

/-! ### A ciphertext that cannot be sent back -/

/-- A broker with one secret, which everyone may use. -/
def vault : Broker where
  store :=
    ⟨[⟨"s", .symmetric, [⟨1, .secret (List.replicate 16 7)⟩], by decide, by decide, by decide⟩],
      by decide, by decide⟩
  gate := fun _ _ => some .operate
  registry := {}

def vaultDraws : Draws := fun _ => ⟨Vector.replicate 12 0, Vector.replicate 64 0, 1⟩

def vaultSession : Session := { connection := { id := 1, caller := some ⟨1000, 100, some 42⟩ } }

theorem vault_get :
    vault.store.get "s" (.exactly 1) = .ok ⟨1, .secret (List.replicate 16 7)⟩ := by
  decide +kernel

/-- The box that the broker gives for a message. -/
def vaultBox (message : Bytes) : Bytes :=
  Crypto.Gcm.sealed (List.replicate 16 7) (Vector.replicate 12 0).toList message

theorem length_vaultBox (message : Bytes) :
    (vaultBox message).length = message.length + 28 := by
  rw [vaultBox, Crypto.Gcm.length_sealed, Vector.length_toList]
  show 12 + message.length + 16 = _
  omega

/-- With room for the response, the box is given. -/
theorem given_vaultBox {limit : Nat} {message : Bytes} (hlimit : limit < Frame.sizeBound)
    (hroom : message.length + 47 ≤ limit) (rest : List Call) :
    (opened vaultSession).given vault vaultDraws { client := limit, server := limit }
        (.operate .encrypt "s" 1 none message none :: rest) 0
      = some (some (.ok (.bytes (vaultBox message)))) := by
  have hset : (Text.Utf8.encode "s").length = 1 := by decide
  have hrequest := Wire.length_encode_request (.operate .encrypt) "s" 1 message
  have hresponse := Wire.length_encode_bytes (vaultBox message)
  rw [hset] at hrequest
  rw [length_vaultBox] at hresponse
  have hshort : ¬ message.length > Crypto.Gcm.maxMessage := by
    have hbounds : Frame.sizeBound ≤ Crypto.Gcm.maxMessage := by decide
    omega
  have hrun : Operation.encrypt.run (.cipher .standard) (.secret (List.replicate 16 7))
      (vaultDraws 0) message none = .ok (.bytes (vaultBox message)) := by
    have hseal : sealWith (List.replicate 16 7) (vaultDraws 0).nonce message
        = .ok (vaultBox message) := by
      unfold sealWith
      rw [if_neg (by decide), if_neg hshort]
      rfl
    show ((sealWith _ _ message).mapError KeyFault.algorithm).map Outcome.bytes = _
    rw [hseal]
    rfl
  have hsuccess : (vaultSession.direct vault vaultDraws
      (Broker.encryption "s" 1 message)).response = .success (.bytes (vaultBox message)) := by
    have hkey : vault.keyFor? (Broker.encryption "s" 1 message)
        = some ⟨1, .secret (List.replicate 16 7)⟩ :=
      Broker.keyFor?_of_get rfl (by decide) vault_get
    have hnamed : "s" ≠ "" := by decide
    exact Broker.handle_of_run (q := Broker.encryption "s" 1 message) rfl hnamed rfl hkey rfl
      nofun hrun
  have hsends : Frame.Fits limit (encode Wire.request (Broker.encryption "s" 1 message)) := by
    rw [Broker.encryption]
    exact ⟨by omega, by omega⟩
  have hfits : Frame.Fits limit
      (encode Wire.response (.success (.bytes (vaultBox message)))) :=
    ⟨by omega, by omega⟩
  rw [given_eq (i := 0) rfl]
  exact congrArg some (call_of_success rfl hsends hfits hsuccess rfl)

/-- The response that brings a ciphertext may be within the limit when the request that takes
    it back is not: an empty message is sealed in 28 bytes, which 47 bytes bring and 55 take
    back. -/
theorem box_beyond_limit :
    ¬ ∀ (b : Broker) (draws : Draws) (m : Nat) (s : Session) (set : String) (v : UInt32)
      (secret message box : Bytes), v ≠ 0 → secret.length = 16 ∨ secret.length = 32 →
      b.store.get set (.exactly v) = .ok ⟨v, .secret secret⟩ →
      b.permits s.connection (Broker.encryption set v message) = true →
      let limits : LinkLimits := { client := m, server := m }
      let calls : List Call := [.operate .encrypt set v none message none,
        .operate .decrypt set v none box none]
      (opened s).given b draws limits calls 0 = some (some (.ok (.bytes box))) →
      (opened s).given b draws limits calls 1 = some (some (.ok (.bytes message))) := by
  intro hall
  let limits : LinkLimits := { client := 50, server := 50 }
  let calls : List Call := [.operate .encrypt "s" 1 none [] none,
    .operate .decrypt "s" 1 none (vaultBox []) none]
  have hgiven : (opened vaultSession).given vault vaultDraws limits calls 0
      = some (some (.ok (.bytes (vaultBox [])))) := given_vaultBox (by decide) (by decide) _
  have hback := hall vault vaultDraws 50 vaultSession "s" 1 (List.replicate 16 7) [] (vaultBox [])
    (by decide) (Or.inl rfl) vault_get rfl hgiven
  let back : Call := .operate .decrypt "s" 1 none (vaultBox []) none
  have hlong : ¬ Frame.Fits limits.client (encode Wire.request back.request) := by
    intro hfits
    have hset : (Text.Utf8.encode "s").length = 1 := by decide
    have hlength : (encode Wire.request back.request).length
        = 26 + (Text.Utf8.encode "s").length + (vaultBox []).length :=
      Wire.length_encode_request (.operate .decrypt) "s" 1 (vaultBox [])
    have hshort : (encode Wire.request back.request).length ≤ 50 := hfits.short
    rw [hlength, length_vaultBox, hset] at hshort
    exact absurd hshort (by decide)
  have hcall : calls[1]? = some back := rfl
  rw [given_eq hcall] at hback
  have hunsent := (call_of_not_fits vault vaultDraws
    ((opened vaultSession).after vault vaultDraws limits (calls.take 1)) hlong).1
  have hfault := hunsent.symm.trans (Option.some.inj hback)
  exact nomatch Option.some.inj hfault

/-- A limit that the request just reaches, and one that it just misses. -/
theorem decrypts_what_it_encrypted_at_limit :
    let message : Bytes := [1, 2, 3]
    let calls : List Call := [.operate .encrypt "s" 1 none message none,
      .operate .decrypt "s" 1 none (vaultBox message) none]
    let given := fun m => (opened vaultSession).given vault vaultDraws
      { client := m, server := m } calls
    given 58 0 = some (some (.ok (.bytes (vaultBox message))))
      ∧ given 58 1 = some (some (.ok (.bytes message)))
      ∧ given 57 0 = some (some (.ok (.bytes (vaultBox message))))
      ∧ given 57 1 = some (some (.error (.protocol (.oversized 58 57)))) := by
  intro message calls given
  have hset : (Text.Utf8.encode "s").length = 1 := by decide
  have hfirst : ∀ m, message.length + 47 ≤ m → m < Frame.sizeBound →
      given m 0 = some (some (.ok (.bytes (vaultBox message)))) := by
    intro m hroom hlimit
    exact given_vaultBox hlimit hroom _
  have hreached := decrypts_what_it_encrypted vault vaultDraws { client := 58, server := 58 }
    vaultSession calls 0 1 "s" 1 _ message (vaultBox message) rfl (by decide) vault_get rfl
    (hfirst 58 (by decide) (by decide)) (by decide) rfl
  have hmissed := decrypts_what_it_encrypted vault vaultDraws { client := 57, server := 57 }
    vaultSession calls 0 1 "s" 1 _ message (vaultBox message) rfl (by decide) vault_get rfl
    (hfirst 57 (by decide) (by decide)) (by decide) rfl
  rw [hset] at hreached hmissed
  exact ⟨hfirst 58 (by decide) (by decide), hreached.2.1 (by decide) (Or.inl rfl),
    hfirst 57 (by decide) (by decide), (hmissed.2.2 (by decide)).1⟩

end Link

end KeyBroker
