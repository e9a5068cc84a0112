import Mathlib.Data.List.TakeWhile
import Mathlib.Data.Nat.Digits.Defs
import KeyBroker.Config.Basic
import KeyBroker.Proofs.Stream.Exchange

/-! # One reply for each frame

  A session replies to every frame within its limit, whatever is in it, for as long as it
  can send something. A response goes out as it is, or as a notice in its place; where not
  even the notice is within the limit nothing can go out, and the session ends. The run of a
  session is told from the responses alone: what is written is their longest start of
  sendable ones. A limit that has room for every notice keeps every session going; a
  configuration may set a lower one.
-/

namespace KeyBroker

open Wire (encode)

/-! ### Limits -/

namespace Config

/-- The limit of a configuration that checks is one that headers can say. -/
theorem frameLimit_of_check {c : Config} (h : c.check = .ok ()) :
    c.server.frameLimit.toNat < Frame.sizeBound := by
  unfold check at h
  split at h
  · cases h
  split at h
  · cases h
  split at h
  · cases h
  · next hrange =>
    have hbelow : ¬ c.server.frameLimit ≥ 0x100000000 := fun hge => hrange (.inr hge)
    have hlt : c.server.frameLimit.toNat < 0x100000000 := by
      simpa using UInt64.lt_iff_toNat_lt.mp (UInt64.not_le.mp hbelow)
    exact hlt

end Config

/-! ### The length of a notice -/

namespace Wire

theorem length_text (s : String) :
    (Format.text.write s).length = 8 + (Text.Utf8.encode s).length := by
  show (Bytes.ofNatLE 8 (Text.Utf8.encode s).length ++ Text.Utf8.encode s).length = _
  rw [List.length_append, Bytes.length_ofNatLE]

/-- A response that reports an error is as long as its two texts and what stands around
    them: the status, three option bytes, and two lengths. -/
theorem length_encode_failure (kind : FaultKind) (message : String) :
    (encode response (.failure kind message)).length
      = 23 + (Text.Utf8.encode kind.name).length + (Text.Utf8.encode message).length := by
  have hwritten : encode response (.failure kind message)
      = status.write .error ++ ((0 : UInt8) :: []
        ++ (((1 : UInt8) :: Format.text.write kind.name)
        ++ ((1 : UInt8) :: Format.text.write message))) := rfl
  have hstatus : (status.write .error).length = 4 := Bytes.length_ofNatLE 4 _
  rw [hwritten]
  simp only [List.length_append, List.length_cons, List.length_nil, length_text, hstatus]
  omega

end Wire

namespace Text.Utf8

theorem length_encode_append (s t : String) :
    (encode (s ++ t)).length = (encode s).length + (encode t).length := by
  simp only [encode, String.toList_append, List.flatMap_append, List.length_append]

/-- A digit is one byte. -/
theorem length_encodeChar_digit {d : Char} (h : d.isDigit = true) :
    (String.utf8EncodeChar d).length = 1 := by
  simp only [Char.isDigit, Bool.and_eq_true, decide_eq_true_eq] at h
  rw [String.length_utf8EncodeChar, Char.utf8Size_eq_one_iff]
  exact UInt32.le_trans h.2 (by decide)

/-- So a number is as long as its digits are many. -/
theorem length_encode_toString (n : Nat) :
    (encode (toString n)).length = (Nat.toDigits 10 n).length := by
  have hchars : (toString n).toList = Nat.toDigits 10 n := String.toList_ofList
  have hone : ∀ d ∈ Nat.toDigits 10 n, (String.utf8EncodeChar d).length = 1 := by
    intro d hd
    exact length_encodeChar_digit (isDigit_toDigits n d hd)
  rw [encode, hchars, List.length_flatMap, List.map_congr_left hone]
  simp only [List.map_const', List.sum_replicate_nat, Nat.mul_one]

end Text.Utf8

namespace Session

variable {b : Broker} {draws : Draws} {limit : Nat} {s : Session}

/-- A notice is a fixed text around the digits of the length that it reports. -/
theorem length_encode_notice (size : Nat) :
    (encode Wire.response (notice size)).length = 74 + (Nat.toDigits 10 size).length := by
  have hmessage : (Text.Utf8.encode
      (toString "response of " ++ toString size ++ toString " bytes exceeds the frame limit")).length
        = 42 + (Nat.toDigits 10 size).length := by
    rw [Text.Utf8.length_encode_append, Text.Utf8.length_encode_append,
      Text.Utf8.length_encode_toString]
    have hbefore : (Text.Utf8.encode (toString "response of ")).length = 12 := by decide
    have hafter : (Text.Utf8.encode (toString " bytes exceeds the frame limit")).length = 30 := by
      decide
    omega
  have hkind : (Text.Utf8.encode FaultKind.malformed.name).length = 9 := by decide
  rw [notice, Wire.length_encode_failure, hkind, hmessage]
  omega

/-! ### Responses that can be sent -/

/-- Whether a session can send a response, itself or by a notice. -/
def sendable (limit : Nat) (r : Response) : Bool := Frame.Fits limit (fitted limit r)

/-- With a limit that headers can say, a response can be sent if it is within the limit or
    its notice is. -/
theorem sendable_iff {r : Response} (hlimit : limit < Frame.sizeBound) :
    sendable limit r = true
      ↔ (encode Wire.response r).length ≤ limit
        ∨ 74 + (Nat.toDigits 10 (encode Wire.response r).length).length ≤ limit := by
  rw [sendable, decide_eq_true_iff, ← length_encode_notice]
  by_cases hshort : (encode Wire.response r).length ≤ limit
  · rw [fitted_of_short hshort]
    exact ⟨fun h => .inl h.short, fun _ => ⟨hshort, by omega⟩⟩
  · -- the response gives way to its notice, so only that counts
    rw [fitted_of_long (by omega)]
    constructor
    · exact fun h => .inr h.short
    · rintro (h | h)
      · exact absurd h hshort
      · exact ⟨h, by omega⟩

/-- The notice for any length of 64 bits is within 94 bytes. -/
theorem sendable_of_room {r : Response} (hlimit : limit < Frame.sizeBound) (hroom : 94 ≤ limit)
    (hlength : (encode Wire.response r).length < Wire.Format.lengthBound) :
    sendable limit r = true := by
  have hdigits : (Nat.toDigits 10 (encode Wire.response r).length).length ≤ 20 := by
    refine Nat.toDigits_length 10 _ 20 (by decide) (Nat.lt_trans hlength ?_)
    decide
  exact (sendable_iff hlimit).mpr (.inr (by omega))

/-! ### Runs -/

/-- The responses to bodies in order, on one connection, before a look at their lengths. -/
def responses (b : Broker) (draws : Draws) (s : Session) : List Bytes → List Response
  | [] => []
  | body :: rest =>
    (s.answer b draws body).1 :: responses b draws (s.answer b draws body).2.1 rest

theorem length_responses (bodies : List Bytes) :
    (s.responses b draws bodies).length = bodies.length := by
  induction bodies generalizing s with
  | nil => rfl
  | cons body rest ih => rw [responses, List.length_cons, ih, List.length_cons]

/-- How serving ends after responses: the first that cannot be sent ends it. -/
def endAfter (limit : Nat) (last : Ending) (rs : List Response) : Ending :=
  match rs.find? fun r => !sendable limit r with
  | some r => .error (.protocol (.unwritable (fitted limit r).length limit))
  | none => last

theorem reply_of_sendable {body : Bytes}
    (h : sendable limit (s.answer b draws body).1 = true) :
    s.reply b draws limit body
      = (.ok (fitted limit (s.answer b draws body).1), (s.answer b draws body).2) := by
  have hwrite := Frame.write_of_fits (of_decide_eq_true h)
  simp only [reply, hwrite]

theorem reply_of_not_sendable {body : Bytes}
    (h : ¬ sendable limit (s.answer b draws body).1 = true) :
    s.reply b draws limit body
      = (.error (.protocol
            (.unwritable (fitted limit (s.answer b draws body).1).length limit)),
          (s.answer b draws body).2) := by
  have hwrite := Frame.write_of_not_fits fun hfits => h (decide_eq_true hfits)
  simp only [reply, hwrite]

/-- A run writes the responses up to the first that cannot be sent. -/
theorem run_responses (last : Ending) (bodies : List Bytes) :
    (s.run b draws limit last bodies).replies
        = ((s.responses b draws bodies).takeWhile (sendable limit)).map (fitted limit)
      ∧ (s.run b draws limit last bodies).ending
        = endAfter limit last (s.responses b draws bodies) := by
  induction bodies generalizing s with
  | nil => exact ⟨rfl, rfl⟩
  | cons body rest ih =>
    -- the first response decides whether the run goes on, from the session after it
    obtain ⟨hreplies, hending⟩ := @ih (s.answer b draws body).2.1
    by_cases h : sendable limit (s.answer b draws body).1 = true
    · have hfind : endAfter limit last (s.responses b draws (body :: rest))
          = endAfter limit last ((s.answer b draws body).2.1.responses b draws rest) := by
        simp only [endAfter, responses, List.find?_cons, h, Bool.not_true]
      rw [run, reply_of_sendable h, hfind, responses, List.takeWhile_cons_of_pos h,
        List.map_cons, ← hreplies]
      exact ⟨rfl, hending⟩
    · have hfind : endAfter limit last (s.responses b draws (body :: rest))
          = .error (.protocol
              (.unwritable (fitted limit (s.answer b draws body).1).length limit)) := by
        simp only [endAfter, responses, List.find?_cons, h, Bool.not_false]
      rw [run, reply_of_not_sendable h, hfind, responses, List.takeWhile_cons_of_neg h]
      exact ⟨rfl, rfl⟩

/-- A run comes to the end of its bodies just if all responses can be sent. -/
theorem endAfter_eq_ok {rs : List Response} :
    endAfter limit (.ok ()) rs = .ok () ↔ ∀ r ∈ rs, sendable limit r = true := by
  unfold endAfter
  cases hfind : rs.find? fun r => !sendable limit r with
  | none =>
    rw [List.find?_eq_none] at hfind
    refine ⟨fun _ r hr => ?_, fun _ => rfl⟩
    have hnot := hfind r hr
    simpa using hnot
  | some r =>
    have hr := List.mem_of_find?_eq_some hfind
    have hnot := List.find?_some hfind
    refine ⟨nofun, fun hall => ?_⟩
    rw [hall r hr] at hnot
    cases hnot

/-- A list is taken whole just if all of it passes. -/
theorem length_takeWhile_eq_iff {α : Type} {p : α → Bool} {l : List α} :
    (l.takeWhile p).length = l.length ↔ ∀ a ∈ l, p a = true := by
  rw [← List.takeWhile_eq_self_iff]
  constructor
  · exact fun h => (List.takeWhile_prefix p).eq_of_length h
  · exact fun h => congrArg List.length h

/-- A session under a configuration that checks, given whole frames within its limit, writes
    the responses in order up to the first that cannot be sent, because neither it nor the
    notice in its place is within the limit, and there it ends. So it replies to every frame
    and ends well just if every response can be sent. With a limit of 94 bytes or more that
    is always so. -/
theorem replied_while_sendable (c : Config) (b : Broker) (draws : Draws) (s : Session)
    (bodies : List Bytes) (hchecked : c.check = .ok ())
    (hshort : ∀ body ∈ bodies, body.length ≤ c.server.frameLimit.toNat) :
    let limit := c.server.frameLimit.toNat
    let rs := s.responses b draws bodies
    let run := s.serve b draws limit (bodies.flatMap Frame.wrap)
    run.replies = (rs.takeWhile (sendable limit)).map (fitted limit)
      ∧ run.ending = endAfter limit (.ok ()) rs
      ∧ (∀ r, sendable limit r = true
        ↔ (encode Wire.response r).length ≤ limit
          ∨ 74 + (Nat.toDigits 10 (encode Wire.response r).length).length ≤ limit)
      ∧ (run.replies.length = bodies.length ↔ ∀ r ∈ rs, sendable limit r = true)
      ∧ (run.ending = .ok () ↔ ∀ r ∈ rs, sendable limit r = true)
      ∧ (94 ≤ limit →
        (∀ r ∈ rs, (encode Wire.response r).length < Wire.Format.lengthBound) →
        run.replies.length = bodies.length ∧ run.ending = .ok ()) := by
  intro limit rs run
  have hlimit : limit < Frame.sizeBound := Config.frameLimit_of_check hchecked
  have hbodies : ∀ body ∈ bodies, Frame.Fits limit body := by
    intro body hbody
    exact ⟨hshort body hbody, Nat.lt_of_le_of_lt (hshort body hbody) hlimit⟩
  have hrun : run = s.run b draws limit (.ok ()) bodies := by
    show s.serve b draws limit (bodies.flatMap Frame.wrap) = _
    rw [serve, Frame.readAll_flatMap_wrap hbodies]
    rfl
  obtain ⟨hreplies, hending⟩ := run_responses (b := b) (s := s) (.ok ()) bodies
  rw [← hrun] at hreplies hending
  have hcount : run.replies.length = bodies.length ↔ ∀ r ∈ rs, sendable limit r = true := by
    rw [hreplies, List.length_map, ← length_responses (b := b) (s := s) bodies]
    exact length_takeWhile_eq_iff
  have hend : run.ending = .ok () ↔ ∀ r ∈ rs, sendable limit r = true := by
    rw [hending]
    exact endAfter_eq_ok
  refine ⟨hreplies, hending, fun r => sendable_iff hlimit, hcount, hend, ?_⟩
  intro hroom hlengths
  have hall : ∀ r ∈ rs, sendable limit r = true :=
    fun r hr => sendable_of_room hlimit hroom (hlengths r hr)
  exact ⟨hcount.mpr hall, hend.mpr hall⟩

/-- Under a limit of 80 bytes a denial of 79 bytes is sent as it is, and the longer response
    to a body that is no request is replaced by its notice: every frame is replied to. -/
theorem replied_while_sendable_of_denial :
    let c : Config :=
      { server := { socketPath := Path.ofText "/s", frameLimit := 80 }
        storePath := Path.ofText "/k" }
    let b : Broker := ⟨.empty, fun _ _ => none, {}⟩
    let draws : Draws := fun _ => ⟨Vector.replicate 12 0, Vector.replicate 64 0, 1⟩
    let s : Session := { connection := { id := 1, caller := none } }
    let bodies := [encode Wire.request { command := .ping },
      encode Wire.request { command := .operate .sign, set := "a" }, [7]]
    let run := s.serve b draws 80 (bodies.flatMap Frame.wrap)
    c.check = .ok () ∧ (∀ body ∈ bodies, body.length ≤ c.server.frameLimit.toNat)
      ∧ run.replies.length = 3 ∧ run.ending = .ok () := by
  intro c b draws s bodies run
  have hchecked : c.check = .ok () := by decide +kernel
  have hshort : ∀ body ∈ bodies, body.length ≤ c.server.frameLimit.toNat := by decide +kernel
  have hall : ∀ r ∈ s.responses b draws bodies, sendable 80 r = true := by decide +kernel
  obtain ⟨-, -, -, hcount, hend, -⟩ := replied_while_sendable c b draws s bodies hchecked hshort
  exact ⟨hchecked, hshort, hcount.mpr hall, hend.mpr hall⟩

/-- A configuration may set a limit within which neither a denial nor its notice is: the
    session ends at a request that it only had to deny. -/
theorem denial_beyond_limit :
    ¬ ∀ (c : Config) (b : Broker) (draws : Draws) (s : Session) (bodies : List Bytes),
        c.check = .ok () →
        (∀ body ∈ bodies, body.length ≤ c.server.frameLimit.toNat) →
        let run := s.serve b draws c.server.frameLimit.toNat (bodies.flatMap Frame.wrap)
        run.replies.length = bodies.length ∧ run.ending = .ok () := by
  intro h
  have hreplied := h
    { server := { socketPath := Path.ofText "/s", frameLimit := 64 }
      storePath := Path.ofText "/k" }
    ⟨.empty, fun _ _ => none, {}⟩
    (fun _ => ⟨Vector.replicate 12 0, Vector.replicate 64 0, 1⟩)
    { connection := { id := 1, caller := none } }
    [encode Wire.request { command := .operate .sign, set := "a" }]
    (by decide +kernel) (by decide +kernel)
  revert hreplied
  decide +kernel

end Session

end KeyBroker
