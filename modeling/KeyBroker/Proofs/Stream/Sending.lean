import KeyBroker.Proofs.Stream.Direct

/-! # What a client writes

  A client writes one frame for each call whose request is within its limit, in the order
  of the calls, and nothing else. What its peer writes, and when, decides what the calls
  give, but no byte of what the client writes. So a request is sent once at most, also
  after garbage, after an answer that is cut off or too long, and behind the end of the
  stream.

  The step lemma `sent_call` goes through every way in which a call can end. The run lemma
  `sent_after` adds up what the calls write.
-/

namespace KeyBroker

open Wire (encode)

/-! ### Frames of requests -/

namespace Client

variable {limit : Nat}

/-- Below the first length that no header can say, the limit alone decides what is sent. -/
theorem sends_iff (hlimit : limit < Frame.sizeBound) (r : Request) :
    sends limit r = true ↔ (encode Wire.request r).length ≤ limit := by
  constructor
  · intro h
    exact (of_decide_eq_true h : Frame.Fits _ _).short
  · intro h
    exact decide_eq_true ⟨h, Nat.lt_of_le_of_lt h hlimit⟩

/-- What is written for a request is its length in four bytes and its encoding, or nothing. -/
theorem written_eq (hlimit : limit < Frame.sizeBound) (r : Request) :
    written limit r
      = if (encode Wire.request r).length ≤ limit then
          Bytes.ofNatBE 4 (encode Wire.request r).length ++ encode Wire.request r
        else [] := by
  by_cases h : (encode Wire.request r).length ≤ limit
  · rw [if_pos h, written_of_sends ((sends_iff hlimit r).mpr h)]
    rfl
  · rw [if_neg h, written_of_not_sends]
    intro hsends
    exact h ((sends_iff hlimit r).mp hsends)

/-- Whoever reads what was written finds the requests that were sent, in order, and then the
    end. The reader's limit may be larger than the writer's. -/
theorem readAll_written {reader : Nat} (hlimit : limit < Frame.sizeBound)
    (hreader : limit ≤ reader) (rs : List Request) :
    Frame.readAll reader (rs.flatMap (written limit))
      = ((rs.filter (sends limit)).map (encode Wire.request), .closed) := by
  rw [flatMap_written]
  apply Frame.readAll_flatMap_wrap
  intro body hbody
  obtain ⟨r, hr, rfl⟩ := List.mem_map.mp hbody
  have hshort := (sends_iff hlimit r).mp (List.mem_filter.mp hr).2
  exact ⟨Nat.le_trans hshort hreader, Nat.lt_of_le_of_lt hshort hlimit⟩

/-- Each of them is read as the request that it was. -/
theorem decode_sent (hlimit : limit < Frame.sizeBound) (rs : List Request) :
    ((rs.filter (sends limit)).map (encode Wire.request)).map (Wire.decode Wire.request)
      = (rs.filter (sends limit)).map .ok := by
  rw [List.map_map]
  apply List.map_congr_left
  intro r hr
  have hshort := (sends_iff hlimit r).mp (List.mem_filter.mp hr).2
  apply Wire.decode_encode_request
  exact Session.lt_lengthBound (Nat.lt_of_le_of_lt hshort hlimit)

end Client

/-! ### Runs -/

namespace ScriptedClient

/-- What happens on the stream of a client: it makes a call, or its peer writes something. -/
inductive Move where
  | call (c : Call)
  | reply (bytes : Bytes)

/-- The call that is made, if one is. -/
def Move.call? : Move → Option Call
  | call c => some c
  | reply _ => none

/-- The client after a move. -/
def next (limit : Nat) (c : ScriptedClient) : Move → ScriptedClient
  | .call call => (c.call limit call).2
  | .reply bytes => { c with inbox := c.inbox ++ bytes }

/-- The client after moves. -/
def after (limit : Nat) (c : ScriptedClient) : List Move → ScriptedClient
  | [] => c
  | m :: rest => (c.next limit m).after limit rest

/-- The requests of the calls among moves, in order. -/
def requests (moves : List Move) : List Request := (moves.filterMap Move.call?).map Call.request

variable {limit : Nat} {c : ScriptedClient}

/-- However a call ends, it has written what there is to write for its request, once. -/
theorem sent_call (limit : Nat) (c : ScriptedClient) (call : Call) :
    (c.call limit call).2.sent = c.sent ++ Client.written limit call.request := by
  unfold ScriptedClient.call Client.written
  cases Client.frame limit call.request with
  | error fault => exact (List.append_nil _).symm
  | ok frame =>
    -- the frame is written before anything is read, so no reading takes it back or repeats it
    cases hreceive : Client.receive limit .ended c.inbox with
    | none => rfl
    | some reading =>
      obtain ⟨result, rest⟩ := reading
      cases result with
      | error fault => rfl
      | ok body => rfl

theorem sent_next (limit : Nat) (c : ScriptedClient) (m : Move) :
    (c.next limit m).sent = c.sent ++ (requests [m]).flatMap (Client.written limit) := by
  cases m with
  | call call =>
    rw [next, sent_call]
    simp [requests, Move.call?]
  | reply bytes => exact (List.append_nil _).symm

/-- What a client has written is what there is to write for its calls, in order. -/
theorem sent_after (limit : Nat) (c : ScriptedClient) (moves : List Move) :
    (c.after limit moves).sent
      = c.sent ++ (requests moves).flatMap (Client.written limit) := by
  induction moves generalizing c with
  | nil => exact (List.append_nil _).symm
  | cons m rest ih =>
    have hsplit : requests (m :: rest) = requests [m] ++ requests rest := by
      cases m <;> rfl
    rw [after, ih, sent_next, hsplit, List.flatMap_append, List.append_assoc]

/-- With a limit that a header can say, whatever the peer writes and whenever it does, a
    client has written one frame for each call whose request is within the limit, in the
    order of the calls, and nothing for the others. Another peer changes nothing of it, and
    whoever reads it finds exactly the requests of those calls. -/
theorem sends_each_request_once (limit : Nat) (hlimit : limit < 1 <<< 32) (inbox : Bytes)
    (moves : List Move) :
    let c : ScriptedClient := { inbox := inbox }
    ((c.after limit moves).sent
        = (requests moves).flatMap fun r =>
            if (encode Wire.request r).length ≤ limit then
              Bytes.ofNatBE 4 (encode Wire.request r).length ++ encode Wire.request r
            else [])
      ∧ (∀ (other : Bytes) (others : List Move), requests others = requests moves →
          (({ inbox := other } : ScriptedClient).after limit others).sent
            = (c.after limit moves).sent)
      ∧ (∀ reader, limit ≤ reader →
          ∃ bodies, Frame.readAll reader (c.after limit moves).sent = (bodies, .closed)
            ∧ bodies.map (Wire.decode Wire.request)
              = ((requests moves).filter
                  fun r => (encode Wire.request r).length ≤ limit).map .ok) := by
  intro c
  have hsent : ∀ (inbox : Bytes) (moves : List Move),
      (({ inbox := inbox } : ScriptedClient).after limit moves).sent
        = (requests moves).flatMap (Client.written limit) := by
    intro inbox moves
    rw [sent_after, List.nil_append]
  refine ⟨?_, ?_, ?_⟩
  · rw [hsent inbox moves]
    congr 1
    funext r
    exact Client.written_eq hlimit r
  · intro other others hcalls
    rw [hsent other others, hsent inbox moves, hcalls]
  · intro reader hreader
    have hwithin : (fun r => decide ((encode Wire.request r).length ≤ limit))
        = Client.sends limit := by
      funext r
      rw [Bool.eq_iff_iff, decide_eq_true_iff]
      exact (Client.sends_iff hlimit r).symm
    rw [hsent inbox moves, hwithin]
    exact ⟨_, Client.readAll_written hlimit hreader _, Client.decode_sent hlimit _⟩

/-- Garbage before a ping, a request that is too long, a frame that is cut off, and one more
    request. -/
theorem sends_each_request_once_amid_garbage :
    60 < 1 <<< 32
      ∧ (({ inbox := [0, 0, 0, 2, 0xde, 0xad] } : ScriptedClient).after 60
          [.call .ping, .call (.operate .sign "a" 0 none (List.replicate 60 7) none),
            .reply [0, 0, 1], .call (.retrieve "a" 3)]).sent
        = Frame.wrap (encode Wire.request .ping)
          ++ Frame.wrap (encode Wire.request { command := .retrieve, set := "a", version := 3 })
      := by
  refine ⟨by decide, ?_⟩
  rw [(sends_each_request_once 60 (by decide) [0, 0, 0, 2, 0xde, 0xad] _).1]
  decide +kernel

end ScriptedClient

end KeyBroker
