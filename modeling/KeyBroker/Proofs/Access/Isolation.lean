import KeyBroker.Proofs.Access.Site

/-! # Connections do not influence each other

  A request meets the broker as it stands at its turn, and its own connection as the earlier
  requests on it left it. Nothing else enters its answer. So the requests of one connection
  are given the same answers when they are made alone, each to the broker that it met. The
  invariants of one turn, kept along every run:

  - a request leaves the broker and all other connections as they are;
  - whatever is no request leaves all connections as they are.
-/

namespace KeyBroker

/-! ### One connection alone -/

/-- A request and what it meets. -/
structure Meeting where
  /-- The broker, with its store, its policy and its registry at that moment. -/
  broker : Broker
  /-- What is drawn for the request. -/
  draw : Draw
  /-- The request. -/
  request : Request

namespace Connection

/-- What a request on the connection is given. -/
def meet (c : Connection) (m : Meeting) : Answer := m.broker.handle m.draw c m.request

/-- What requests are given that are made in order, with no other connection around. -/
def alone (c : Connection) : List Meeting → List Answer
  | [] => []
  | m :: rest => c.meet m :: (c.meet m).connection.alone rest

/-- The connection that such requests leave. -/
def past (c : Connection) : List Meeting → Connection
  | [] => c
  | m :: rest => (c.meet m).connection.past rest

variable {c : Connection}

theorem length_alone (meetings : List Meeting) : (c.alone meetings).length = meetings.length := by
  induction meetings generalizing c with
  | nil => rfl
  | cons m rest ih => rw [alone, List.length_cons, ih, List.length_cons]

theorem alone_append (meetings more : List Meeting) :
    c.alone (meetings ++ more) = c.alone meetings ++ (c.past meetings).alone more := by
  induction meetings generalizing c with
  | nil => rfl
  | cons m rest ih =>
    rw [List.cons_append, alone, ih]
    rfl

theorem past_append (meetings more : List Meeting) :
    c.past (meetings ++ more) = (c.past meetings).past more := by
  induction meetings generalizing c with
  | nil => rfl
  | cons m rest ih => exact ih

end Connection

/-! ### The requests of a run -/

/-- Whether an act is a request. -/
def Act.isRequest : Act → Bool
  | request .. => true
  | _ => false

/-- Whether a turn bears on a connection: it is a request there, or is no request at all. -/
def Turn.concerns (i : Nat) (t : Turn) : Bool := t.conn = i || !t.act.isRequest

namespace Site

/-- The request that a turn makes on a connection, if it makes one there. -/
def meeting? (s : Site) (i : Nat) (t : Turn) : Option Meeting :=
  match t.act with
  | .request draw r => if t.conn = i then some ⟨s.broker, draw, r⟩ else none
  | _ => none

/-- The requests that turns make on a connection, each with the broker that it meets. -/
def meetings (s : Site) (i : Nat) : List Turn → List Meeting
  | [] => []
  | t :: rest => (s.meeting? i t).toList ++ (s.next t).meetings i rest

variable {s other : Site} {i : Nat} {t : Turn}

theorem after_append (s : Site) (turns more : List Turn) :
    s.after (turns ++ more) = (s.after turns).after more := by
  induction turns generalizing s with
  | nil => rfl
  | cons t rest ih => exact ih (s.next t)

theorem meetings_append (s : Site) (i : Nat) (turns more : List Turn) :
    s.meetings i (turns ++ more) = s.meetings i turns ++ (s.after turns).meetings i more := by
  induction turns generalizing s with
  | nil => rfl
  | cons t rest ih =>
    rw [List.cons_append, meetings, ih, ← List.append_assoc]
    rfl

/-! ### What one turn leaves alone -/

/-- A request leaves the broker as it is. -/
theorem broker_next_of_isRequest (h : t.act.isRequest = true) :
    (s.next t).broker = s.broker := by
  obtain ⟨conn, act⟩ := t
  cases act with
  | request draw r => rfl
  | publish set material => cases h
  | publishAs set number material => cases h
  | govern gate => cases h

/-- What is no request leaves every connection as it is. -/
theorem connections_next_of_not_isRequest (h : t.act.isRequest = false) :
    (s.next t).connections = s.connections := by
  obtain ⟨conn, act⟩ := t
  have hsame : ((s.scene conn).next act).connection = s.connections conn := by
    cases act with
    | request draw r => cases h
    | publish set material => rfl
    | publishAs set number material => rfl
    | govern gate => rfl
  funext i
  show (if i = conn then ((s.scene conn).next act).connection else s.connections i) = _
  by_cases hi : i = conn
  · rw [if_pos hi, hsame, hi]
  · rw [if_neg hi]

/-- A turn elsewhere leaves a connection as it is. -/
theorem connections_next_of_ne (h : i ≠ t.conn) :
    (s.next t).connections i = s.connections i := if_neg h

/-- What a turn makes of the broker does not depend on the connections. -/
theorem broker_next_of_same (t : Turn) (h : other.broker = s.broker) :
    (other.next t).broker = (s.next t).broker := by
  obtain ⟨conn, act⟩ := t
  show ((other.scene conn).next act).broker = ((s.scene conn).next act).broker
  cases act with
  | request draw r => exact h
  | publish set material => simp only [Scene.next, scene, h]
  | publishAs set number material => simp only [Scene.next, scene, h]
  | govern gate => simp only [Scene.next, scene, h]

/-- A turn that is a request elsewhere, or no request, makes none on a connection. -/
theorem meeting?_eq_none (h : t.act.isRequest = true → t.conn ≠ i) : s.meeting? i t = none := by
  obtain ⟨conn, act⟩ := t
  cases act with
  | request draw r => exact if_neg (h rfl)
  | publish set material => rfl
  | publishAs set number material => rfl
  | govern gate => rfl

/-- A turn changes a connection by the request that it makes there, and else not at all. -/
theorem connections_next (s : Site) (i : Nat) (t : Turn) :
    (s.next t).connections i = (s.connections i).past (s.meeting? i t).toList := by
  by_cases hrequest : t.act.isRequest = true
  · by_cases hconn : t.conn = i
    · obtain ⟨conn, act⟩ := t
      cases act with
      | request draw r =>
        obtain rfl : conn = i := hconn
        have hmeeting : s.meeting? conn ⟨conn, .request draw r⟩ = some ⟨s.broker, draw, r⟩ :=
          if_pos rfl
        rw [hmeeting]
        exact if_pos rfl
      | publish set material => cases hrequest
      | publishAs set number material => cases hrequest
      | govern gate => cases hrequest
    · rw [connections_next_of_ne fun h => hconn h.symm, meeting?_eq_none fun _ => hconn]
      rfl
  · rw [connections_next_of_not_isRequest (Bool.eq_false_iff.mpr hrequest),
      meeting?_eq_none fun h => absurd h hrequest]
    rfl

/-! ### What runs leave alone -/

/-- A connection is what its own requests make of it, each answered by the broker that it
    met. -/
theorem connections_after (s : Site) (i : Nat) (turns : List Turn) :
    (s.after turns).connections i = (s.connections i).past (s.meetings i turns) := by
  induction turns generalizing s with
  | nil => rfl
  | cons t rest ih =>
    rw [after, ih, connections_next, meetings, Connection.past_append]

/-- Requests may be left out of a run: the broker afterwards is the same. -/
theorem broker_after_filter {p : Turn → Bool} {turns : List Turn}
    (hleft : ∀ t, p t = false → t.act.isRequest = true) (h : other.broker = s.broker) :
    (other.after (turns.filter p)).broker = (s.after turns).broker := by
  induction turns generalizing s other with
  | nil => exact h
  | cons t rest ih =>
    by_cases hp : p t = true
    · rw [List.filter_cons_of_pos hp]
      exact ih (broker_next_of_same t h)
    · have hrequest : t.act.isRequest = true := hleft t (Bool.eq_false_iff.mpr hp)
      rw [List.filter_cons_of_neg hp]
      apply ih
      rw [broker_next_of_isRequest hrequest]
      exact h

/-- The requests on a connection meet the same without the requests on all others. -/
theorem meetings_filter_concerns {turns : List Turn} (h : other.broker = s.broker) :
    other.meetings i (turns.filter (·.concerns i)) = s.meetings i turns := by
  induction turns generalizing s other with
  | nil => rfl
  | cons t rest ih =>
    have hmeeting : other.meeting? i t = s.meeting? i t := by
      unfold meeting?
      rw [h]
    by_cases hconcerns : t.concerns i = true
    · rw [List.filter_cons_of_pos hconcerns, meetings, meetings, hmeeting,
        ih (broker_next_of_same t h)]
    · -- the turn is a request elsewhere: no meeting here, and no change of the broker
      have helsewhere : t.conn ≠ i ∧ t.act.isRequest = true := by
        simpa [Turn.concerns] using hconcerns
      have hnone : s.meeting? i t = none := meeting?_eq_none fun _ => helsewhere.1
      have hbroker : other.broker = (s.next t).broker := by
        rw [broker_next_of_isRequest helsewhere.2]
        exact h
      rw [List.filter_cons_of_neg hconcerns, ih hbroker, meetings, hnone]
      rfl

/-! ### Every request of every run -/

/-- Connections do not influence each other. Take a run of requests on any connections,
    publications and changes of the policy, in any order, and a request in it.

    1. The request meets the broker that the publications and changes of the policy before it
       leave, with all requests left out, and the registry of the beginning.
    2. Its answer, that is the response, the events and the connection afterwards, is the one
       in its place when the requests on its connection are made alone, in order, each to the
       broker that it met.
    3. It changes its own connection, as its answer says, and neither the broker nor any
       other connection.

    And what the requests on a connection meet, and the connection that they leave, is the
    same when the requests on all other connections are left out of the run. -/
theorem served_as_if_alone (s : Site) (turns : List Turn) (i : Nat) :
    (∀ k draw r, turns[k]? = some ⟨i, .request draw r⟩ →
      let now := s.after (turns.take k)
      let answer := now.answer i draw r
      let place := (s.meetings i (turns.take k)).length
      ((s.meetings i turns)[place]? = some ⟨now.broker, draw, r⟩
        ∧ now.broker
          = (s.after ((turns.take k).filter fun t => !t.act.isRequest)).broker
        ∧ now.broker.registry = s.broker.registry)
      ∧ ((s.connections i).alone (s.meetings i turns))[place]? = some answer
      ∧ (s.after (turns.take (k + 1))).broker = now.broker
      ∧ (s.after (turns.take (k + 1))).connections i = answer.connection
      ∧ ∀ j, j ≠ i →
        (s.after (turns.take (k + 1))).connections j = now.connections j)
    ∧ s.meetings i (turns.filter (·.concerns i)) = s.meetings i turns
    ∧ (s.after (turns.filter (·.concerns i))).connections i = (s.after turns).connections i := by
  refine ⟨?_, meetings_filter_concerns rfl, ?_⟩
  · intro k draw r hturn now answer place
    obtain ⟨hlt, hget⟩ := List.getElem?_eq_some_iff.mp hturn
    have htake : turns.take (k + 1) = turns.take k ++ [⟨i, .request draw r⟩] := by
      rw [List.take_add_one, hturn]
      rfl
    have hnext : s.after (turns.take (k + 1)) = now.next ⟨i, .request draw r⟩ := by
      rw [htake, after_append]
      rfl
    -- the run is cut at the request, and so are the requests on its connection
    have hmeetings : ∃ later, s.meetings i turns
        = s.meetings i (turns.take k) ++ ⟨now.broker, draw, r⟩ :: later := by
      refine ⟨(now.next ⟨i, .request draw r⟩).meetings i (turns.drop (k + 1)), ?_⟩
      have hmeeting : now.meeting? i ⟨i, .request draw r⟩ = some ⟨now.broker, draw, r⟩ :=
        if_pos rfl
      calc s.meetings i turns
          = s.meetings i (turns.take k ++ turns.drop k) := by rw [List.take_append_drop]
        _ = s.meetings i (turns.take k) ++ now.meetings i (turns.drop k) := by
          rw [meetings_append]
        _ = s.meetings i (turns.take k) ++ _ := by
          rw [List.drop_eq_getElem_cons hlt, hget, meetings, hmeeting]
          rfl
    obtain ⟨later, hmeetings⟩ := hmeetings
    have hanswer : (s.connections i).past (s.meetings i (turns.take k)) = now.connections i :=
      (connections_after s i (turns.take k)).symm
    refine ⟨⟨?_, ?_, registry_after s (turns.take k)⟩, ?_, ?_, ?_, ?_⟩
    · rw [hmeetings, List.getElem?_append_right (Nat.le_refl _), Nat.sub_self]
      rfl
    · have hleft : ∀ t : Turn, (!t.act.isRequest) = false → t.act.isRequest = true := by
        intro t h
        simpa using h
      exact (broker_after_filter hleft rfl).symm
    · rw [hmeetings, Connection.alone_append,
        List.getElem?_append_right (Nat.le_of_eq (Connection.length_alone _)),
        Connection.length_alone, Nat.sub_self, hanswer]
      rfl
    · rw [hnext]
      rfl
    · rw [hnext]
      exact if_pos rfl
    · intro j hj
      rw [hnext]
      exact connections_next_of_ne hj
  · rw [connections_after, connections_after, meetings_filter_concerns rfl]

/-- One connection reads a key. Another one asks for the key too, the policy is replaced by one
    that grants nothing, the key is rotated, and the other one is denied. The first reads the
    new key by the right that it remembers, as it does when the other is not there. -/
theorem served_as_if_alone_after_revocation :
    let draw : Draw := ⟨Vector.replicate 12 0, Vector.replicate 64 0, 1⟩
    let s : Site :=
      ⟨⟨KeyStore.empty.after [.next "a" (.secret [1])], fun _ _ => some .retrieve, {}⟩,
        fun i => { id := i, caller := some ⟨1000, 100, none⟩ }⟩
    let r : Request := { command := .retrieve, set := "a" }
    let turns : List Turn := [⟨0, .request draw r⟩, ⟨0, .govern fun _ _ => none⟩,
      ⟨1, .request draw r⟩, ⟨1, .publish "a" (.secret [2])⟩, ⟨0, .request draw r⟩]
    let now := s.after (turns.take 4)
    turns[4]? = some ⟨0, .request draw r⟩
      ∧ ((s.after (turns.take 2)).answer 1 draw r).response.kind = some .denied
      ∧ (now.answer 0 draw r).response = .success (.secretKey 2 [2])
      ∧ ((s.connections 0).alone (s.meetings 0 turns))[1]? = some (now.answer 0 draw r)
      ∧ (s.after turns).connections 1 = now.connections 1 := by
  intro draw s r turns now
  obtain ⟨hturn, -⟩ := served_as_if_alone s turns 0
  obtain ⟨-, halone, -, -, hothers⟩ := hturn 4 draw r rfl
  refine ⟨rfl, by decide +kernel, by decide +kernel, ?_, hothers 1 (by decide)⟩
  have hplace : (s.meetings 0 (turns.take 4)).length = 1 := rfl
  rw [hplace] at halone
  exact halone

end Site

end KeyBroker
