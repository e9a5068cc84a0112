import KeyBroker.Proofs.Stream.Exchange

/-! # Bodies written and read back

  Bodies are put on a stream one after the other. A body that is too long is refused before
  anything of it is written, so the stream stays as it was and the next body stands where
  the refused one would have stood. What was put there is told apart by the headers alone,
  whatever the bodies hold. A reader whose limit is no smaller takes off what was put on,
  and stands behind it.
-/

namespace KeyBroker

open Wire (encode)

namespace Frame

variable {limit : Nat} {stream body : Bytes} {bodies : List Bytes}

/-! ### Writing -/

/-- Puts a body at the end of a stream, or refuses it. -/
def put (limit : Nat) (stream body : Bytes) : Except Fault Unit × Bytes :=
  match write limit body with
  | some frame => (.ok (), stream ++ frame)
  | none => (.error (.protocol (.unwritable body.length limit)), stream)

/-- Puts bodies on a stream in order, and goes on after a refusal. -/
def putAll (limit : Nat) (stream : Bytes) : List Bytes → List (Except Fault Unit) × Bytes
  | [] => ([], stream)
  | body :: rest =>
    let (result, stream) := put limit stream body
    let (results, stream) := putAll limit stream rest
    (result :: results, stream)

/-- What comes of putting a body of some length on a stream. -/
def resultOf (limit : Nat) (body : Bytes) : Except Fault Unit :=
  if body.length ≤ limit then .ok () else .error (Session.oversized body.length limit)

theorem put_of_fits (h : Fits limit body) :
    put limit stream body = (.ok (), stream ++ wrap body) := by
  simp only [put, write_of_fits h]

/-- A body that is too long leaves the stream as it was. -/
theorem put_of_long (h : limit < body.length) :
    put limit stream body = (.error (Session.oversized body.length limit), stream) := by
  have hrefused : write limit body = none :=
    write_of_not_fits fun hfits => Nat.not_le_of_lt h hfits.short
  simp only [put, hrefused, ProtocolFault.unwritable]
  rw [if_pos h]
  rfl

/-- What is put on a stream is the frames of the bodies within the limit. -/
theorem putAll_eq (hword : ∀ body ∈ bodies, body.length < sizeBound) :
    putAll limit stream bodies
      = (bodies.map (resultOf limit),
          stream ++ (bodies.filter (·.length ≤ limit)).flatMap wrap) := by
  induction bodies generalizing stream with
  | nil => exact congrArg (Prod.mk []) (List.append_nil stream).symm
  | cons body rest ih =>
    have hrest : ∀ b ∈ rest, b.length < sizeBound := (List.forall_mem_cons.mp hword).2
    by_cases hshort : body.length ≤ limit
    · have hfits : Fits limit body := ⟨hshort, hword body List.mem_cons_self⟩
      have hkept : (body :: rest).filter (·.length ≤ limit)
          = body :: rest.filter (·.length ≤ limit) :=
        List.filter_cons_of_pos (decide_eq_true hshort)
      simp only [putAll, put_of_fits hfits, ih hrest, hkept, List.map_cons, List.flatMap_cons,
        List.append_assoc, resultOf, if_pos hshort]
    · have hdropped : (body :: rest).filter (·.length ≤ limit)
          = rest.filter (·.length ≤ limit) :=
        List.filter_cons_of_neg fun h => hshort (of_decide_eq_true h)
      simp only [putAll, put_of_long (Nat.lt_of_not_le hshort), ih hrest, hdropped,
        List.map_cons, resultOf, if_neg hshort]

/-! ### Reading -/

/-- Takes a number of bodies off the front of a stream: the bodies, and what stands behind
    them. Nothing is given if there are not so many. -/
def takeBodies (limit : Nat) : Nat → Bytes → Option (List Bytes × Bytes)
  | 0, stream => some ([], stream)
  | n + 1, stream =>
    match read limit stream with
    | .body b rest => (takeBodies limit n rest).map fun (bodies, left) => (b :: bodies, left)
    | _ => none

/-- As many as were put there are taken, and what stands behind them is left. -/
theorem takeBodies_flatMap_wrap (h : ∀ body ∈ bodies, Fits limit body) (after : Bytes) :
    takeBodies limit bodies.length (bodies.flatMap wrap ++ after) = some (bodies, after) := by
  induction bodies with
  | nil => rfl
  | cons body rest ih =>
    have hread := read_of_fits (h body List.mem_cons_self) (rest.flatMap wrap ++ after)
    have hrest := ih fun b hb => h b (List.mem_cons_of_mem _ hb)
    rw [List.flatMap_cons, List.append_assoc, List.length_cons]
    simp only [takeBodies, hread, hrest, Option.map_some]

/-! ### Both ends -/

/-- The bodies that a writer lets pass are such as a reader takes whose limit is no smaller. -/
theorem fits_of_kept {writer reader : Nat} (hreader : writer ≤ reader)
    (hword : ∀ body ∈ bodies, body.length < sizeBound) :
    ∀ body ∈ bodies.filter (·.length ≤ writer), Fits reader body := by
  intro body hbody
  obtain ⟨hmem, hshort⟩ := List.mem_filter.mp hbody
  exact ⟨Nat.le_trans (of_decide_eq_true hshort) hreader, hword body hmem⟩

/-- Bodies that are put on a stream are read back. Exactly those beyond the writer's limit
    are refused, with the fault of their length, and each of them leaves the stream as it
    was. A reader whose limit is no smaller finds the others, unchanged and in order, and
    then a clean end; or else, if more was written behind them, it stands right there. -/
theorem read_back_what_was_put (writer reader : Nat) (stream : Bytes) (bodies : List Bytes)
    (hreader : writer ≤ reader) (hword : ∀ body ∈ bodies, body.length < sizeBound) :
    let kept := bodies.filter (·.length ≤ writer)
    let frames := (putAll writer [] bodies).2
    (putAll writer stream bodies).1 = bodies.map (fun body =>
        if body.length ≤ writer then .ok ()
        else .error (.protocol (.oversized body.length writer)))
      ∧ (putAll writer stream bodies).2 = stream ++ frames
      ∧ (∀ body ∈ bodies, (put writer stream body).2 = stream ↔ writer < body.length)
      ∧ readAll reader frames = (kept, .closed)
      ∧ Session.endingOf reader (readAll reader frames).2 = .ok ()
      ∧ ∀ after, takeBodies reader kept.length (frames ++ after) = some (kept, after)
        ∧ readAll reader (frames ++ after)
          = (kept ++ (readAll reader after).1, (readAll reader after).2) := by
  intro kept frames
  have hfits : ∀ body ∈ kept, Fits reader body := fits_of_kept hreader hword
  have hframes : frames = kept.flatMap wrap := congrArg Prod.snd (putAll_eq hword)
  have hread : readAll reader frames = (kept, .closed) := by
    rw [hframes]
    exact readAll_flatMap_wrap hfits
  refine ⟨?_, ?_, ?_, hread, ?_, ?_⟩
  · rw [putAll_eq hword]
    rfl
  · rw [putAll_eq hword, hframes]
  · intro body hbody
    constructor
    · intro hsame
      by_cases hshort : body.length ≤ writer
      · -- a frame that was written is there to be seen
        rw [put_of_fits ⟨hshort, hword body hbody⟩] at hsame
        have hnothing := List.append_right_eq_self.mp hsame
        have hlength := congrArg List.length hnothing
        have hheader : headerSize = 4 := rfl
        rw [length_wrap, List.length_nil] at hlength
        omega
      · exact Nat.lt_of_not_le hshort
    · intro hlong
      rw [put_of_long hlong]
  · rw [hread]
    rfl
  · intro after
    rw [hframes]
    exact ⟨takeBodies_flatMap_wrap hfits after, readAll_flatMap_wrap_append hfits after⟩

/-- An empty body, one that looks like a header, one that is too long, and one that is as
    long as it may be, in front of a header that is cut off. -/
theorem read_back_what_was_put_around_refusal :
    let bodies : List Bytes := [[], [0, 0, 0, 1], [0, 0, 0, 0, 0], [7, 7, 7, 7]]
    let frames := (putAll 4 [] bodies).2
    4 ≤ 5 ∧ (∀ body ∈ bodies, body.length < sizeBound)
      ∧ (putAll 4 [] bodies).1
        = [.ok (), .ok (), .error (.protocol (.oversized 5 4)), .ok ()]
      ∧ readAll 5 frames = ([[], [0, 0, 0, 1], [7, 7, 7, 7]], .closed)
      ∧ takeBodies 5 3 (frames ++ [0, 0]) = some ([[], [0, 0, 0, 1], [7, 7, 7, 7]], [0, 0]) := by
  intro bodies frames
  have hword : ∀ body ∈ bodies, body.length < sizeBound := by decide
  obtain ⟨hresults, -, -, hread, -, hafter⟩ :=
    read_back_what_was_put 4 5 [] bodies (by decide) hword
  exact ⟨by decide, hword, hresults, hread, (hafter [0, 0]).1⟩

end Frame

/-! ### Who writes -/

/-- What a client is told of a request that it writes is what comes of putting it on the
    stream. -/
theorem Client.frame_eq_put (limit : Nat) (stream : Bytes) (r : Request) :
    (Client.frame limit r).map (fun _ => ())
      = (Frame.put limit stream (encode Wire.request r)).1 := by
  unfold Client.frame Frame.put
  cases hwrite : Frame.write limit (encode Wire.request r) with
  | none => simp only [hwrite]; rfl
  | some frame => simp only [hwrite]; rfl

/-- So it is with the answers of a session. -/
theorem Session.reply_eq_put (b : Broker) (draws : Draws) (limit : Nat) (s : Session)
    (stream body : Bytes) :
    (s.reply b draws limit body).1.map (fun _ => ())
      = (Frame.put limit stream (Session.fitted limit (s.answer b draws body).1)).1 := by
  simp only [Session.reply, Frame.put]
  cases hwrite : Frame.write limit (Session.fitted limit (s.answer b draws body).1) with
  | none => rfl
  | some frame => rfl

end KeyBroker
