import KeyBroker.Proofs.Stream.Framing
import KeyBroker.Session

/-! # Where the reading of a stream ends

  Every stream is a row of whole frames and a rest that begins with none. What is read off
  it are the bodies of the row, and the rest alone decides how the reading ends. There are
  three kinds of rest: less than a header, a header that announces more than the limit, and
  a header with less behind it than it announces. The first kind counts as a clean end, and
  it need not be empty: a header that the end cuts off is taken for no header.
-/

namespace KeyBroker.Frame

variable {limit size : Nat} {stream rest : Bytes} {bodies : List Bytes} {last : Reading}

/-! ### Headers -/

/-- The header of a frame whose body has some size. -/
def header (size : Nat) : Bytes := Bytes.ofNatBE headerSize size

@[simp] theorem length_header (size : Nat) : (header size).length = headerSize :=
  Bytes.length_ofNatBE _ _

theorem wrap_eq_header_append (body : Bytes) : wrap body = header body.length ++ body := rfl

/-- What is no shorter than a header begins with one. -/
theorem exists_header (h : headerSize ≤ stream.length) :
    ∃ size after, size < sizeBound ∧ stream = header size ++ after := by
  have hfour : (stream.take headerSize).length = headerSize := by
    rw [List.length_take, Nat.min_eq_left h]
  refine ⟨Bytes.toNatBE (stream.take headerSize), stream.drop headerSize, ?_, ?_⟩
  · have hbound := Bytes.toNatLE_lt (stream.take headerSize).reverse
    rwa [List.length_reverse, hfour] at hbound
  · have hdigits := Bytes.ofNatBE_toNatBE (stream.take headerSize)
    rw [hfour] at hdigits
    rw [header, hdigits, List.take_append_drop]

/-- Nothing is read of less than a header. -/
theorem read_of_short (h : stream.length < headerSize) : read limit stream = .closed := by
  have htaken : (stream.take headerSize).length < headerSize := by
    rw [List.length_take]
    omega
  simp only [read]
  rw [if_pos htaken]

/-- A header decides what is read of what stands behind it. -/
theorem read_header (hword : size < sizeBound) (after : Bytes) :
    read limit (header size ++ after)
      = if size > limit then .oversized size after
        else if (after.take size).length < size then .cut
        else .body (after.take size) (after.drop size) := by
  have htake : (header size ++ after).take headerSize = header size :=
    List.take_left' (length_header size)
  have hdrop : (header size ++ after).drop headerSize = after :=
    List.drop_left' (length_header size)
  have hsize : Bytes.toNatBE (header size) = size := by
    rw [header, Bytes.toNatBE_ofNatBE]
    exact Nat.mod_eq_of_lt hword
  simp only [read, htake, hdrop, hsize, length_header]
  rw [if_neg (Nat.lt_irrefl _)]

/-! ### Rests -/

/-- What a stream can have left when no whole frame is in front any more, and what the
    reader finds there. -/
inductive Stop (limit : Nat) : Bytes → Reading → Prop where
  /-- There is less than a header. -/
  | short (rest : Bytes) (hshort : rest.length < headerSize) : Stop limit rest .closed
  /-- A header announces a body beyond the limit. -/
  | oversized (size : Nat) (after : Bytes) (hlong : limit < size) (hword : size < sizeBound) :
    Stop limit (header size ++ after) (.oversized size after)
  /-- A header announces more than there is. -/
  | cut (size : Nat) (part : Bytes) (hshort : size ≤ limit) (hword : size < sizeBound)
      (hcut : part.length < size) :
    Stop limit (header size ++ part) .cut

/-- The reader finds what the rest is, -/
theorem read_of_stop (h : Stop limit rest last) : read limit rest = last := by
  cases h with
  | short _ hshort => exact read_of_short hshort
  | oversized size after hlong hword => rw [read_header hword, if_pos hlong]
  | cut size part hshort hword hcut =>
    have htaken : (part.take size).length < size := by
      rw [List.length_take]
      omega
    rw [read_header hword, if_neg (by omega), if_pos htaken]

/-- and that is never a body. -/
theorem ne_body_of_stop (h : Stop limit rest last) (b after : Bytes) : last ≠ .body b after := by
  cases h <;> nofun

/-- A stream begins with a frame that fits, or there is nothing left to read of it. -/
theorem body_or_stop (limit : Nat) (stream : Bytes) :
    (∃ body rest, Fits limit body ∧ stream = wrap body ++ rest)
      ∨ ∃ last, Stop limit stream last := by
  by_cases hheader : stream.length < headerSize
  · exact .inr ⟨_, .short stream hheader⟩
  obtain ⟨size, after, hword, rfl⟩ := exists_header (Nat.le_of_not_lt hheader)
  by_cases hlong : limit < size
  · exact .inr ⟨_, .oversized size after hlong hword⟩
  by_cases hcut : after.length < size
  · exact .inr ⟨_, .cut size after (by omega) hword hcut⟩
  -- all that the header announces is there
  have hbody : (after.take size).length = size := by
    rw [List.length_take]
    omega
  refine .inl ⟨after.take size, after.drop size, ⟨by omega, by omega⟩, ?_⟩
  rw [wrap_eq_header_append, hbody, List.append_assoc, List.take_append_drop]

/-- A rest ends the reading cleanly just if there is less than a header, -/
theorem stop_clean_iff :
    (∃ last, Stop limit rest last ∧ Session.endingOf limit last = .ok ())
      ↔ rest.length < headerSize := by
  constructor
  · rintro ⟨last, hstop, hend⟩
    cases hstop with
    | short _ hshort => exact hshort
    | oversized size after hlong hword => cases hend
    | cut size part hshort hword hcut => cases hend
  · intro hshort
    exact ⟨_, .short rest hshort, rfl⟩

/-- by an early end just if a body is cut off, -/
theorem stop_cut_iff :
    (∃ last, Stop limit rest last
        ∧ Session.endingOf limit last = .error (.transport .endOfStream))
      ↔ ∃ size part, rest = header size ++ part ∧ size ≤ limit ∧ size < sizeBound
        ∧ part.length < size := by
  constructor
  · rintro ⟨last, hstop, hend⟩
    cases hstop with
    | short _ hshort => cases hend
    | oversized size after hlong hword => cases hend
    | cut size part hshort hword hcut => exact ⟨size, part, rfl, hshort, hword, hcut⟩
  · rintro ⟨size, part, rfl, hshort, hword, hcut⟩
    exact ⟨_, .cut size part hshort hword hcut, rfl⟩

/-- and by the fault of a size just if a body of that size is announced beyond the limit. -/
theorem stop_oversized_iff :
    (∃ last, Stop limit rest last
        ∧ Session.endingOf limit last = .error (Session.oversized size limit))
      ↔ ∃ after, rest = header size ++ after ∧ limit < size ∧ size < sizeBound := by
  constructor
  · rintro ⟨last, hstop, hend⟩
    cases hstop with
    | short _ hshort => cases hend
    | oversized size after hlong hword =>
      cases hend
      exact ⟨after, rfl, hlong, hword⟩
    | cut size part hshort hword hcut => cases hend
  · rintro ⟨after, rfl, hlong, hword⟩
    exact ⟨_, .oversized size after hlong hword, rfl⟩

/-! ### Streams -/

/-- A stream is a row of whole frames within the limit, and a rest. -/
structure Splits (limit : Nat) (stream : Bytes) (bodies : List Bytes) (rest : Bytes) : Prop where
  /-- The bodies in the row are such as the reader takes. -/
  fits : ∀ body ∈ bodies, Fits limit body
  /-- The stream is their frames and then the rest. -/
  whole : stream = bodies.flatMap wrap ++ rest

/-- A row of frames and a rest are read as what they are. -/
theorem readAll_of_stop (hsplit : Splits limit stream bodies rest) (h : Stop limit rest last) :
    readAll limit stream = (bodies, last) := by
  have hread := read_of_stop h
  have hend : readAll limit rest = ([], read limit rest) := by
    apply readAll_of_end
    rw [hread]
    exact ne_body_of_stop h
  rw [hsplit.whole, readAll_flatMap_wrap_append hsplit.fits, hend, hread, List.append_nil]

/-- Every stream is such a row and such a rest. -/
theorem exists_splits (limit : Nat) (stream : Bytes) :
    ∃ bodies rest last, Splits limit stream bodies rest ∧ Stop limit rest last := by
  -- on the length: a frame in front leaves a shorter stream
  induction hlength : stream.length using Nat.strongRecOn generalizing stream with
  | ind n ih =>
    obtain ⟨body, after, hfits, rfl⟩ | ⟨last, hstop⟩ := body_or_stop limit stream
    · have hshorter : after.length < n := by
        have hheader : 0 < headerSize := by decide
        rw [List.length_append, length_wrap] at hlength
        omega
      obtain ⟨bodies, rest, last, hsplit, hstop⟩ := ih _ hshorter after rfl
      refine ⟨body :: bodies, rest, last, ⟨?_, ?_⟩, hstop⟩
      · exact List.forall_mem_cons.mpr ⟨hfits, hsplit.fits⟩
      · rw [hsplit.whole, List.flatMap_cons, List.append_assoc]
    · exact ⟨[], stream, last, ⟨nofun, rfl⟩, hstop⟩

/-- What is read off a stream, told without reading it: the row of frames that it begins
    with, and what the rest is. -/
theorem readAll_eq_iff :
    readAll limit stream = (bodies, last)
      ↔ ∃ rest, Splits limit stream bodies rest ∧ Stop limit rest last := by
  constructor
  · intro h
    obtain ⟨others, rest, found, hsplit, hstop⟩ := exists_splits limit stream
    have hread := readAll_of_stop hsplit hstop
    rw [h] at hread
    obtain ⟨rfl, rfl⟩ := Prod.mk.inj hread
    exact ⟨rest, hsplit, hstop⟩
  · rintro ⟨rest, hsplit, hstop⟩
    exact readAll_of_stop hsplit hstop

/-- So an end is told from the rest. -/
theorem endingOf_readAll_iff {ending : Ending} :
    Session.endingOf limit (readAll limit stream).2 = ending
      ↔ ∃ bodies rest, Splits limit stream bodies rest
        ∧ ∃ last, Stop limit rest last ∧ Session.endingOf limit last = ending := by
  constructor
  · intro h
    obtain ⟨rest, hsplit, hstop⟩ := readAll_eq_iff.mp (rfl : readAll limit stream = (_, _))
    exact ⟨_, rest, hsplit, _, hstop, h⟩
  · rintro ⟨bodies, rest, hsplit, last, hstop, h⟩
    rw [readAll_of_stop hsplit hstop]
    exact h

/-- Reading delivers the bodies of the whole frames that a stream begins with, and of the
    rest it delivers nothing. It ends cleanly just if the rest is shorter than a header, by
    an early end just if a body is cut off, and by the fault of its size just if a body is
    announced beyond the limit. -/
theorem ends_clean_iff_short_of_header (limit : Nat) (stream : Bytes) :
    let ending := Session.endingOf limit (readAll limit stream).2
    (∀ bodies last, readAll limit stream = (bodies, last)
        ↔ ∃ rest, Splits limit stream bodies rest ∧ Stop limit rest last)
      ∧ (ending = .ok () ↔ ∃ bodies rest, Splits limit stream bodies rest
        ∧ rest.length < headerSize)
      ∧ (ending = .error (.transport .endOfStream) ↔ ∃ bodies size part,
        Splits limit stream bodies (header size ++ part)
        ∧ size ≤ limit ∧ size < sizeBound ∧ part.length < size)
      ∧ (∀ size, ending = .error (Session.oversized size limit) ↔ ∃ bodies after,
        Splits limit stream bodies (header size ++ after) ∧ limit < size ∧ size < sizeBound) := by
  intro ending
  refine ⟨fun _ _ => readAll_eq_iff, ?_, ?_, ?_⟩
  · rw [endingOf_readAll_iff]
    simp only [stop_clean_iff]
  · rw [endingOf_readAll_iff]
    simp only [stop_cut_iff]
    constructor
    · rintro ⟨bodies, _, hsplit, size, part, rfl, hcut⟩
      exact ⟨bodies, size, part, hsplit, hcut⟩
    · rintro ⟨bodies, size, part, hsplit, hcut⟩
      exact ⟨bodies, _, hsplit, size, part, rfl, hcut⟩
  · intro size
    rw [endingOf_readAll_iff]
    simp only [stop_oversized_iff]
    constructor
    · rintro ⟨bodies, _, hsplit, after, rfl, hlong⟩
      exact ⟨bodies, after, hsplit, hlong⟩
    · rintro ⟨bodies, after, hsplit, hlong⟩
      exact ⟨bodies, _, hsplit, after, rfl, hlong⟩

/-- The first byte of a header is no row of frames, and yet a clean end. -/
theorem half_header_ends_clean :
    ¬ ∀ (limit : Nat) (stream : Bytes),
        Session.endingOf limit (readAll limit stream).2 = .ok ()
          ↔ ∃ bodies, Splits limit stream bodies [] := by
  intro h
  have hclean : Session.endingOf 100 (readAll 100 [0]).2 = .ok () :=
    endingOf_readAll_iff.mpr ⟨[], [0], ⟨nofun, rfl⟩, stop_clean_iff.mpr (by decide)⟩
  obtain ⟨bodies, hsplit⟩ := (h 100 [0]).mp hclean
  have hrow : [0] = bodies.flatMap wrap := hsplit.whole.trans (List.append_nil _)
  -- one frame alone would be longer than this stream
  cases bodies with
  | nil => cases hrow
  | cons body rest =>
    have hlength := congrArg List.length hrow
    rw [List.flatMap_cons, List.length_append, length_wrap] at hlength
    have hheader : headerSize = 4 := rfl
    simp only [List.length_singleton] at hlength
    omega

end KeyBroker.Frame
