import KeyBroker.Wire.Frame

/-! # Bodies on a stream

  A body fits when it is within the limit and its length fits the header. What fits is
  written and read whole, one body after the other. A body beyond the reader's limit is
  different: the reader takes the header only, and the body stays on the stream.
-/

namespace KeyBroker.Frame

/-- A body that an end with this limit writes and reads. -/
structure Fits (limit : Nat) (body : Bytes) : Prop where
  short : body.length ≤ limit
  word : body.length < sizeBound

instance (limit : Nat) (body : Bytes) : Decidable (Fits limit body) :=
  decidable_of_iff (body.length ≤ limit ∧ body.length < sizeBound)
    ⟨fun h => ⟨h.1, h.2⟩, fun h => ⟨h.short, h.word⟩⟩

variable {limit : Nat} {body : Bytes}

/-! ### Writing -/

theorem length_wrap (body : Bytes) : (wrap body).length = headerSize + body.length := by
  rw [wrap, List.length_append, Bytes.length_ofNatBE]

theorem write_of_fits (h : Fits limit body) : write limit body = some (wrap body) := by
  have hshort := h.short
  have hword := h.word
  rw [write, if_neg (by omega)]

theorem write_of_not_fits (h : ¬ Fits limit body) : write limit body = none := by
  have hlong : body.length > limit ∨ body.length ≥ sizeBound := by
    by_cases hshort : body.length ≤ limit
    · by_cases hword : body.length < sizeBound
      · exact absurd ⟨hshort, hword⟩ h
      · exact .inr (by omega)
    · exact .inl (by omega)
  rw [write, if_pos hlong]

/-! ### Reading -/

theorem read_nil (limit : Nat) : read limit [] = .closed := rfl

theorem read_of_fits (h : Fits limit body) (rest : Bytes) :
    read limit (wrap body ++ rest) = .body body rest := by
  have hshort := h.short
  rw [read_wrap h.word, if_neg (by omega)]

/-- Of a body beyond its limit a reader takes the header, and nothing of the body. -/
theorem read_of_oversized (hlong : limit < body.length) (hword : body.length < sizeBound)
    (rest : Bytes) : read limit (wrap body ++ rest) = .oversized body.length (body ++ rest) := by
  rw [read_wrap hword, if_pos hlong]

/-- A stream that begins with a body is read on behind it. -/
theorem readAll_of_body {stream b rest : Bytes} (h : read limit stream = .body b rest) :
    readAll limit stream = (b :: (readAll limit rest).1, (readAll limit rest).2) := by
  rw [readAll]
  split
  · next b' rest' heq =>
    rw [h] at heq
    obtain ⟨rfl, rfl⟩ := heq
    rfl
  · next hnone => exact absurd h (hnone b rest)

/-- Any other stream ends the reading. -/
theorem readAll_of_end {stream : Bytes} (h : ∀ b rest, read limit stream ≠ .body b rest) :
    readAll limit stream = ([], read limit stream) := by
  rw [readAll]
  split
  · next b rest heq => exact absurd heq (h b rest)
  · rfl

theorem readAll_nil (limit : Nat) : readAll limit [] = ([], .closed) :=
  @readAll_of_end limit [] nofun

/-- Bodies that fit are read one after the other, and then what stands behind them. -/
theorem readAll_flatMap_wrap_append {bodies : List Bytes} (h : ∀ body ∈ bodies, Fits limit body)
    (rest : Bytes) :
    readAll limit (bodies.flatMap wrap ++ rest)
      = (bodies ++ (readAll limit rest).1, (readAll limit rest).2) := by
  induction bodies with
  | nil => rfl
  | cons body bodies ih =>
    have hread := read_of_fits (h body List.mem_cons_self) (bodies.flatMap wrap ++ rest)
    rw [List.flatMap_cons, List.append_assoc, readAll_of_body hread,
      ih fun b hb => h b (List.mem_cons_of_mem _ hb)]
    rfl

/-- A whole stream of bodies that fit is read body by body, up to its end. -/
theorem readAll_flatMap_wrap {bodies : List Bytes} (h : ∀ body ∈ bodies, Fits limit body) :
    readAll limit (bodies.flatMap wrap) = (bodies, .closed) := by
  have hread := readAll_flatMap_wrap_append h []
  rwa [List.append_nil, readAll_nil, List.append_nil] at hread

end KeyBroker.Frame
