import KeyBroker.Bytes

/-! # Frames

On a stream a message is a frame: the length of its body in four bytes, most significant first, and
the body. Both ends refuse bodies longer than their limit, the writer before it writes anything, the
reader once it has seen the length. No frame holds a body whose length needs more than four bytes. A
stream that ends before a whole length counts as closed.
Main statement: what was framed comes off a stream again, and the rest stays.
-/

namespace KeyBroker.Frame

/-- The length of the length. -/
def headerSize : Nat := 4

/-- A body behind its length. -/
def wrap (body : Bytes) : Bytes := Bytes.ofNatBE headerSize body.length ++ body

/-- The first length that four bytes cannot hold. -/
def sizeBound : Nat := 1 <<< (8 * headerSize)

/-- Writes a body as a frame, unless it is longer than the limit or than any frame. -/
def write (limit : Nat) (body : Bytes) : Option Bytes :=
  if body.length > limit ∨ body.length ≥ sizeBound then none else some (wrap body)

/-- What a reader finds on a stream: nothing more, a body, a length beyond the limit, or a body that
the end cuts off. -/
inductive Reading where
  | closed
  | body (b rest : Bytes)
  | oversized (size : Nat) (rest : Bytes)
  | cut
  deriving DecidableEq, Repr

/-- Takes a frame off the front of a stream that has ended. -/
def read (limit : Nat) (stream : Bytes) : Reading :=
  let header := stream.take headerSize
  if header.length < headerSize then .closed
  else
    let size := Bytes.toNatBE header
    let rest := stream.drop headerSize
    if size > limit then .oversized size rest
    else
      let b := rest.take size
      if b.length < size then .cut else .body b (rest.drop size)

/-- What a reader leaves of a stream is shorter than the stream. -/
theorem rest_lt_of_read {limit : Nat} {stream b rest : Bytes}
    (h : read limit stream = .body b rest) : rest.length < stream.length := by
  simp only [read] at h
  split at h
  · cases h
  · next long =>
    split at h
    · cases h
    · split at h
      · cases h
      · injection h with _ rest_eq
        have : 0 < headerSize := by decide
        simp only [List.length_take] at long
        subst rest_eq
        simp only [List.length_drop]
        omega

/-- So it is when only a length was taken. -/
theorem rest_lt_of_oversized {limit size : Nat} {stream rest : Bytes}
    (h : read limit stream = .oversized size rest) : rest.length < stream.length := by
  simp only [read] at h
  split at h
  · cases h
  · next long =>
    split at h
    · injection h with _ rest_eq
      have : 0 < headerSize := by decide
      simp only [List.length_take] at long
      subst rest_eq
      simp only [List.length_drop]
      omega
    · split at h <;> cases h

/-- A written frame is read whole, and what follows stays; beyond the limit its body stays too. -/
theorem read_wrap {body : Bytes} (word : body.length < sizeBound) (limit : Nat) (rest : Bytes) :
    read limit (wrap body ++ rest)
      = if body.length > limit then .oversized body.length (body ++ rest)
        else .body body rest := by
  have header : (wrap body ++ rest).take headerSize = Bytes.ofNatBE headerSize body.length := by
    rw [wrap, List.append_assoc, List.take_left' (Bytes.length_ofNatBE _ _)]
  have after : (wrap body ++ rest).drop headerSize = body ++ rest := by
    rw [wrap, List.append_assoc, List.drop_left' (Bytes.length_ofNatBE _ _)]
  have size : body.length % (1 <<< (8 * headerSize)) = body.length := Nat.mod_eq_of_lt word
  simp only [read, header, after, Bytes.toNatBE_ofNatBE, size,
    Bytes.length_ofNatBE, List.take_left, List.drop_left]
  rw [if_neg (by omega), if_neg (Nat.lt_irrefl _)]

/-- The bodies on a stream, in order, and how it ends. -/
def readAll (limit : Nat) (stream : Bytes) : List Bytes × Reading :=
  match h : read limit stream with
  | .body b rest =>
    have := rest_lt_of_read h
    let (bodies, ending) := readAll limit rest
    (b :: bodies, ending)
  | ending => ([], ending)
termination_by stream.length

end KeyBroker.Frame
