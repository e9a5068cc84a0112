import KeyBroker.Proofs.Key.Undoing
import Mathlib.Logic.ExistsUnique

/-! # What opens is exactly what was sealed

  A box is a nonce, a masked message and a tag. Under one secret the nonce and the masked
  message determine the tag, and taking the mask away is the same as putting it on. So a box
  that opens is the one box that sealing its message with its nonce gives, and of all boxes
  that differ in their tags alone one opens.

  The lemma `openWith_parts` says when the three parts of a box open. The others take a box
  apart and apply it.
-/

namespace KeyBroker

open Crypto.Gcm (nonceSize tagSize maxMessage keySized)

/-! ### The parts of a box -/

namespace Crypto.Gcm

/-- Opening compares the tag with the one that the other two parts call for. -/
theorem opened?_parts (secret masked : Bytes) {nonce other : Bytes}
    (hnonce : nonce.length = nonceSize) (hother : other.length = tagSize) :
    opened? secret (nonce ++ masked ++ other)
      = if tag (Aes.schedule secret) nonce masked = other then
          some (mask (Aes.schedule secret) nonce masked)
        else none := by
  -- the first cut is behind the nonce, the second one is counted from the end
  have hfirst : (nonce ++ masked ++ other).take nonceSize = nonce := by
    rw [List.append_assoc, List.take_left' hnonce]
  have hbody : (nonce ++ masked ++ other).drop nonceSize = masked ++ other := by
    rw [List.append_assoc, List.drop_left' hnonce]
  have hcut : (masked ++ other).length - tagSize = masked.length := by
    rw [List.length_append]
    omega
  unfold opened?
  simp only [hfirst, hbody, hcut, List.take_left, List.drop_left]

/-- Every byte string with room for a nonce and a tag has the three parts. -/
theorem exists_parts {box : Bytes} (hroom : nonceSize + tagSize ≤ box.length) :
    ∃ (nonce : Vector UInt8 12) (masked : Bytes) (other : Vector UInt8 16),
      box = nonce.toList ++ masked ++ other.toList := by
  have hroom : 12 + 16 ≤ box.length := hroom
  have hnonce : (box.take 12).toArray.size = 12 := by
    simp only [List.size_toArray, List.length_take]
    omega
  have hother : (box.drop (box.length - 16)).toArray.size = 16 := by
    simp only [List.size_toArray, List.length_drop]
    omega
  refine ⟨⟨_, hnonce⟩, (box.drop 12).take (box.length - 28), ⟨_, hother⟩, ?_⟩
  -- counted from behind the nonce, the tag begins 28 bytes before the length of the box
  have hrest : box.drop (box.length - 16) = (box.drop 12).drop (box.length - 28) := by
    rw [List.drop_drop]
    congr 1
    omega
  show box = box.take 12 ++ (box.drop 12).take (box.length - 28) ++ box.drop (box.length - 16)
  rw [hrest, List.append_assoc, List.take_append_drop, List.take_append_drop]

/-- The tag of a masked message, as one of its length. -/
theorem exists_tag (keys : List Aes.Block) (nonce masked : Bytes) :
    ∃ right : Vector UInt8 16, right.toList = tag keys nonce masked :=
  ⟨⟨(tag keys nonce masked).toArray, length_tag keys nonce masked⟩, rfl⟩

end Crypto.Gcm

/-! ### Sealing and opening -/

section Secret

variable {secret message box : Bytes}

theorem sealWith_of_sized (hsized : keySized secret = true) (nonce : Vector UInt8 12)
    (hlimit : message.length ≤ maxMessage) :
    sealWith secret nonce message = .ok (Crypto.Gcm.sealed secret nonce.toList message) := by
  unfold sealWith
  rw [hsized, if_neg (by decide), if_neg (Nat.not_lt.mpr hlimit)]

theorem sealWith_of_not_sized (hsized : keySized secret = false) (nonce : Vector UInt8 12)
    (message : Bytes) :
    sealWith secret nonce message = .error (.secretLength secret.length) := by
  unfold sealWith
  rw [hsized, if_pos (by decide)]

theorem openWith_of_not_sized (hsized : keySized secret = false) (box : Bytes) :
    openWith secret box = .error (.secretLength secret.length) := by
  unfold openWith
  rw [hsized, if_pos (by decide)]

/-- What is too short for a nonce and a tag is not looked at. -/
theorem openWith_of_short (hsized : keySized secret = true)
    (hshort : box.length < nonceSize + tagSize) :
    openWith secret box = .error (.tooShort box.length) := by
  unfold openWith
  rw [hsized, if_neg (by decide), if_pos hshort]

/-- A box in its three parts opens if its tag is the right one. -/
theorem openWith_parts (hsized : keySized secret = true) (nonce : Vector UInt8 12)
    (masked : Bytes) (other : Vector UInt8 16) :
    openWith secret (nonce.toList ++ masked ++ other.toList)
      = if Crypto.Gcm.tag (Crypto.Aes.schedule secret) nonce.toList masked = other.toList then
          .ok (Crypto.Gcm.mask (Crypto.Aes.schedule secret) nonce.toList masked)
        else .error .badTag := by
  have hnonce : nonce.toList.length = nonceSize := nonce.length_toList
  have hother : other.toList.length = tagSize := other.length_toList
  have hlong : ¬ (nonce.toList ++ masked ++ other.toList).length < nonceSize + tagSize := by
    simp only [List.length_append]
    omega
  unfold openWith
  rw [hsized, Crypto.Gcm.opened?_parts secret masked hnonce hother]
  simp only [Bool.not_true, Bool.false_eq_true, if_false, if_neg hlong]
  by_cases htag : Crypto.Gcm.tag (Crypto.Aes.schedule secret) nonce.toList masked = other.toList
  · simp only [if_pos htag]
  · simp only [if_neg htag]

/-- What sealing gives, in its three parts. -/
theorem sealWith_parts (hsized : keySized secret = true) (nonce : Vector UInt8 12)
    (hlimit : message.length ≤ maxMessage) :
    ∃ (masked : Bytes) (tag : Vector UInt8 16), masked.length = message.length
      ∧ sealWith secret nonce message = .ok (nonce.toList ++ masked ++ tag.toList) := by
  obtain ⟨tag, htag⟩ := Crypto.Gcm.exists_tag (Crypto.Aes.schedule secret) nonce.toList
    (Crypto.Gcm.mask (Crypto.Aes.schedule secret) nonce.toList message)
  refine ⟨Crypto.Gcm.mask (Crypto.Aes.schedule secret) nonce.toList message, tag,
    Crypto.Gcm.length_mask _ _ _, ?_⟩
  rw [sealWith_of_sized hsized nonce hlimit, htag]
  rfl

/-- A box that opens is one that sealing gives: its message, sealed with its nonce. -/
theorem sealWith_of_openWith (hlimit : message.length ≤ maxMessage)
    (h : openWith secret box = .ok message) :
    ∃ nonce : Vector UInt8 12, nonce.toList = box.take 12
      ∧ sealWith secret nonce message = .ok box := by
  cases hsized : keySized secret with
  | false =>
    rw [openWith_of_not_sized hsized] at h
    cases h
  | true =>
    by_cases hroom : nonceSize + tagSize ≤ box.length
    · obtain ⟨nonce, masked, other, rfl⟩ := Crypto.Gcm.exists_parts hroom
      rw [openWith_parts hsized] at h
      split at h
      · next htag =>
        obtain rfl := Except.ok.inj h
        refine ⟨nonce, ?_, ?_⟩
        · rw [List.append_assoc, List.take_left' nonce.length_toList]
        · -- the mask put on again gives what was masked, and that calls for the tag in the box
          rw [sealWith_of_sized hsized nonce hlimit]
          unfold Crypto.Gcm.sealed
          dsimp only
          rw [Crypto.Gcm.mask_mask, htag]
      · cases h
    · rw [openWith_of_short hsized (Nat.lt_of_not_le hroom)] at h
      cases h

end Secret

/-! ### Under a secret -/

namespace Operation

variable {secret message box : Bytes}

/-- Naming the fault of an algorithm changes nothing about what it gives. -/
theorem mapError_eq_ok_iff {x : Except AlgorithmFault Bytes} {given : Bytes} :
    x.mapError KeyFault.algorithm = .ok given ↔ x = .ok given := by
  cases x with
  | error cause =>
    constructor
    · nofun
    · nofun
  | ok b =>
    constructor
    · intro h
      cases h
      rfl
    · intro h
      cases h
      rfl

theorem encryptUnder_eq_ok_iff {draw : Draw} :
    encryptUnder (.secret secret) .standard draw message = .ok box
      ↔ sealWith secret draw.nonce message = .ok box := mapError_eq_ok_iff

theorem decryptUnder_eq_ok_iff :
    decryptUnder (.secret secret) .standard box = .ok message
      ↔ openWith secret box = .ok message := mapError_eq_ok_iff

/-- Encrypting under a secret of the right length gives nonce, masked message and tag. -/
theorem encryptUnder_parts (hsized : keySized secret = true) (draw : Draw)
    (hlimit : message.length ≤ maxMessage) :
    ∃ (masked : Bytes) (tag : Vector UInt8 16), masked.length = message.length
      ∧ encryptUnder (.secret secret) .standard draw message
          = .ok (draw.nonce.toList ++ masked ++ tag.toList) := by
  obtain ⟨masked, tag, hlength, hseal⟩ := sealWith_parts hsized draw.nonce hlimit
  exact ⟨masked, tag, hlength, encryptUnder_eq_ok_iff.mpr hseal⟩

/-- What decrypts to a message is what encrypting the message with its nonce gives. -/
theorem decryptUnder_iff_encryptUnder (hlimit : message.length ≤ maxMessage) (box : Bytes) :
    decryptUnder (.secret secret) .standard box = .ok message
      ↔ ∃ draw : Draw, draw.nonce.toList = box.take 12
          ∧ encryptUnder (.secret secret) .standard draw message = .ok box := by
  constructor
  · intro h
    obtain ⟨nonce, hnonce, hseal⟩ :=
      sealWith_of_openWith hlimit (decryptUnder_eq_ok_iff.mp h)
    -- the seed that is drawn with a nonce is for key pairs, so any will do
    exact ⟨⟨nonce, Vector.replicate 64 0, 1⟩, hnonce, encryptUnder_eq_ok_iff.mpr hseal⟩
  · rintro ⟨draw, -, h⟩
    exact decryptUnder_eq_ok_iff.mpr (openWith_of_sealWith (encryptUnder_eq_ok_iff.mp h))

/-- With a nonce and a masked message, one tag decrypts and every other one does not fit. -/
theorem decryptUnder_parts (hsized : keySized secret = true) (nonce : Vector UInt8 12)
    (masked : Bytes) :
    ∃ (tag : Vector UInt8 16) (message : Bytes), message.length = masked.length
      ∧ ∀ other : Vector UInt8 16,
          decryptUnder (.secret secret) .standard (nonce.toList ++ masked ++ other.toList)
            = if other = tag then .ok message else .error (.algorithm .badTag) := by
  obtain ⟨tag, htag⟩ :=
    Crypto.Gcm.exists_tag (Crypto.Aes.schedule secret) nonce.toList masked
  refine ⟨tag, Crypto.Gcm.mask (Crypto.Aes.schedule secret) nonce.toList masked,
    Crypto.Gcm.length_mask _ _ _, ?_⟩
  intro other
  show (openWith secret _).mapError KeyFault.algorithm = _
  rw [openWith_parts hsized, ← htag]
  by_cases hsame : other = tag
  · rw [if_pos (congrArg Vector.toList hsame.symm), if_pos hsame]
    rfl
  · have hbytes : tag.toList ≠ other.toList := by
      intro hbytes
      exact hsame (Vector.toList_inj.mp hbytes.symm)
    rw [if_neg hbytes, if_neg hsame]
    rfl

/-- What is too short for a nonce and a tag fails as such. -/
theorem decryptUnder_of_short (hsized : keySized secret = true) (hshort : box.length < 28) :
    decryptUnder (.secret secret) .standard box = .error (.algorithm (.tooShort box.length)) := by
  show (openWith secret box).mapError KeyFault.algorithm = _
  rw [openWith_of_short hsized hshort]
  rfl

/-- Another tag in the place of one that is accepted does not fit. -/
theorem decryptUnder_of_other_tag (hsized : keySized secret = true) {front : Bytes}
    {tag other : Vector UInt8 16}
    (haccepted : decryptUnder (.secret secret) .standard (front ++ tag.toList) = .ok message)
    (hother : other ≠ tag) :
    decryptUnder (.secret secret) .standard (front ++ other.toList)
      = .error (.algorithm .badTag) := by
  rcases Nat.lt_or_ge (front ++ tag.toList).length 28 with hshort | hlong
  · rw [decryptUnder_of_short hsized hshort] at haccepted
    cases haccepted
  · -- so what is in front of the tag is a nonce and a masked message
    obtain ⟨nonce, masked, last, hparts⟩ := Crypto.Gcm.exists_parts hlong
    have hlast : tag.toList.length = last.toList.length :=
      tag.length_toList.trans last.length_toList.symm
    obtain ⟨rfl, -⟩ := List.append_inj' hparts hlast
    obtain ⟨right, opened, -, hfits⟩ := decryptUnder_parts hsized nonce masked
    rw [hfits] at haccepted
    split at haccepted
    · next hright =>
      rw [hfits, if_neg]
      rw [← hright]
      exact hother
    · cases haccepted

/-- Secrets of another length encrypt and decrypt nothing. -/
theorem underSecret_of_not_sized (hsized : keySized secret = false) (draw : Draw)
    (payload : Bytes) :
    encryptUnder (.secret secret) .standard draw payload
        = .error (.algorithm (.secretLength secret.length))
      ∧ decryptUnder (.secret secret) .standard payload
          = .error (.algorithm (.secretLength secret.length)) := by
  constructor
  · show (sealWith secret draw.nonce payload).mapError KeyFault.algorithm = _
    rw [sealWith_of_not_sized hsized]
    rfl
  · show (openWith secret payload).mapError KeyFault.algorithm = _
    rw [openWith_of_not_sized hsized]
    rfl

/-- Under a secret of 16 or 32 bytes, encrypting gives nonce, masked message and tag, 28 bytes
    more than the message. A byte string decrypts to a message within the limit if and only if
    encrypting that message with the first 12 of its bytes for a nonce gives the byte string.
    With one nonce and one masked message exactly one tag is accepted, any other tag in the
    place of an accepted one fails, and so does every byte string that is shorter than 28
    bytes. Under a secret of any other length everything fails. -/
theorem decrypts_exactly_what_it_encrypts (secret : Bytes) :
    (secret.length = 16 ∨ secret.length = 32 →
      (∀ (draw : Draw) (message : Bytes), message.length ≤ maxMessage →
          ∃ (masked : Bytes) (tag : Vector UInt8 16), masked.length = message.length
            ∧ (draw.nonce.toList ++ masked ++ tag.toList).length = message.length + 28
            ∧ encryptUnder (.secret secret) .standard draw message
                = .ok (draw.nonce.toList ++ masked ++ tag.toList))
        ∧ (∀ message box : Bytes, message.length ≤ maxMessage →
            (decryptUnder (.secret secret) .standard box = .ok message
              ↔ ∃ draw : Draw, draw.nonce.toList = box.take 12
                  ∧ encryptUnder (.secret secret) .standard draw message = .ok box))
        ∧ (∀ (nonce : Vector UInt8 12) (masked : Bytes), masked.length ≤ maxMessage →
            ∃! tag : Vector UInt8 16, ∃ message : Bytes,
              decryptUnder (.secret secret) .standard (nonce.toList ++ masked ++ tag.toList)
                = .ok message)
        ∧ (∀ (front message : Bytes) (tag other : Vector UInt8 16),
            decryptUnder (.secret secret) .standard (front ++ tag.toList) = .ok message →
            other ≠ tag →
              decryptUnder (.secret secret) .standard (front ++ other.toList)
                = .error (.algorithm .badTag))
        ∧ ∀ box : Bytes, box.length < 28 →
            decryptUnder (.secret secret) .standard box
              = .error (.algorithm (.tooShort box.length)))
      ∧ (secret.length ≠ 16 → secret.length ≠ 32 → ∀ (draw : Draw) (payload : Bytes),
          encryptUnder (.secret secret) .standard draw payload
              = .error (.algorithm (.secretLength secret.length))
            ∧ decryptUnder (.secret secret) .standard payload
                = .error (.algorithm (.secretLength secret.length))) := by
  constructor
  · intro hlength
    have hsized : keySized secret = true := by
      simpa [keySized] using hlength
    refine ⟨?_, ?_, ?_, ?_, ?_⟩
    · intro draw message hlimit
      obtain ⟨masked, tag, hmasked, hgiven⟩ := encryptUnder_parts hsized draw hlimit
      refine ⟨masked, tag, hmasked, ?_, hgiven⟩
      simp only [List.length_append, Vector.length_toList, hmasked]
      omega
    · intro message box hlimit
      exact decryptUnder_iff_encryptUnder hlimit box
    · -- the tag that fits is accepted, and an accepted one fits
      intro nonce masked _
      obtain ⟨tag, message, -, hfits⟩ := decryptUnder_parts hsized nonce masked
      refine ⟨tag, ⟨message, by rw [hfits, if_pos rfl]⟩, ?_⟩
      rintro other ⟨opened, hopened⟩
      rw [hfits] at hopened
      split at hopened
      · next hsame => exact hsame
      · cases hopened
    · intro front message tag other haccepted hother
      exact decryptUnder_of_other_tag hsized haccepted hother
    · intro box hshort
      exact decryptUnder_of_short hsized hshort
  · intro hnot16 hnot32 draw payload
    have hsized : keySized secret = false := by
      simp [keySized, hnot16, hnot32]
    exact underSecret_of_not_sized hsized draw payload

/-- Three bytes that are encrypted under sixteen come back, but not from behind another tag,
    and five bytes are no secret. -/
theorem decrypts_exactly_what_it_encrypts_of_sixteen :
    (List.replicate 16 (7 : UInt8)).length = 16
      ∧ (∃ (masked : Bytes) (tag : Vector UInt8 16), masked.length = 3
          ∧ decryptUnder (.secret (List.replicate 16 7)) .standard
              ((Vector.replicate 12 (9 : UInt8)).toList ++ masked ++ tag.toList) = .ok [1, 2, 3]
          ∧ decryptUnder (.secret (List.replicate 16 7)) .standard
              ((Vector.replicate 12 (9 : UInt8)).toList ++ masked
                ++ (tag.set 15 (tag[15] + 1)).toList) = .error (.algorithm .badTag))
      ∧ decryptUnder (.secret (List.replicate 16 7)) .standard [1, 2, 3]
          = .error (.algorithm (.tooShort 3))
      ∧ decryptUnder (.secret [7, 7, 7, 7, 7]) .standard [1, 2, 3]
          = .error (.algorithm (.secretLength 5)) := by
  obtain ⟨hgives, hopens, -, hchanged, hshort⟩ :=
    (decrypts_exactly_what_it_encrypts (List.replicate 16 7)).1 (.inl rfl)
  let draw : Draw := ⟨Vector.replicate 12 9, Vector.replicate 64 0, 1⟩
  obtain ⟨masked, tag, hmasked, -, hgiven⟩ := hgives draw [1, 2, 3] (by decide)
  have hback := (hopens [1, 2, 3] _ (by decide)).mpr ⟨draw, rfl, hgiven⟩
  have hother : tag.set 15 (tag[15] + 1) ≠ tag := by
    intro hsame
    have hlast : (tag.set 15 (tag[15] + 1))[15] = tag[15] := by rw [hsame]
    rw [Vector.getElem_set_self] at hlast
    simp at hlast
  refine ⟨rfl, ⟨masked, tag, hmasked, hback, ?_⟩, hshort [1, 2, 3] (by decide), ?_⟩
  · exact hchanged _ [1, 2, 3] tag _ hback hother
  · exact ((decrypts_exactly_what_it_encrypts [7, 7, 7, 7, 7]).2 (by decide) (by decide)
      draw [1, 2, 3]).2

end Operation

end KeyBroker
