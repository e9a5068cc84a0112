import KeyBroker.Text.Utf8

/-! # Texts survive UTF-8

  Reading the bytes of a text gives the text again. The bytes of one character are
  taken off the front whole, whatever follows them: their first byte tells how many
  there are, and every later one lies in the bounds that the first one sets. The same
  bounds keep out every other way to write a character, so bytes that are read as a
  text are the bytes of that text and of no other.
-/

namespace KeyBroker.Text.Utf8

/-! ### One character -/

/-- The value of a byte made from a number that fits one. -/
theorem toNat_byte {n : Nat} (h : n < 256) : (UInt8.ofNat n).toNat = n := by
  rw [UInt8.toNat_ofNat']
  exact Nat.mod_eq_of_lt h

/-- A byte within its bounds is taken, and the bits it carries are added. -/
theorem follow_byte {n : Nat} {low high : UInt8} {value size m : Nat} {r : Bytes}
    (hfits : m < 256) (hlow : low.toNat ≤ m) (hhigh : m ≤ high.toNat) :
    follow (n + 1) low high value size (UInt8.ofNat m :: r)
      = follow n 0x80 0xbf (64 * value + (m - 0x80)) (size + 1) r := by
  have hbounds : low ≤ UInt8.ofNat m ∧ UInt8.ofNat m ≤ high := by
    rw [UInt8.le_iff_toNat_le, UInt8.le_iff_toNat_le, toNat_byte hfits]
    exact ⟨hlow, hhigh⟩
  simp only [follow, hbounds, and_self, if_true, toNat_byte hfits]

/-- A continuation byte carries the six lowest bits of what it is made from. -/
theorem follow_continuation {n value size m : Nat} {r : Bytes} :
    follow (n + 1) 0x80 0xbf value size (UInt8.ofNat (m % 64 + 0x80) :: r)
      = follow n 0x80 0xbf (64 * value + m % 64) (size + 1) r := by
  have hbits : m % 64 < 64 := Nat.mod_lt _ (by decide)
  rw [follow_byte (by omega) (show 128 ≤ _ by omega) (show _ ≤ 191 by omega),
    Nat.add_sub_cancel]

/-- The code point of a character is no surrogate and not beyond the last one. -/
theorem scalar_bounds (c : Char) :
    c.toNat < 0xd800 ∨ (0xdfff < c.toNat ∧ c.toNat < 0x110000) := c.valid

/-- The first byte of a character in two bytes. -/
theorem head_two {n : Nat} (hlow : 0xc2 ≤ n) (hhigh : n < 0xe0) (r : Bytes) :
    head (UInt8.ofNat n) r = follow 1 0x80 0xbf (n - 0xc0) 1 r := by
  have hn : (UInt8.ofNat n).toNat = n := toNat_byte (by omega)
  unfold head
  simp only [UInt8.lt_iff_toNat_lt, hn, UInt8.reduceToNat]
  rw [if_neg (show ¬ n < 128 by omega), if_neg (show ¬ n < 194 by omega),
    if_pos (show n < 224 by omega)]

/-- The first byte of a character in three bytes. It bounds the second one, to keep out long
    forms and surrogates. -/
theorem head_three {n : Nat} (hlow : 0xe0 ≤ n) (hhigh : n < 0xf0) (r : Bytes) :
    head (UInt8.ofNat n) r
      = follow 2 (if n = 0xe0 then 0xa0 else 0x80) (if n = 0xed then 0x9f else 0xbf)
          (n - 0xe0) 1 r := by
  have hn : (UInt8.ofNat n).toNat = n := toNat_byte (by omega)
  unfold head
  simp only [UInt8.lt_iff_toNat_lt, ← UInt8.toNat_inj, hn, UInt8.reduceToNat]
  rw [if_neg (show ¬ n < 128 by omega), if_neg (show ¬ n < 194 by omega),
    if_neg (show ¬ n < 224 by omega), if_pos (show n < 240 by omega)]

/-- The first byte of a character in four bytes. It bounds the second one, to keep out long
    forms and numbers beyond the last code point. -/
theorem head_four {n : Nat} (hlow : 0xf0 ≤ n) (hhigh : n < 0xf5) (r : Bytes) :
    head (UInt8.ofNat n) r
      = follow 3 (if n = 0xf0 then 0x90 else 0x80) (if n = 0xf4 then 0x8f else 0xbf)
          (n - 0xf0) 1 r := by
  have hn : (UInt8.ofNat n).toNat = n := toNat_byte (by omega)
  unfold head
  simp only [UInt8.lt_iff_toNat_lt, ← UInt8.toNat_inj, hn, UInt8.reduceToNat]
  rw [if_neg (show ¬ n < 128 by omega), if_neg (show ¬ n < 194 by omega),
    if_neg (show ¬ n < 224 by omega), if_neg (show ¬ n < 240 by omega),
    if_pos (show n < 245 by omega)]

/-- A code point in one byte. -/
theorem scalar_one {v : Nat} (h : v ≤ 0x7f) (rest : Bytes) :
    head (UInt8.ofNat v) rest = .scalar (Char.ofNat v) 1 := by
  unfold head
  rw [if_pos (by rw [UInt8.lt_iff_toNat_lt, toNat_byte (by omega)]; show v < 128; omega),
    toNat_byte (by omega)]

/-- A code point in two bytes. -/
theorem scalar_two {v : Nat} (hlow : 0x7f < v) (hhigh : v ≤ 0x7ff) (rest : Bytes) :
    head (UInt8.ofNat (v / 64 % 32 + 0xc0)) (UInt8.ofNat (v % 64 + 0x80) :: rest)
      = .scalar (Char.ofNat v) 2 := by
  have hfirst : v / 64 % 32 = v / 64 := Nat.mod_eq_of_lt (by omega)
  rw [hfirst, head_two (by omega) (by omega), follow_continuation]
  have hwhole : 64 * (v / 64 + 0xc0 - 0xc0) + v % 64 = v := by omega
  rw [hwhole, follow]

/-- A code point in three bytes. -/
theorem scalar_three {v : Nat} (hlow : 0x7ff < v) (hhigh : v ≤ 0xffff)
    (hscalar : v < 0xd800 ∨ 0xdfff < v) (rest : Bytes) :
    head (UInt8.ofNat (v / 4096 % 16 + 0xe0))
        (UInt8.ofNat (v / 64 % 64 + 0x80) :: UInt8.ofNat (v % 64 + 0x80) :: rest)
      = .scalar (Char.ofNat v) 3 := by
  have hfirst : v / 4096 % 16 = v / 4096 := Nat.mod_eq_of_lt (by omega)
  rw [hfirst, head_three (by omega) (by omega)]
  -- the second byte keeps its bounds: no shorter form exists, and `v` is no surrogate
  have hleast : (if v / 4096 + 0xe0 = 0xe0 then 0xa0 else 0x80 : UInt8).toNat
      ≤ v / 64 % 64 + 0x80 := by
    split
    · show 160 ≤ _; omega
    · show 128 ≤ _; omega
  have hmost : v / 64 % 64 + 0x80
      ≤ (if v / 4096 + 0xe0 = 0xed then 0x9f else 0xbf : UInt8).toNat := by
    split
    · show _ ≤ 159; omega
    · show _ ≤ 191; omega
  rw [follow_byte (by omega) hleast hmost, follow_continuation]
  have hwhole : 64 * (64 * (v / 4096 + 0xe0 - 0xe0) + (v / 64 % 64 + 0x80 - 0x80)) + v % 64
      = v := by omega
  rw [hwhole, follow]

/-- A code point in four bytes. -/
theorem scalar_four {v : Nat} (hlow : 0xffff < v) (hhigh : v < 0x110000) (rest : Bytes) :
    head (UInt8.ofNat (v / 262144 % 8 + 0xf0))
        (UInt8.ofNat (v / 4096 % 64 + 0x80) :: UInt8.ofNat (v / 64 % 64 + 0x80)
          :: UInt8.ofNat (v % 64 + 0x80) :: rest)
      = .scalar (Char.ofNat v) 4 := by
  have hfirst : v / 262144 % 8 = v / 262144 := Nat.mod_eq_of_lt (by omega)
  rw [hfirst, head_four (by omega) (by omega)]
  -- again no shorter form exists, and `v` is not beyond the last code point
  have hleast : (if v / 262144 + 0xf0 = 0xf0 then 0x90 else 0x80 : UInt8).toNat
      ≤ v / 4096 % 64 + 0x80 := by
    split
    · show 144 ≤ _; omega
    · show 128 ≤ _; omega
  have hmost : v / 4096 % 64 + 0x80
      ≤ (if v / 262144 + 0xf0 = 0xf4 then 0x8f else 0xbf : UInt8).toNat := by
    split
    · show _ ≤ 143; omega
    · show _ ≤ 191; omega
  rw [follow_byte (by omega) hleast hmost, follow_continuation, follow_continuation]
  have hwhole : 64 * (64 * (64 * (v / 262144 + 0xf0 - 0xf0)
      + (v / 4096 % 64 + 0x80 - 0x80)) + v / 64 % 64) + v % 64 = v := by omega
  rw [hwhole, follow]

/-- A character is read off its bytes, whatever follows. -/
theorem head_encodeChar (c : Char) (rest : Bytes) :
    ∃ a r, String.utf8EncodeChar c = a :: r
      ∧ head a (r ++ rest) = .scalar c (r.length + 1) := by
  have hscalar := scalar_bounds c
  have hvalue : c.val.toNat = c.toNat := rfl
  have hchar : Char.ofNat c.toNat = c := Char.ofNat_toNat c
  unfold String.utf8EncodeChar
  simp only [hvalue]
  generalize c.toNat = v at hscalar hchar ⊢
  subst hchar
  -- one case for each number of bytes that a character may take
  split
  · next h => exact ⟨_, _, rfl, scalar_one h rest⟩
  split
  · next h => exact ⟨_, _, rfl, scalar_two (by omega) h rest⟩
  split
  · next h => exact ⟨_, _, rfl, scalar_three (by omega) h (by omega) rest⟩
  · next h => exact ⟨_, _, rfl, scalar_four (by omega) (by omega) rest⟩

/-! ### Whole texts -/

theorem decodeFrom_encodeChar (index : Nat) (done : List Char) (c : Char) (rest : Bytes) :
    decodeFrom index done (String.utf8EncodeChar c ++ rest)
      = decodeFrom (index + (String.utf8EncodeChar c).length) (c :: done) rest := by
  obtain ⟨a, r, hbytes, hhead⟩ := head_encodeChar c rest
  rw [hbytes, List.cons_append, decodeFrom, hhead]
  simp only [Nat.add_sub_cancel, List.drop_left, List.length_cons]

theorem decodeFrom_flatMap (index : Nat) (done cs : List Char) :
    decodeFrom index done (cs.flatMap String.utf8EncodeChar) = .ok (done.reverse ++ cs) := by
  induction cs generalizing index done with
  | nil => simp [decodeFrom]
  | cons c cs ih =>
    rw [List.flatMap_cons, decodeFrom_encodeChar, ih, List.reverse_cons, List.append_assoc]
    rfl

/-- Reading the bytes of a text gives the text. -/
@[simp] theorem decode_encode (s : String) : decode (encode s) = .ok s := by
  rw [decode, encode, decodeFrom_flatMap]
  show Except.ok (String.ofList ([].reverse ++ s.toList)) = .ok s
  rw [List.reverse_nil, List.nil_append, String.ofList_toList]

/-! ### Only the bytes of texts are read -/

/-- The code point of a character that is made from a code point. -/
theorem toNat_ofNat {v : Nat} (h : v < 0xd800 ∨ (0xdfff < v ∧ v < 0x110000)) :
    (Char.ofNat v).val.toNat = v := by
  have hvalid : v.isValidChar := h
  rw [Char.ofNat, dif_pos hvalid]
  rfl

/-- A byte is made from its value. -/
theorem ofNat_eq_byte {a : UInt8} {n : Nat} (h : n = a.toNat) : UInt8.ofNat n = a := by
  rw [h, UInt8.ofNat_toNat]

/-- Two bytes within their bounds are those of the character whose bits they carry. -/
theorem encodeChar_two {a b : UInt8} (ha : 0xc2 ≤ a.toNat ∧ a.toNat < 0xe0)
    (hb : 0x80 ≤ b.toNat ∧ b.toNat ≤ 0xbf) :
    String.utf8EncodeChar (Char.ofNat (64 * (a.toNat - 0xc0) + (b.toNat - 0x80))) = [a, b] := by
  simp only [String.utf8EncodeChar]
  rw [toNat_ofNat (by omega), if_neg (by omega), if_pos (by omega),
    ofNat_eq_byte (a := a) (by omega), ofNat_eq_byte (a := b) (by omega)]

/-- So are three, where no shorter form exists and the character is no surrogate. -/
theorem encodeChar_three {a b d : UInt8} (ha : 0xe0 ≤ a.toNat ∧ a.toNat < 0xf0)
    (hb : 0x80 ≤ b.toNat ∧ b.toNat ≤ 0xbf) (hlong : a.toNat = 0xe0 → 0xa0 ≤ b.toNat)
    (hscalar : a.toNat = 0xed → b.toNat ≤ 0x9f) (hd : 0x80 ≤ d.toNat ∧ d.toNat ≤ 0xbf) :
    String.utf8EncodeChar (Char.ofNat
      (64 * (64 * (a.toNat - 0xe0) + (b.toNat - 0x80)) + (d.toNat - 0x80))) = [a, b, d] := by
  simp only [String.utf8EncodeChar]
  rw [toNat_ofNat (by omega), if_neg (by omega), if_neg (by omega), if_pos (by omega),
    ofNat_eq_byte (a := a) (by omega), ofNat_eq_byte (a := b) (by omega),
    ofNat_eq_byte (a := d) (by omega)]

/-- So are four, where no shorter form exists and the last code point is not passed. -/
theorem encodeChar_four {a b d e : UInt8} (ha : 0xf0 ≤ a.toNat ∧ a.toNat < 0xf5)
    (hb : 0x80 ≤ b.toNat ∧ b.toNat ≤ 0xbf) (hlong : a.toNat = 0xf0 → 0x90 ≤ b.toNat)
    (hscalar : a.toNat = 0xf4 → b.toNat ≤ 0x8f) (hd : 0x80 ≤ d.toNat ∧ d.toNat ≤ 0xbf)
    (he : 0x80 ≤ e.toNat ∧ e.toNat ≤ 0xbf) :
    String.utf8EncodeChar (Char.ofNat
      (64 * (64 * (64 * (a.toNat - 0xf0) + (b.toNat - 0x80)) + (d.toNat - 0x80))
        + (e.toNat - 0x80))) = [a, b, d, e] := by
  simp only [String.utf8EncodeChar]
  rw [toNat_ofNat (by omega), if_neg (by omega), if_neg (by omega), if_neg (by omega),
    ofNat_eq_byte (a := a) (by omega), ofNat_eq_byte (a := b) (by omega),
    ofNat_eq_byte (a := d) (by omega), ofNat_eq_byte (a := e) (by omega)]

/-- Where one more byte is to follow, it is there and within its bounds. -/
theorem byte_of_follow {n value size total : Nat} {low high : UInt8} {r : Bytes} {c : Char}
    (h : follow (n + 1) low high value size r = .scalar c total) :
    ∃ b rest, r = b :: rest ∧ (low.toNat ≤ b.toNat ∧ b.toNat ≤ high.toNat)
      ∧ follow n 0x80 0xbf (64 * value + (b.toNat - 0x80)) (size + 1) rest = .scalar c total := by
  cases r with
  | nil => cases h
  | cons b rest =>
    rw [follow] at h
    split at h
    · next hbounds =>
      rw [UInt8.le_iff_toNat_le, UInt8.le_iff_toNat_le] at hbounds
      exact ⟨b, rest, rfl, hbounds, h⟩
    · cases h

/-- The bytes that are read as a character are the bytes of that character. -/
theorem encodeChar_of_head {a : UInt8} {r : Bytes} {c : Char} {size : Nat}
    (h : head a r = .scalar c size) :
    ∃ s rest, r = s ++ rest ∧ size = s.length + 1 ∧ String.utf8EncodeChar c = a :: s := by
  unfold head at h
  simp only [UInt8.lt_iff_toNat_lt, ← UInt8.toNat_inj, UInt8.reduceToNat] at h
  -- the first byte tells how many bytes follow
  split at h
  · next ha =>
    injection h with hc hsize
    refine ⟨[], r, rfl, hsize.symm, ?_⟩
    rw [← hc, String.utf8EncodeChar, toNat_ofNat (by omega)]
    simp only [UInt8.ofNat_toNat]
    rw [if_pos (by omega)]
  split at h
  · cases h
  split at h
  · next hlow ha =>
    obtain ⟨b, rest, rfl, hb, h⟩ := byte_of_follow h
    injection h with hc hsize
    refine ⟨[b], rest, rfl, hsize.symm, ?_⟩
    rw [← hc]
    exact encodeChar_two ⟨by omega, ha⟩ hb
  split at h
  · next hlow ha =>
    obtain ⟨b, _, rfl, hb, h⟩ := byte_of_follow h
    obtain ⟨d, rest, rfl, hd, h⟩ := byte_of_follow h
    injection h with hc hsize
    refine ⟨[b, d], rest, rfl, hsize.symm, ?_⟩
    -- the first byte narrows the bounds of the second
    have hbounds : (0x80 ≤ b.toNat ∧ b.toNat ≤ 0xbf) ∧ (a.toNat = 0xe0 → 0xa0 ≤ b.toNat)
        ∧ (a.toNat = 0xed → b.toNat ≤ 0x9f) := by
      split at hb <;> split at hb <;> simp only [UInt8.reduceToNat] at hb <;> omega
    rw [← hc]
    exact encodeChar_three ⟨by omega, ha⟩ hbounds.1 hbounds.2.1 hbounds.2.2 hd
  split at h
  · next hlow ha =>
    obtain ⟨b, _, rfl, hb, h⟩ := byte_of_follow h
    obtain ⟨d, _, rfl, hd, h⟩ := byte_of_follow h
    obtain ⟨e, rest, rfl, he, h⟩ := byte_of_follow h
    injection h with hc hsize
    refine ⟨[b, d, e], rest, rfl, hsize.symm, ?_⟩
    have hbounds : (0x80 ≤ b.toNat ∧ b.toNat ≤ 0xbf) ∧ (a.toNat = 0xf0 → 0x90 ≤ b.toNat)
        ∧ (a.toNat = 0xf4 → b.toNat ≤ 0x8f) := by
      split at hb <;> split at hb <;> simp only [UInt8.reduceToNat] at hb <;> omega
    rw [← hc]
    exact encodeChar_four ⟨by omega, ha⟩ hbounds.1 hbounds.2.1 hbounds.2.2 hd he
  · cases h

/-- Reading stops at the end only where characters do. -/
theorem flatMap_of_decodeFrom {index : Nat} {done cs : List Char} {b : Bytes}
    (h : decodeFrom index done b = .ok cs) :
    ∃ more, cs = done.reverse ++ more ∧ b = more.flatMap String.utf8EncodeChar := by
  fun_induction decodeFrom index done b with
  | case1 index done =>
    injection h with h
    exact ⟨[], by rw [← h, List.append_nil], rfl⟩
  | case2 index done a r c size hhead ih =>
    obtain ⟨more, hcs, hrest⟩ := ih h
    obtain ⟨s, rest, rfl, rfl, hbytes⟩ := encodeChar_of_head hhead
    rw [Nat.add_sub_cancel, List.drop_left] at hrest
    refine ⟨c :: more, ?_, ?_⟩
    · rw [hcs, List.reverse_cons, List.append_assoc]
      rfl
    · rw [List.flatMap_cons, hbytes, ← hrest]
      rfl
  | case3 index done a r size hhead => cases h
  | case4 index done a r hhead => cases h

/-- Bytes that are read as a text are the bytes of that text. -/
theorem eq_encode_of_decode {b : Bytes} {s : String} (h : decode b = .ok s) : b = encode s := by
  unfold decode at h
  cases hcs : decodeFrom 0 [] b with
  | error fault => rw [hcs] at h; cases h
  | ok cs =>
    rw [hcs] at h
    injection h with h
    obtain ⟨more, hmore, hb⟩ := flatMap_of_decodeFrom hcs
    rw [encode, ← h, String.toList_ofList, hmore]
    exact hb

end KeyBroker.Text.Utf8
