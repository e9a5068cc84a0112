import KeyBroker.Text.Base64

/-! # Base64 read back

  What is written in Base64 is read back, whatever bytes it stands for, and nothing else is
  read. Three bytes make one group of four symbols; a group at the end that is not full has
  its own forms on both sides, and they are told apart because no symbol is the filling.
-/

namespace KeyBroker.Text.Base64

/-! ### Symbols -/

/-- A symbol has the value that it stands for. -/
theorem value?_symbol {n : Nat} (h : n < 64) : value? (symbol n) = some n := by
  have hall : ∀ n < 64, value? (symbol n) = some n := by decide
  exact hall n h

/-- No symbol is the filling. -/
theorem symbol_ne_filling {n : Nat} (h : n < 64) : symbol n ≠ '=' := by
  have hall : ∀ n < 64, symbol n ≠ '=' := by decide
  exact hall n h

/-! ### Groups -/

/-- A byte is told by its value. -/
theorem ofNat_eq_of_toNat {n : Nat} {b : UInt8} (h : n = b.toNat) : UInt8.ofNat n = b := by
  rw [h]
  exact UInt8.ofNat_toNat

/-- A group of four symbols is three bytes, whatever follows. -/
theorem decode?_group {w x y z : Nat} (hw : w < 64) (hx : x < 64) (hy : y < 64) (hz : z < 64)
    (rest : List Char) :
    decode? (symbol w :: symbol x :: symbol y :: symbol z :: rest)
      = (decode? rest).map fun bytes =>
          UInt8.ofNat (w * 4 + x / 16) :: UInt8.ofNat (x % 16 * 16 + y / 4)
            :: UInt8.ofNat (y % 4 * 64 + z) :: bytes := by
  have hfull := symbol_ne_filling hz
  have hstep : decode? (symbol w :: symbol x :: symbol y :: symbol z :: rest) = (do
      let a ← value? (symbol w)
      let b ← value? (symbol x)
      let c ← value? (symbol y)
      let d ← value? (symbol z)
      let bytes ← decode? rest
      some (UInt8.ofNat (a * 4 + b / 16) :: UInt8.ofNat (b % 16 * 16 + c / 4)
        :: UInt8.ofNat (c % 4 * 64 + d) :: bytes)) := by
    rw [decode?]
    · intro _ h _
      exact hfull h
    · intro h _
      exact hfull h
  rw [hstep]
  simp only [value?_symbol hw, value?_symbol hx, value?_symbol hy, value?_symbol hz, bind,
    Option.bind]
  cases decode? rest <;> rfl

/-- What is written is read back. -/
theorem decode?_encode (bytes : Bytes) : decode? (encode bytes) = some bytes := by
  fun_induction encode bytes with
  | case1 => rfl
  | case2 a =>
    have ha := a.toNat_lt
    have hfirst : a.toNat / 4 < 64 := by omega
    have hsecond : a.toNat % 4 * 16 < 64 := by omega
    simp only [decode?, value?_symbol hfirst, value?_symbol hsecond, bind, Option.bind]
    rw [if_pos (by omega), ofNat_eq_of_toNat]
    omega
  | case3 a b =>
    have ha := a.toNat_lt
    have hb := b.toNat_lt
    have hfirst : a.toNat / 4 < 64 := by omega
    have hsecond : a.toNat % 4 * 16 + b.toNat / 16 < 64 := by omega
    have hthird : b.toNat % 16 * 4 < 64 := by omega
    have hfull := symbol_ne_filling hthird
    rw [decode?]
    · simp only [value?_symbol hfirst, value?_symbol hsecond, value?_symbol hthird, bind,
        Option.bind]
      rw [if_pos (by omega), ofNat_eq_of_toNat (b := a) (by omega),
        ofNat_eq_of_toNat (b := b) (by omega)]
    · exact hfull
  | case4 a b c rest ih =>
    have ha := a.toNat_lt
    have hb := b.toNat_lt
    have hc := c.toNat_lt
    rw [decode?_group (by omega) (by omega) (by omega) (by omega), ih]
    simp only [Option.map_some, Option.some.injEq, List.cons.injEq, and_true]
    refine ⟨ofNat_eq_of_toNat ?_, ofNat_eq_of_toNat ?_, ofNat_eq_of_toNat ?_⟩
    · omega
    · omega
    · omega

/-! ### No other form -/

/-- What has a value is the symbol of it. -/
theorem of_value?_eq_some {c : Char} {n : Nat} (h : value? c = some n) :
    n < 64 ∧ c = symbol n := by
  have hchar : Char.ofNat c.toNat = c := Char.ofNat_toNat c
  unfold value? at h
  simp only at h
  split at h
  · next hupper =>
    obtain rfl := Option.some.inj h
    have hback : 65 + (c.toNat - 65) = c.toNat := by omega
    exact ⟨by omega, by rw [symbol, if_pos (by omega), hback, hchar]⟩
  split at h
  · next hlower =>
    obtain rfl := Option.some.inj h
    have hback : 97 + (c.toNat - 97 + 26 - 26) = c.toNat := by omega
    exact ⟨by omega, by rw [symbol, if_neg (by omega), if_pos (by omega), hback, hchar]⟩
  split at h
  · next hdigit =>
    obtain rfl := Option.some.inj h
    have hback : 48 + (c.toNat - 48 + 52 - 52) = c.toNat := by omega
    refine ⟨by omega, ?_⟩
    rw [symbol, if_neg (by omega), if_neg (by omega), if_pos (by omega), hback, hchar]
  split at h
  · next hplus =>
    obtain rfl := Option.some.inj h
    exact ⟨by omega, hplus⟩
  split at h
  · next hslash =>
    obtain rfl := Option.some.inj h
    exact ⟨by omega, hslash⟩
  · cases h

/-- Three bytes made from four values are written as the symbols of these, whatever follows. -/
theorem encode_group {w x y z : Nat} (hw : w < 64) (hx : x < 64) (hy : y < 64) (hz : z < 64)
    (rest : Bytes) :
    encode (UInt8.ofNat (w * 4 + x / 16) :: UInt8.ofNat (x % 16 * 16 + y / 4)
        :: UInt8.ofNat (y % 4 * 64 + z) :: rest)
      = symbol w :: symbol x :: symbol y :: symbol z :: encode rest := by
  have hbyte₁ : w * 4 + x / 16 < 256 := by omega
  have hbyte₂ : x % 16 * 16 + y / 4 < 256 := by omega
  have hbyte₃ : y % 4 * 64 + z < 256 := by omega
  have hfirst : (w * 4 + x / 16) / 4 = w := by omega
  have hsecond : (w * 4 + x / 16) % 4 * 16 + (x % 16 * 16 + y / 4) / 16 = x := by omega
  have hthird : (x % 16 * 16 + y / 4) % 16 * 4 + (y % 4 * 64 + z) / 64 = y := by omega
  have hfourth : (y % 4 * 64 + z) % 64 = z := by omega
  rw [encode, UInt8.toNat_ofNat_of_lt' hbyte₁, UInt8.toNat_ofNat_of_lt' hbyte₂,
    UInt8.toNat_ofNat_of_lt' hbyte₃, hfirst, hsecond, hthird, hfourth]

/-- What is read was written: no other symbols stand for the same bytes. -/
theorem encode_of_decode? {cs : List Char} {bytes : Bytes} (h : decode? cs = some bytes) :
    encode bytes = cs := by
  fun_induction decode? cs generalizing bytes with
  | case1 =>
    obtain rfl := Option.some.inj h
    rfl
  | case2 a b =>
    simp only [Option.bind_eq_some_iff, bind] at h
    obtain ⟨x, hx, y, hy, h⟩ := h
    obtain ⟨hx64, rfl⟩ := of_value?_eq_some hx
    obtain ⟨hy64, rfl⟩ := of_value?_eq_some hy
    split at h
    · next hrest =>
      obtain rfl := Option.some.inj h
      have hbyte : x * 4 + y / 16 < 256 := by omega
      have hfirst : (x * 4 + y / 16) / 4 = x := by omega
      -- the bits of the last symbol that stand for nothing are zero
      have hsecond : (x * 4 + y / 16) % 4 * 16 = y := by omega
      rw [encode, UInt8.toNat_ofNat_of_lt' hbyte, hfirst, hsecond]
    · cases h
  | case3 a b c hfull =>
    simp only [Option.bind_eq_some_iff, bind] at h
    obtain ⟨x, hx, y, hy, z, hz, h⟩ := h
    obtain ⟨hx64, rfl⟩ := of_value?_eq_some hx
    obtain ⟨hy64, rfl⟩ := of_value?_eq_some hy
    obtain ⟨hz64, rfl⟩ := of_value?_eq_some hz
    split at h
    · next hrest =>
      obtain rfl := Option.some.inj h
      have hbyte₁ : x * 4 + y / 16 < 256 := by omega
      have hbyte₂ : y % 16 * 16 + z / 4 < 256 := by omega
      have hfirst : (x * 4 + y / 16) / 4 = x := by omega
      have hsecond : (x * 4 + y / 16) % 4 * 16 + (y % 16 * 16 + z / 4) / 16 = y := by omega
      have hthird : (y % 16 * 16 + z / 4) % 16 * 4 = z := by omega
      rw [encode, UInt8.toNat_ofNat_of_lt' hbyte₁, UInt8.toNat_ofNat_of_lt' hbyte₂, hfirst,
        hsecond, hthird]
    · cases h
  | case4 a b c d rest hfull hfull' ih =>
    simp only [Option.bind_eq_some_iff, bind] at h
    obtain ⟨w, hw, x, hx, y, hy, z, hz, more, hmore, h⟩ := h
    obtain ⟨hw64, rfl⟩ := of_value?_eq_some hw
    obtain ⟨hx64, rfl⟩ := of_value?_eq_some hx
    obtain ⟨hy64, rfl⟩ := of_value?_eq_some hy
    obtain ⟨hz64, rfl⟩ := of_value?_eq_some hz
    obtain rfl := Option.some.inj h
    rw [encode_group hw64 hx64 hy64 hz64, ih hmore]
  | case5 cs => cases h

end KeyBroker.Text.Base64
