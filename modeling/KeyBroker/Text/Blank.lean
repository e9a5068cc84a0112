/-! # Blanks

White space in the sense of Unicode, and texts without it at their ends. Main statements: trimming
takes nothing but white space away, and it leaves what stands between the white space at both ends.
-/

namespace KeyBroker.Text

/-- White space. -/
def isBlank (c : Char) : Bool :=
  let n := c.toNat
  (9 ≤ n && n ≤ 13) || n == 0x20 || n == 0x85 || n == 0xa0 || n == 0x1680
    || (0x2000 ≤ n && n ≤ 0x200a) || n == 0x2028 || n == 0x2029 || n == 0x202f
    || n == 0x205f || n == 0x3000

/-- A text without the blanks at its start. -/
def trimStart (cs : List Char) : List Char := cs.dropWhile isBlank

/-- A text without the blanks at its end. -/
def trimEnd (cs : List Char) : List Char := (cs.reverse.dropWhile isBlank).reverse

/-- A text without the blanks at both ends. -/
def trim (cs : List Char) : List Char := trimEnd (trimStart cs)

theorem trimStart_cons_of_not {c : Char} (h : isBlank c = false) (cs : List Char) :
    trimStart (c :: cs) = c :: cs := by
  simp [trimStart, h]

theorem trimEnd_append_of_not {c : Char} (h : isBlank c = false) (cs : List Char) :
    trimEnd (cs ++ [c]) = cs ++ [c] := by
  simp [trimEnd, h]

/-- White space or nothing. -/
def Blank (cs : List Char) : Prop := ∀ c ∈ cs, isBlank c = true

theorem blank_nil : Blank [] := nofun

theorem Blank.append {cs ds : List Char} (hcs : Blank cs) (hds : Blank ds) : Blank (cs ++ ds) :=
  List.forall_mem_append.mpr ⟨hcs, hds⟩

/-- A text that begins and ends with something other than white space. -/
structure Trimmed (cs : List Char) : Prop where
  first : ∃ c rest, cs = c :: rest ∧ isBlank c = false
  last : ∃ front c, cs = front ++ [c] ∧ isBlank c = false

theorem Trimmed.of_forall {cs : List Char} (hne : cs ≠ []) (h : ∀ c ∈ cs, isBlank c = false) :
    Trimmed cs where
  first := by
    obtain ⟨c, rest, rfl⟩ := List.exists_cons_of_ne_nil hne
    exact ⟨c, rest, rfl, h c List.mem_cons_self⟩
  last := by
    obtain rfl | ⟨front, c, rfl⟩ := List.eq_nil_or_concat cs
    · exact absurd rfl hne
    · rw [List.concat_eq_append] at h ⊢
      exact ⟨front, c, rfl, h c (by simp)⟩

/-- What stands between two trimmed texts does not matter. -/
theorem Trimmed.around {front back : List Char} (hfront : Trimmed front) (hback : Trimmed back)
    (middle : List Char) : Trimmed (front ++ (middle ++ back)) where
  first := by
    obtain ⟨c, rest, rfl, hc⟩ := hfront.first
    exact ⟨c, _, rfl, hc⟩
  last := by
    obtain ⟨rest, c, rfl, hc⟩ := hback.last
    exact ⟨front ++ (middle ++ rest), c, by simp, hc⟩

/-- Trimming leaves what stands between the white space at both ends. -/
theorem trim_append {before core after : List Char} (hbefore : Blank before)
    (hafter : Blank after) (hcore : Trimmed core) : trim (before ++ core ++ after) = core := by
  have hstart : trimStart (before ++ core ++ after) = core ++ after := by
    obtain ⟨c, rest, rfl, hc⟩ := hcore.first
    rw [trimStart, List.append_assoc, List.dropWhile_append_of_pos hbefore]
    exact trimStart_cons_of_not hc _
  have hend : trimEnd (core ++ after) = trimEnd core := by
    rw [trimEnd, List.reverse_append,
      List.dropWhile_append_of_pos fun c hc => hafter c (List.mem_reverse.mp hc), trimEnd]
  obtain ⟨front, c, rfl, hc⟩ := hcore.last
  rw [trim, hstart, hend, trimEnd_append_of_not hc]

/-- Trimming takes nothing but white space away. -/
theorem exists_eq_trim (cs : List Char) :
    ∃ before after, Blank before ∧ Blank after ∧ cs = before ++ trim cs ++ after := by
  have htake : ∀ ds : List Char, Blank (ds.takeWhile isBlank) := fun ds =>
    List.all_eq_true.mp List.all_takeWhile
  have hafter : trim cs ++ ((trimStart cs).reverse.takeWhile isBlank).reverse = trimStart cs := by
    rw [trim, trimEnd, ← List.reverse_append, List.takeWhile_append_dropWhile,
      List.reverse_reverse]
  refine ⟨cs.takeWhile isBlank, ((trimStart cs).reverse.takeWhile isBlank).reverse, htake cs,
    fun c hc => htake _ c (List.mem_reverse.mp hc), ?_⟩
  rw [List.append_assoc, hafter, trimStart, List.takeWhile_append_dropWhile]

end KeyBroker.Text
