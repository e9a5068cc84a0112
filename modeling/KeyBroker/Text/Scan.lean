/-! # Words and digits

What readers of more than one format look for in a text. Main statement: a word is taken off exactly
those texts that start with it.
-/

namespace KeyBroker.Text

/-- The value of a hexadecimal digit, in letters of either case. -/
def hexValue? (c : Char) : Option Nat :=
  if '0' ≤ c ∧ c ≤ '9' then some (c.toNat - 48)
  else if 'a' ≤ c ∧ c ≤ 'f' then some (c.toNat - 87)
  else if 'A' ≤ c ∧ c ≤ 'F' then some (c.toNat - 55)
  else none

/-- Takes a fixed word off the front. -/
def skipWord? : (word cs : List Char) → Option (List Char)
  | [], cs => some cs
  | w :: ws, c :: cs => if w = c then skipWord? ws cs else none
  | _ :: _, [] => none

theorem skipWord?_eq_some_iff {word cs rest : List Char} :
    skipWord? word cs = some rest ↔ cs = word ++ rest := by
  induction word generalizing cs with
  | nil => simp [skipWord?]
  | cons w ws ih =>
    cases cs with
    | nil => simp [skipWord?]
    | cons c cs =>
      by_cases hsame : w = c
      · simp [skipWord?, hsame, ih]
      · simp [skipWord?, hsame, Ne.symm hsame]

end KeyBroker.Text
