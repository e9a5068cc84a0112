/-! # Parts

A sequence cut at a separator. Main statement: the parts, joined by the separator, are the sequence
again.
-/

namespace KeyBroker.Text

/-- The parts between separators. There is one more of them than there are separators. -/
def parts {α : Type} [DecidableEq α] (separator : α) : List α → List (List α)
  | [] => [[]]
  | c :: rest =>
    match parts separator rest with
    | [] => [[c]]
    | part :: others => if c = separator then [] :: part :: others else (c :: part) :: others

theorem parts_ne_nil {α : Type} [DecidableEq α] (separator : α) (l : List α) :
    parts separator l ≠ [] := by
  cases l with
  | nil => simp [parts]
  | cons c rest =>
    unfold parts
    split
    · simp
    · split <;> simp

theorem intercalate_parts {α : Type} [DecidableEq α] (separator : α) (l : List α) :
    [separator].intercalate (parts separator l) = l := by
  induction l with
  | nil => rfl
  | cons c rest ih =>
    unfold parts
    split
    · next h => exact absurd h (parts_ne_nil separator rest)
    · next part others h =>
      rw [h] at ih
      split
      · next hc =>
        subst hc
        simpa [List.intercalate, List.intersperse] using ih
      · cases others with
        | nil => simpa [List.intercalate] using ih
        | cons p ps => simpa [List.intercalate, List.intersperse] using ih

end KeyBroker.Text
