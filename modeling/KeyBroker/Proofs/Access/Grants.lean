import KeyBroker.Access.Policy

/-! # What grants add up to

  The capability that a policy gives a caller on a set, told from the grants alone: which
  of them speak of the caller and the set, and which of these gives the most. Grants that
  pass their check speak of just the names that their pattern shows, and the highest access
  decides, so neither the order of the grants nor repeating one makes a difference, and
  more grants never give less.
-/

namespace KeyBroker

/-! ### The order of capabilities -/

namespace Capability

/-- How much a capability allows. -/
def level : Capability → Nat
  | operate => 0
  | retrieve => 1

instance : LE Capability := ⟨fun low high => low.level ≤ high.level⟩

instance (low high : Capability) : Decidable (low ≤ high) :=
  inferInstanceAs (Decidable (low.level ≤ high.level))

theorem le_iff {low high : Capability} : low ≤ high ↔ low.level ≤ high.level := Iff.rfl

theorem eq_of_level_eq {a b : Capability} (h : a.level = b.level) : a = b := by
  revert h
  cases a <;> cases b <;> decide

instance : Std.IsLinearOrder Capability where
  le_refl a := Nat.le_refl a.level
  le_trans _ _ _ := Nat.le_trans
  le_antisymm _ _ hab hba := eq_of_level_eq (Nat.le_antisymm hab hba)
  le_total a b := Nat.le_total a.level b.level

instance : Std.LawfulOrderMax Capability where
  max_le_iff := by
    intro a b c
    simp only [le_iff]
    cases a <;> cases b <;> cases c <;> decide
  max_eq_or := by
    intro a b
    cases a <;> cases b <;> decide

/-- What a capability permits, a higher one permits too. -/
theorem permits_of_le {low high : Capability} {action : Action} (hle : low ≤ high)
    (h : low.permits action = true) : high.permits action = true := by
  cases high with
  | retrieve => exact retrieve_permits action
  | operate =>
    have hlow : low = operate := eq_of_level_eq (Nat.le_zero.mp hle)
    rwa [hlow] at h

/-- Of two rows of capabilities together, the highest is the higher of the highest ones. -/
theorem max?_append (front back : List Capability) :
    (front ++ back).max? = max front.max? back.max? := by
  induction front with
  | nil =>
    rw [List.nil_append, List.max?_nil]
    cases back.max? <;> rfl
  | cons first rest ih =>
    rw [List.cons_append, List.max?_cons, List.max?_cons, ih]
    cases rest.max? with
    | none => cases back.max? <;> rfl
    | some low =>
      cases back.max? with
      | none => rfl
      | some high =>
        have hassoc : max (max first low) high = max first (max low high) :=
          Std.Associative.assoc first low high
        exact congrArg some hassoc.symm

end Capability

/-! ### What a grant speaks of -/

namespace Grant

/-- The names that a pattern shows: its own text, if no star is in it, or whatever starts
    with the text before a star at its end. -/
inductive Shows (pattern name : String) : Prop where
  | whole (hplain : '*' ∉ pattern.toList) (hname : name = pattern)
  | start (front rest : String) (hpattern : pattern = front ++ "*")
      (hname : name = front ++ rest)

variable {g : Grant} {caller : Caller} {set : String}

/-- A grant speaks of a caller and a set: the caller is one of those that it is for, and its
    pattern shows the name. -/
structure Concerns (g : Grant) (caller : Caller) (set : String) : Prop where
  /-- It is for anyone, for the caller's user or for the caller's group. -/
  entity : g.entity = .anyone ∨ g.entity = .user caller.uid ∨ g.entity = .group caller.gid
  /-- The set is among its names. -/
  pattern : Shows g.pattern set

theorem matches_iff {e : Entity} :
    e.matches? caller = true ↔ e = .anyone ∨ e = .user caller.uid ∨ e = .group caller.gid := by
  cases e <;> simp [Entity.matches?]

/-- A pattern that ends with a star covers what starts with the text before it. -/
theorem covers_of_star {front : String} (h : g.pattern = front ++ "*") :
    g.covers set = true ↔ ∃ rest, set = front ++ rest := by
  have hlast : g.pattern.toList = front.toList ++ ['*'] := by
    rw [h, String.toList_append]
    rfl
  have hcovers : g.covers set = front.toList.isPrefixOf set.toList := by
    simp [covers, hlast]
  rw [hcovers, List.isPrefixOf_iff_prefix]
  constructor
  · rintro ⟨rest, hset⟩
    refine ⟨String.ofList rest, String.toList_inj.mp ?_⟩
    rw [String.toList_append, String.toList_ofList, hset]
  · rintro ⟨rest, rfl⟩
    exact ⟨rest.toList, (String.toList_append ..).symm⟩

/-- A pattern that does not end with a star covers itself. -/
theorem covers_of_not_star (h : g.pattern.toList.getLast? ≠ some '*') :
    g.covers set = true ↔ set = g.pattern := by
  simp only [covers, if_neg h, beq_iff_eq]
  exact eq_comm

theorem check_eq_ok_iff : g.check = .ok () ↔ g.wellFormed = true := by
  by_cases hformed : g.wellFormed = true <;> simp [check, hformed]

/-- A grant that passes its check has no star before the end of its pattern. -/
theorem not_mem_dropLast_of_check (h : g.check = .ok ()) :
    '*' ∉ g.pattern.toList.dropLast := by
  have hformed := check_eq_ok_iff.mp h
  simp only [wellFormed, Bool.and_eq_true, Bool.not_eq_true'] at hformed
  simpa using hformed.2

/-- A pattern that passes its check covers just the names that it shows. -/
theorem covers_iff (h : g.check = .ok ()) : g.covers set = true ↔ Shows g.pattern set := by
  by_cases hstar : g.pattern.toList.getLast? = some '*'
  · -- the text before the star is the front of the pattern
    obtain ⟨front, hfront⟩ := List.getLast?_eq_some_iff.mp hstar
    have hpattern : g.pattern = String.ofList front ++ "*" := by
      apply String.toList_inj.mp
      rw [hfront, String.toList_append, String.toList_ofList]
      rfl
    rw [covers_of_star hpattern]
    constructor
    · rintro ⟨rest, hset⟩
      exact .start _ rest hpattern hset
    · intro hshows
      cases hshows with
      | whole hplain => exact absurd (List.mem_of_getLast? hstar) hplain
      | start front' rest hpattern' hset =>
        have hsame : front' = String.ofList front := by
          have happend := congrArg String.toList (hpattern'.symm.trans hpattern)
          simp only [String.toList_append] at happend
          exact String.toList_inj.mp (List.append_cancel_right happend)
        exact ⟨rest, hsame ▸ hset⟩
  · rw [covers_of_not_star hstar]
    constructor
    · rintro rfl
      refine .whole (fun hmem => ?_) rfl
      -- a star that is not the last character stands before the end
      have hne : g.pattern.toList ≠ [] := List.ne_nil_of_mem hmem
      rw [← List.dropLast_concat_getLast hne, List.mem_append, List.mem_singleton] at hmem
      rcases hmem with hmem | hlast
      · exact not_mem_dropLast_of_check h hmem
      · exact hstar (by rw [List.getLast?_eq_some_getLast hne, ← hlast])
    · intro hshows
      cases hshows with
      | whole hplain hset => exact hset
      | start front rest hpattern hset =>
        refine absurd ?_ hstar
        rw [hpattern, String.toList_append]
        simp

theorem applies_iff (h : g.check = .ok ()) :
    g.applies caller set = true ↔ g.Concerns caller set := by
  rw [applies, Bool.and_eq_true, matches_iff, covers_iff h]
  exact ⟨fun ⟨hentity, hshows⟩ => ⟨hentity, hshows⟩, fun ⟨hentity, hshows⟩ => ⟨hentity, hshows⟩⟩

end Grant

/-! ### What a policy gives -/

namespace Policy

variable {grants others : List Grant} {caller : Caller} {set : String}

/-- A policy gives the highest access among the grants that apply. -/
theorem capability_eq_some_iff {a : Capability} :
    capability ⟨grants⟩ caller set = some a
      ↔ (∃ g ∈ grants, g.applies caller set = true ∧ g.access = a)
        ∧ ∀ g ∈ grants, g.applies caller set = true → g.access ≤ a := by
  simp only [capability, List.max?_eq_some_iff, List.mem_map, List.mem_filter]
  constructor
  · rintro ⟨⟨g, ⟨hg, happlies⟩, haccess⟩, hmost⟩
    exact ⟨⟨g, hg, happlies, haccess⟩, fun g' hg' h => hmost _ ⟨g', ⟨hg', h⟩, rfl⟩⟩
  · rintro ⟨⟨g, hg, happlies, haccess⟩, hmost⟩
    refine ⟨⟨g, ⟨hg, happlies⟩, haccess⟩, ?_⟩
    rintro b ⟨g', ⟨hg', h⟩, rfl⟩
    exact hmost g' hg' h

theorem capability_eq_none_iff :
    capability ⟨grants⟩ caller set = none
      ↔ ∀ g ∈ grants, ¬ g.applies caller set = true := by
  simp only [capability, List.max?_eq_none_iff, List.map_eq_nil_iff, List.filter_eq_nil_iff]

/-- The grants of two policies together give what the more generous policy gives. -/
theorem capability_append (grants others : List Grant) (caller : Caller) (set : String) :
    capability ⟨grants ++ others⟩ caller set
      = max (capability ⟨grants⟩ caller set) (capability ⟨others⟩ caller set) := by
  simp only [capability, List.filter_append, List.map_append]
  exact Capability.max?_append _ _

/-- Only what is granted counts, not in which order nor how often. -/
theorem capability_congr (h : ∀ g, g ∈ grants ↔ g ∈ others) (caller : Caller) (set : String) :
    capability ⟨grants⟩ caller set = capability ⟨others⟩ caller set := by
  apply Option.ext
  intro a
  simp only [capability_eq_some_iff, h]

/-- More grants give at least as much. -/
theorem le_of_subset {a : Capability} (hsub : grants ⊆ others)
    (h : capability ⟨grants⟩ caller set = some a) :
    ∃ b, capability ⟨others⟩ caller set = some b ∧ a ≤ b := by
  obtain ⟨⟨g, hg, happlies, rfl⟩, -⟩ := capability_eq_some_iff.mp h
  cases hothers : capability ⟨others⟩ caller set with
  | none => exact absurd happlies (capability_eq_none_iff.mp hothers g (hsub hg))
  | some b => exact ⟨b, rfl, (capability_eq_some_iff.mp hothers).2 g (hsub hg) happlies⟩

theorem authorize_eq_ok_iff {gate : Gate} {action : Action} {a : Capability} :
    gate.authorize caller set action = .ok a
      ↔ gate caller set = some a ∧ a.permits action = true := by
  cases hgate : gate caller set with
  | none => simp [Gate.authorize, hgate, Capability.judge]
  | some held =>
    by_cases hpermits : held.permits action = true
    · simp only [Gate.authorize, hgate, Capability.judge, if_pos hpermits, Except.ok.injEq,
        Option.some.injEq]
      exact ⟨fun heq => ⟨heq, heq ▸ hpermits⟩, fun hboth => hboth.1⟩
    · simp only [Gate.authorize, hgate, Capability.judge, if_neg hpermits, Option.some.injEq]
      constructor
      · exact nofun
      · rintro ⟨rfl, h⟩
        exact absurd h hpermits

/-- The policy of checked grants gives a caller on a set the highest access of the grants that
    concern both, and nothing if none does. Two rows of grants together give the higher of
    what they give alone; the order of grants and repetitions do not count; and what is
    permitted stays permitted under further grants. -/
theorem gives_the_highest (grants : List Grant) (hchecked : ∀ g ∈ grants, g.check = .ok ())
    (caller : Caller) (set : String) :
    (∀ a, capability ⟨grants⟩ caller set = some a
      ↔ (∃ g ∈ grants, g.Concerns caller set ∧ g.access = a)
        ∧ ∀ g ∈ grants, g.Concerns caller set → g.access ≤ a)
    ∧ (capability ⟨grants⟩ caller set = none ↔ ∀ g ∈ grants, ¬ g.Concerns caller set)
    ∧ (∀ others, capability ⟨grants ++ others⟩ caller set
        = max (capability ⟨grants⟩ caller set) (capability ⟨others⟩ caller set))
    ∧ (∀ others, (∀ g, g ∈ grants ↔ g ∈ others) →
        capability ⟨others⟩ caller set = capability ⟨grants⟩ caller set)
    ∧ (∀ others, grants ⊆ others → ∀ action a,
        (capability ⟨grants⟩).authorize caller set action = .ok a →
        ∃ b, (capability ⟨others⟩).authorize caller set action = .ok b ∧ a ≤ b) := by
  have happlies : ∀ g ∈ grants, (g.applies caller set = true ↔ g.Concerns caller set) :=
    fun g hg => Grant.applies_iff (hchecked g hg)
  refine ⟨fun a => ?_, ?_, fun others => capability_append grants others caller set,
    fun others h => (capability_congr h caller set).symm, fun others hsub action a h => ?_⟩
  · rw [capability_eq_some_iff]
    constructor
    · rintro ⟨⟨g, hg, h, haccess⟩, hmost⟩
      exact ⟨⟨g, hg, (happlies g hg).mp h, haccess⟩,
        fun g' hg' h' => hmost g' hg' ((happlies g' hg').mpr h')⟩
    · rintro ⟨⟨g, hg, h, haccess⟩, hmost⟩
      exact ⟨⟨g, hg, (happlies g hg).mpr h, haccess⟩,
        fun g' hg' h' => hmost g' hg' ((happlies g' hg').mp h')⟩
  · rw [capability_eq_none_iff]
    exact forall₂_congr fun g hg => not_congr (happlies g hg)
  · obtain ⟨hgiven, hpermits⟩ := authorize_eq_ok_iff.mp h
    obtain ⟨b, hb, hle⟩ := le_of_subset hsub hgiven
    exact ⟨b, authorize_eq_ok_iff.mpr ⟨hb, Capability.permits_of_le hle hpermits⟩, hle⟩

/-- The set has a star in its own name, and two patterns of different access show it; the
    third shows another name. -/
theorem gives_the_highest_of_overlapping :
    let grants : List Grant := [⟨.group 100, "org.*", .operate⟩,
      ⟨.user 1000, "org.k*", .retrieve⟩, ⟨.anyone, "org.k", .retrieve⟩]
    let alice : Caller := ⟨1000, 100, some 42⟩
    (∀ g ∈ grants, g.check = .ok ())
      ∧ capability ⟨grants⟩ alice "org.k*y" = some .retrieve
      ∧ capability ⟨grants⟩ ⟨1001, 200, none⟩ "org.k*y" = none
      ∧ capability ⟨grants.reverse⟩ alice "org.k*y" = some .retrieve := by
  intro grants alice
  have hchecked : ∀ g ∈ grants, g.check = .ok () := by
    simp only [Grant.check_eq_ok_iff]
    decide
  have halice := gives_the_highest grants hchecked alice "org.k*y"
  have hbob := gives_the_highest grants hchecked ⟨1001, 200, none⟩ "org.k*y"
  have hgiven : capability ⟨grants⟩ alice "org.k*y" = some .retrieve := by
    refine (halice.1 .retrieve).mpr ⟨⟨⟨.user 1000, "org.k*", .retrieve⟩, by decide, ?_, rfl⟩, ?_⟩
    · exact ⟨Or.inr (Or.inl rfl), .start "org.k" "*y" rfl rfl⟩
    · intro g _ _
      cases g.access <;> decide
  refine ⟨hchecked, hgiven, hbob.2.1.mpr ?_, ?_⟩
  · have hnone : ∀ g ∈ grants, ¬ g.applies ⟨1001, 200, none⟩ "org.k*y" = true := by decide
    exact fun g hg hconcerns => hnone g hg ((Grant.applies_iff (hchecked g hg)).mpr hconcerns)
  · rw [halice.2.2.2.1 grants.reverse fun g => (List.mem_reverse).symm, hgiven]

end Policy

end KeyBroker
