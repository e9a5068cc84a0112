import KeyBroker.Host.Tree

/-! # Places that outlast changes

  A path is followed through directories, so where it leads depends on the directories of
  the tree alone. A tree extends another one when it has all directories of the other.
  Making directories, putting something where nothing stands and removing what is no
  directory all extend a tree. So a path that leads to a place leads there for good,
  whatever comes to stand at the place and goes from it again.
-/

namespace KeyBroker.Tree

variable {t u v : Tree} {p : Path} {place q : List Bytes} {what : Place}

/-! ### What stands where -/

theorem ne_nil_of_atPlace_eq_none (h : t.atPlace place = none) : place ≠ [] := by
  intro hroot
  subst hroot
  cases h

theorem atPlace_put_self (hroot : place ≠ []) : (t.put place what).atPlace place = some what := by
  unfold atPlace put
  rw [if_neg (by simpa using hroot)]
  simp

theorem lookup_erase (t : Tree) (place q : List Bytes) :
    (t.erase place).places.lookup q = if q = place then none else t.places.lookup q := by
  unfold erase
  induction t.places with
  | nil => exact (ite_self none).symm
  | cons entry rest ih =>
    obtain ⟨name, held⟩ := entry
    by_cases hname : name = place
    · have hdropped : (name != place) = false := by simp [hname]
      simp only [List.filter_cons, hdropped, Bool.false_eq_true, if_false, ih, List.lookup_cons]
      by_cases hq : q = place
      · rw [if_pos hq, if_pos hq]
      · have hother : (q == name) = false := by simp [hname, hq]
        rw [if_neg hq, if_neg hq, hother]
    · have hkept : (name != place) = true := by simp [hname]
      simp only [List.filter_cons, hkept, if_true, List.lookup_cons, ih]
      by_cases hfound : q = name
      · simp only [hfound, beq_self_eq_true, hname, if_false]
      · rw [beq_eq_false_iff_ne.mpr hfound]

theorem atPlace_erase_of_ne (hne : q ≠ place) : (t.erase place).atPlace q = t.atPlace q := by
  unfold atPlace
  rw [lookup_erase, if_neg hne]

theorem atPlace_erase_self (hroot : place ≠ []) : (t.erase place).atPlace place = none := by
  unfold atPlace
  rw [if_neg (by simpa using hroot), lookup_erase, if_pos rfl]

theorem atPlace_put_of_ne (hne : q ≠ place) : (t.put place what).atPlace q = t.atPlace q := by
  unfold atPlace put
  rw [List.lookup_cons, beq_eq_false_iff_ne.mpr hne]
  dsimp only
  rw [lookup_erase, if_neg hne]

/-! ### Trees with more directories -/

/-- A tree has all directories of another one, and relative paths begin at the same place. -/
structure Extends (t u : Tree) : Prop where
  start : u.start = t.start
  directory : ∀ q mode, t.atPlace q = some (.directory mode) → u.atPlace q = some (.directory mode)

namespace Extends

theorem refl (t : Tree) : Extends t t := ⟨rfl, fun _ _ h => h⟩

theorem trans (htu : Extends t u) (huv : Extends u v) : Extends t v :=
  ⟨huv.start.trans htu.start, fun q mode h => huv.directory q mode (htu.directory q mode h)⟩

end Extends

/-- No directory stands at a place. -/
def Bare (t : Tree) (place : List Bytes) : Prop := ∀ mode, t.atPlace place ≠ some (.directory mode)

theorem bare_of_atPlace {held : Option Place} (h : t.atPlace place = held)
    (hheld : ∀ mode, held ≠ some (.directory mode)) : t.Bare place := by
  intro mode hdirectory
  rw [h] at hdirectory
  exact hheld mode hdirectory

/-- The root is a directory. -/
theorem Bare.ne_nil (h : t.Bare place) : place ≠ [] := by
  intro hroot
  subst hroot
  exact h 0o755 rfl

/-- What changes at a place that is no directory takes none away. -/
theorem extends_of_same (hbare : t.Bare place) (hstart : u.start = t.start)
    (hsame : ∀ q, q ≠ place → u.atPlace q = t.atPlace q) : t.Extends u := by
  refine ⟨hstart, ?_⟩
  intro q mode hdirectory
  by_cases hq : q = place
  · subst hq
    exact absurd hdirectory (hbare mode)
  · rw [hsame q hq]
    exact hdirectory

theorem extends_put (hbare : t.Bare place) (what : Place) : t.Extends (t.put place what) :=
  extends_of_same hbare rfl fun _ => atPlace_put_of_ne

theorem extends_erase (hbare : t.Bare place) : t.Extends (t.erase place) :=
  extends_of_same hbare rfl fun _ => atPlace_erase_of_ne

/-! ### Paths that stay -/

/-- Where names lead, they lead in every tree with these directories. -/
theorem follow_of_extends (h : t.Extends u) {names : List Bytes} {start : List Bytes}
    (hfollow : t.follow start names = .ok place) : u.follow start names = .ok place := by
  induction names generalizing start with
  | nil => exact hfollow
  | cons name rest ih =>
    unfold follow at hfollow ⊢
    split at hfollow
    · cases hfollow
    · next hlength =>
      rw [if_neg hlength]
      dsimp only at hfollow ⊢
      split at hfollow
      · next hlast =>
        rw [if_pos hlast]
        exact hfollow
      · next hmore =>
        rw [if_neg hmore]
        -- every name but the last is that of a directory, and directories stay
        split at hfollow
        · next mode hdirectory =>
          rw [h.directory _ mode hdirectory]
          exact ih hfollow
        · cases hfollow
        · cases hfollow

theorem resolve_of_extends (h : t.Extends u) (hresolve : t.resolve p = .ok place) :
    u.resolve p = .ok place := by
  unfold resolve at hresolve ⊢
  split at hresolve
  · cases hresolve
  · next hnul =>
    rw [if_neg hnul]
    split at hresolve
    · cases hresolve
    · next hempty =>
      rw [if_neg hempty]
      have horigin : u.origin p = t.origin p := by
        unfold origin
        rw [h.start]
      rw [horigin]
      exact follow_of_extends h hresolve

/-! ### Making directories -/

/-- Directories that names lead through are only made where nothing stands. -/
theorem extends_makeDirectories (t : Tree) (place : List Bytes) (names : List Bytes) :
    t.Extends (t.makeDirectories place names).2 := by
  induction names generalizing t place with
  | nil => exact .refl t
  | cons name rest ih =>
    unfold makeDirectories
    split
    · exact .refl t
    · dsimp only
      split
      · exact ih t _
      · exact .refl t
      · next hnone => exact (extends_put (bare_of_atPlace hnone nofun) _).trans (ih _ _)

/-- What is no directory was there before. -/
theorem atPlace_of_makeDirectories {names : List Bytes}
    (h : (t.makeDirectories place names).2.atPlace q = some what)
    (hwhat : ∀ mode, what ≠ .directory mode) : t.atPlace q = some what := by
  induction names generalizing t place with
  | nil => exact h
  | cons name rest ih =>
    unfold makeDirectories at h
    split at h
    · exact h
    · dsimp only at h
      split at h
      · exact ih h
      · exact h
      · next hnone =>
        have hput := ih h
        by_cases hq : q = step place name
        · subst hq
          rw [atPlace_put_self (ne_nil_of_atPlace_eq_none hnone)] at hput
          exact absurd (Option.some.inj hput).symm (hwhat _)
        · rwa [atPlace_put_of_ne hq] at hput

/-- Once the directories are made there is nothing to make, in every tree that has them. -/
theorem makeDirectories_of_extends {names : List Bytes}
    (hmade : t.makeDirectories place names = (.ok (), u)) (h : u.Extends v) :
    v.makeDirectories place names = (.ok (), v) := by
  induction names generalizing t place with
  | nil => rfl
  | cons name rest ih =>
    unfold makeDirectories at hmade ⊢
    split at hmade
    · cases hmade
    · next hlength =>
      rw [if_neg hlength]
      dsimp only at hmade ⊢
      split at hmade
      · -- the directory was there before, so it is there still
        next mode hdirectory =>
        have hkept := extends_makeDirectories t (step place name) rest
        rw [hmade] at hkept
        rw [(hkept.trans h).directory _ mode hdirectory]
        exact ih hmade
      · cases hmade
      · -- it was made then, and has been there since
        next hnone =>
        have hkept := extends_makeDirectories (t.put (step place name) (.directory 0o755))
          (step place name) rest
        rw [hmade] at hkept
        have hself : (t.put (step place name) (.directory 0o755)).atPlace (step place name)
            = some (.directory 0o755) := atPlace_put_self (ne_nil_of_atPlace_eq_none hnone)
        rw [(hkept.trans h).directory _ _ hself]
        exact ih hmade

theorem extends_makeParents (t : Tree) (p : Path) : t.Extends (t.makeParents p).2 := by
  unfold makeParents
  split
  · exact .refl t
  · exact extends_makeDirectories t _ _

theorem atPlace_of_makeParents (h : (t.makeParents p).2.atPlace q = some what)
    (hwhat : ∀ mode, what ≠ .directory mode) : t.atPlace q = some what := by
  unfold makeParents at h
  split at h
  · exact h
  · exact atPlace_of_makeDirectories h hwhat

theorem makeParents_of_extends (hmade : t.makeParents p = (.ok (), u)) (h : u.Extends v) :
    v.makeParents p = (.ok (), v) := by
  have hkept := extends_makeParents t p
  rw [hmade] at hkept
  unfold makeParents at hmade ⊢
  split at hmade
  · cases hmade
  · next hnul =>
    have horigin : v.origin p = t.origin p := by
      unfold origin
      rw [(hkept.trans h).start]
    rw [if_neg hnul, horigin]
    exact makeDirectories_of_extends hmade h

/-! ### Removing -/

/-- A tree from which at most what a path led to is gone, so that the path leads to nothing or
    to a directory. -/
structure Vacated (p : Path) (t u : Tree) : Prop where
  kept : t.Extends u
  fewer : ∀ q what, u.atPlace q = some what → t.atPlace q = some what
  vacant : ∀ place what, u.resolve p = .ok place → u.atPlace place = some what →
    ∃ mode, what = .directory mode

theorem vacated_refl (h : ∀ place what, t.resolve p = .ok place → t.atPlace place = some what →
    ∃ mode, what = .directory mode) : Vacated p t t :=
  ⟨.refl t, fun _ _ h => h, h⟩

theorem vacated_erase (hresolve : t.resolve p = .ok place) (hbare : t.Bare place) :
    Vacated p t (t.erase place) := by
  have hkept := extends_erase hbare
  refine ⟨hkept, ?_, ?_⟩
  · intro q what hq
    by_cases hplace : q = place
    · subst hplace
      rw [atPlace_erase_self hbare.ne_nil] at hq
      cases hq
    · rwa [atPlace_erase_of_ne hplace] at hq
  · intro place' what hresolve' hwhat
    rw [resolve_of_extends hkept hresolve] at hresolve'
    cases hresolve'
    rw [atPlace_erase_self hbare.ne_nil] at hwhat
    cases hwhat

/-- Removal takes away what a path leads to, unless that is a directory. -/
theorem vacated_remove (t : Tree) (p : Path) : Vacated p t (t.remove p).2 := by
  unfold remove
  split
  · next cause hresolve =>
    apply vacated_refl
    intro place what hplace
    rw [hresolve] at hplace
    cases hplace
  · next place hresolve =>
    have hplace : ∀ place', t.resolve p = .ok place' → place' = place := by
      intro place' h
      rw [hresolve] at h
      exact (Except.ok.inj h).symm
    split
    · next hnone =>
      apply vacated_refl
      intro place' what h hwhat
      rw [hplace place' h, hnone] at hwhat
      cases hwhat
    · next mode hdirectory =>
      apply vacated_refl
      intro place' what h hwhat
      rw [hplace place' h, hdirectory] at hwhat
      exact ⟨mode, (Option.some.inj hwhat).symm⟩
    · next held hother hheld =>
      apply vacated_erase hresolve
      apply bare_of_atPlace hheld
      intro mode hdirectory
      exact hother mode (Option.some.inj hdirectory)

/-- A removal that fails changes nothing. -/
theorem eq_of_remove_eq_error {cause : SystemFault} (h : t.remove p = (.error cause, u)) :
    u = t := by
  unfold remove at h
  split at h
  · cases h
    rfl
  · split at h
    · cases h
      rfl
    · cases h
      rfl
    · cases h

end KeyBroker.Tree
