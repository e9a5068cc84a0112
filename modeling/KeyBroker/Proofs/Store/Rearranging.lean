import KeyBroker.Proofs.Store.Loading
import Mathlib.Data.List.Perm.Basic

/-! # A document in any order

  The order of the sets in a document, and of the versions in a set, says nothing. A document
  that is valid stays so when it is rearranged, and has the same versions. Since a store is
  what it shows, both make the same store. Together with what comes of publishing, this tells
  for every document whether there is a store for it, and which one.
-/

namespace KeyBroker

/-- The same set with its versions in another order. -/
structure SetEntry.Reordered (s t : SetEntry) : Prop where
  name_eq : s.name = t.name
  kind_eq : s.kind = t.kind
  perm : s.versions.Perm t.versions

namespace SetEntry

variable {s t : SetEntry}

theorem Reordered.symm (h : s.Reordered t) : t.Reordered s :=
  ⟨h.name_eq.symm, h.kind_eq.symm, h.perm.symm⟩

theorem Checked.reordered (hchecked : s.Checked) (h : s.Reordered t) : t.Checked where
  named := h.name_eq ▸ hchecked.named
  positive e he := hchecked.positive e (h.perm.mem_iff.mpr he)
  distinct := (h.perm.map _).nodup_iff.mp hchecked.distinct

/-- Where one set of two has a match, the other has too. -/
theorem exists_reordered {sets more : List SetEntry} (h : List.Forall₂ Reordered sets more)
    (hs : s ∈ sets) : ∃ t ∈ more, s.Reordered t := by
  induction h with
  | nil => cases hs
  | cons hfirst _ ih =>
    rcases List.mem_cons.mp hs with rfl | hs
    · exact ⟨_, List.mem_cons_self, hfirst⟩
    · obtain ⟨t, ht, hst⟩ := ih hs
      exact ⟨t, List.mem_cons_of_mem _ ht, hst⟩

end SetEntry

/-! ### Stores that have the same -/

namespace KeyStore

variable {store next : KeyStore}

/-- Stores that have the same versions are the same. -/
theorem eq_of_mem_shown_iff (h : ∀ set v, v ∈ store.shown set ↔ v ∈ next.shown set) :
    store = next := by
  apply eq_of_shown_eq
  intro set
  have hperm : (store.shown set).Perm (next.shown set) :=
    (List.perm_ext_iff_of_nodup (store.nodup_shown set) (next.nodup_shown set)).mpr (h set)
  -- both fall, so there is one order only
  refine hperm.eq_of_pairwise ?_ (store.shown_descending set) (next.shown_descending set)
  intro v w _ _ hlt hgt
  exact absurd (UInt32.lt_trans hlt hgt) (UInt32.lt_irrefl _)

end KeyStore

namespace Document

variable {d e : Document} {store : KeyStore}

/-! ### Rearranged documents -/

/-- The same document with its sets in another order, and the versions in each of them. -/
def Rearranged (d e : Document) : Prop :=
  ∃ sets, d.sets.Perm sets ∧ List.Forall₂ SetEntry.Reordered sets e.sets

theorem Rearranged.symm (h : d.Rearranged e) : e.Rearranged d := by
  obtain ⟨sets, hperm, hsets⟩ := h
  -- reordering within the sets first, and then the sets themselves
  obtain ⟨more, hmore, hback⟩ := List.perm_comp_forall₂ hperm hsets
  refine ⟨more, hback.symm, List.Forall₂.flip (hmore.imp ?_)⟩
  intro s t hst
  exact hst.symm

/-- Every set is still there. -/
theorem Rearranged.exists_mem (h : d.Rearranged e) {s : SetEntry} (hs : s ∈ d.sets) :
    ∃ t ∈ e.sets, s.Reordered t := by
  obtain ⟨sets, hperm, hsets⟩ := h
  exact SetEntry.exists_reordered hsets (hperm.mem_iff.mp hs)

theorem Rearranged.names_perm (h : d.Rearranged e) :
    (d.sets.map (·.name)).Perm (e.sets.map (·.name)) := by
  obtain ⟨sets, hperm, hsets⟩ := h
  have hnames : List.Forall₂ (· = ·) (sets.map (·.name)) (e.sets.map (·.name)) := by
    rw [List.forall₂_map_left_iff, List.forall₂_map_right_iff]
    exact hsets.imp fun s t hst => hst.name_eq
  rw [List.forall₂_eq_eq_eq] at hnames
  exact hnames ▸ hperm.map _

/-- A valid document stays valid. -/
theorem Valid.rearranged (hvalid : d.Valid) (h : d.Rearranged e) : e.Valid where
  checked t ht := by
    obtain ⟨s, hs, hts⟩ := h.symm.exists_mem ht
    exact (hvalid.checked s hs).reordered hts.symm
  distinct := h.names_perm.nodup_iff.mp hvalid.distinct
  held t ht entry hentry := by
    obtain ⟨s, hs, hts⟩ := h.symm.exists_mem ht
    rw [hts.kind_eq]
    exact hvalid.held s hs entry (hts.perm.mem_iff.mp hentry)

/-- It has the versions that it had. -/
theorem Has.rearranged {set : String} {v : KeyVersion} (hhas : d.Has set v)
    (h : d.Rearranged e) : e.Has set v := by
  obtain ⟨s, hs, hname, entry, hentry, hnumber, hholds⟩ := hhas
  obtain ⟨t, ht, hst⟩ := h.exists_mem hs
  exact ⟨t, ht, hst.name_eq.symm.trans hname, entry, hst.perm.mem_iff.mp hentry, hnumber,
    hst.kind_eq ▸ hholds⟩

theorem Rearranged.valid_iff (h : d.Rearranged e) : d.Valid ↔ e.Valid :=
  ⟨fun hvalid => hvalid.rearranged h, fun hvalid => hvalid.rearranged h.symm⟩

theorem Rearranged.has_iff (h : d.Rearranged e) (set : String) (v : KeyVersion) :
    d.Has set v ↔ e.Has set v :=
  ⟨fun hhas => hhas.rearranged h, fun hhas => hhas.rearranged h.symm⟩

/-! ### The store of a document -/

/-- The store that a document makes is the one that shows what the document has. -/
theorem publish_eq_ok_iff :
    d.publish.1 = .ok store ↔ d.Valid ∧ ∀ set v, v ∈ store.shown set ↔ d.Has set v := by
  rcases publish_cases d with ⟨made, hmade, hvalid, hshown⟩ | ⟨hinvalid, fault, hfault, -⟩
  · rw [hmade]
    constructor
    · intro heq
      obtain rfl := Except.ok.inj heq
      exact ⟨hvalid, hshown⟩
    · -- a store that shows the same as the one that was made is no other
      rintro ⟨-, hsame⟩
      congr 1
      apply KeyStore.eq_of_mem_shown_iff
      intro set v
      rw [hshown, hsame]
  · rw [hfault]
    exact ⟨nofun, fun h => absurd h.1 hinvalid⟩

/-- The names of the sets in which a document has versions. -/
def inhabited (d : Document) : List String :=
  (d.sets.filter fun s => !s.versions.isEmpty).map (·.name)

theorem mem_inhabited_iff (h : d.Valid) {set : String} :
    set ∈ d.inhabited ↔ ∃ v, d.Has set v := by
  simp only [inhabited, List.mem_map, List.mem_filter, Bool.not_eq_true', List.isEmpty_eq_false_iff]
  constructor
  · rintro ⟨s, ⟨hs, hne⟩, hname⟩
    obtain ⟨entry, hentry⟩ := List.exists_mem_of_ne_nil _ hne
    obtain ⟨material, hholds⟩ := h.held s hs entry hentry
    exact ⟨⟨entry.number, material⟩, s, hs, hname, entry, hentry, rfl, hholds⟩
  · rintro ⟨v, s, hs, hname, entry, hentry, -, -⟩
    exact ⟨s, ⟨hs, List.ne_nil_of_mem hentry⟩, hname⟩

/-- The store has the names of the sets with versions. -/
theorem names_perm_of_publish (h : d.publish.1 = .ok store) : store.names.Perm d.inhabited := by
  obtain ⟨hvalid, hshown⟩ := publish_eq_ok_iff.mp h
  have hinhabited : d.inhabited.Nodup :=
    hvalid.distinct.sublist (List.filter_sublist.map _)
  -- neither list has a name twice, so it is enough that they have the same names
  refine (List.perm_ext_iff_of_nodup store.nodup_names hinhabited).mpr ?_
  intro set
  rw [KeyStore.mem_names_iff, mem_inhabited_iff hvalid]
  constructor
  · intro hne
    obtain ⟨v, hv⟩ := List.exists_mem_of_ne_nil _ hne
    exact ⟨v, (hshown set v).mp hv⟩
  · rintro ⟨v, hhas⟩
    exact List.ne_nil_of_mem ((hshown set v).mpr hhas)

/-- A document makes a store exactly if it is valid: its sets have different names that are
    not blank, the numbers of a set are different and not zero, and every entry has exactly
    the field for the kind of its set, in the one form that is written of a key. Nothing that
    the document asks of the store is refused. What the store has under a number is what the
    document has, its names are in order those of the sets with versions, and rearranging the
    document changes nothing. -/
theorem publishes_exactly_the_valid (d : Document) :
    ((∃ store, d.publish.1 = .ok store) ↔ d.Valid)
    ∧ (∀ cause, d.publish.1 ≠ .error (.publish cause))
    ∧ (∀ store, d.publish.1 = .ok store →
        (∀ set number v, number ≠ 0 →
          (store.get set (.ofNumber number) = .ok v ↔ v.number = number ∧ d.Has set v))
        ∧ (∀ set v, v ∈ store.shown set ↔ d.Has set v)
        ∧ store.names.Pairwise (· < ·) ∧ store.names.Perm d.inhabited)
    ∧ ∀ e, d.Rearranged e → ∀ store, d.publish.1 = .ok store ↔ e.publish.1 = .ok store := by
  refine ⟨?_, ?_, ?_, ?_⟩
  · constructor
    · rintro ⟨store, hstore⟩
      exact (publish_eq_ok_iff.mp hstore).1
    · intro hvalid
      rcases publish_cases d with ⟨store, hstore, -⟩ | ⟨hinvalid, -⟩
      · exact ⟨store, hstore⟩
      · exact absurd hvalid hinvalid
  · intro cause hrefused
    rcases publish_cases d with ⟨store, hstore, -⟩ | ⟨-, fault, hfault, hother⟩
    · rw [hstore] at hrefused
      cases hrefused
    · rw [hfault] at hrefused
      exact hother cause (Except.error.inj hrefused)
  · intro store hstore
    obtain ⟨-, hshown⟩ := publish_eq_ok_iff.mp hstore
    refine ⟨?_, hshown, List.pairwise_map.mpr store.ascending, names_perm_of_publish hstore⟩
    intro set number v hnumber
    rw [KeyStore.ofNumber_of_ne hnumber, KeyStore.get_exactly_eq_ok_iff, hshown, and_comm]
  · intro e he store
    rw [publish_eq_ok_iff, publish_eq_ok_iff, he.valid_iff]
    simp only [he.has_iff]

/-- Two documents that differ in their order only, one set of them without versions, make one
    store, and it has what they have. -/
theorem publishes_exactly_the_valid_in_two_orders :
    let early := VersionEntry.ofSecret 2 [7]
    let late := VersionEntry.ofSecret 9 [8, 9]
    let one : Document := ⟨[⟨"b", .symmetric, [late, early]⟩, ⟨"c", .asymmetric, []⟩,
      ⟨"a", .symmetric, [early]⟩]⟩
    let other : Document := ⟨[⟨"a", .symmetric, [early]⟩, ⟨"b", .symmetric, [early, late]⟩,
      ⟨"c", .asymmetric, []⟩]⟩
    one.Rearranged other ∧ ∃ store, one.publish.1 = .ok store ∧ other.publish.1 = .ok store
      ∧ store.get "b" (.ofNumber 9) = .ok ⟨9, .secret [8, 9]⟩
      ∧ (∀ v, store.get "b" (.ofNumber 7) ≠ .ok v) ∧ store.names.Perm ["b", "a"] := by
  intro early late one other
  -- the names and numbers are looked at one by one, the materials are those of the entries
  have hearly : early.Holds .symmetric (.secret [7]) := .secret 2 [7]
  have hlate : late.Holds .symmetric (.secret [8, 9]) := .secret 9 [8, 9]
  have hvalid : one.Valid := by
    refine ⟨?_, by decide, ?_⟩
    · intro s hs
      simp only [one, List.mem_cons, List.not_mem_nil, or_false] at hs
      rcases hs with rfl | rfl | rfl
      · exact ⟨by decide, by decide, by decide⟩
      · exact ⟨by decide, by decide, by decide⟩
      · exact ⟨by decide, by decide, by decide⟩
    · intro s hs e he
      simp only [one, List.mem_cons, List.not_mem_nil, or_false] at hs
      rcases hs with rfl | rfl | rfl
      · simp only [List.mem_cons, List.not_mem_nil, or_false] at he
        rcases he with rfl | rfl
        · exact ⟨_, hlate⟩
        · exact ⟨_, hearly⟩
      · exact absurd he List.not_mem_nil
      · simp only [List.mem_cons, List.not_mem_nil, or_false] at he
        rw [he]
        exact ⟨_, hearly⟩
  have hrearranged : one.Rearranged other := by
    refine ⟨[⟨"a", .symmetric, [early]⟩, ⟨"b", .symmetric, [late, early]⟩,
      ⟨"c", .asymmetric, []⟩], ?_, ?_⟩
    · exact (List.perm_append_comm : ([_, _] ++ [_]).Perm _)
    · exact .cons ⟨rfl, rfl, .refl _⟩ (.cons ⟨rfl, rfl, .swap _ _ _⟩
        (.cons ⟨rfl, rfl, .refl _⟩ .nil))
  obtain ⟨hmakes, -, hstore, horder⟩ := publishes_exactly_the_valid one
  obtain ⟨store, hone⟩ := hmakes.mpr hvalid
  obtain ⟨hget, -, -, hnames⟩ := hstore store hone
  refine ⟨hrearranged, store, hone, (horder other hrearranged store).mp hone, ?_, ?_, hnames⟩
  · refine (hget "b" 9 _ (by decide)).mpr ⟨rfl, ?_⟩
    exact ⟨_, List.mem_cons_self, rfl, late, List.mem_cons_self, rfl, hlate⟩
  · intro v hv
    obtain ⟨hseven, s, hs, hname, e, he, hnumber, -⟩ := (hget "b" 7 v (by decide)).mp hv
    simp only [one, List.mem_cons, List.not_mem_nil, or_false] at hs
    rcases hs with rfl | rfl | rfl
    · simp only [List.mem_cons, List.not_mem_nil, or_false] at he
      rw [hseven] at hnumber
      rcases he with rfl | rfl
      · exact absurd hnumber (by decide)
      · exact absurd hnumber (by decide)
    · exact absurd hname (by decide)
    · exact absurd hname (by decide)

end Document

end KeyBroker
