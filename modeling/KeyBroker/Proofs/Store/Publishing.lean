import KeyBroker.Proofs.Store.History
import Mathlib.Data.List.Nodup

/-! # Publishing in order

  Versions with numbers of the publisher's choice are all taken if the numbers of each set
  ascend, start above zero, and the keys of a set are of one kind. What comes of it does not
  depend on how the sets take turns: a store is all that it shows, and it shows of each set
  the versions published to it.
-/

namespace KeyBroker

/-! ### A store is what it shows -/

theorem KeySet.eq_of_versions {s t : KeySet} (hname : s.name = t.name)
    (hversions : s.versions = t.versions) (hne : s.versions ≠ []) : s = t := by
  -- the kind is that of any version
  obtain ⟨v, hv⟩ := List.exists_mem_of_ne_nil _ hne
  have hkind : s.kind = t.kind := by
    rw [← s.uniform v hv, ← t.uniform v (hversions ▸ hv)]
  cases s
  cases t
  simp only at hname hversions hkind
  subst hname hversions hkind
  rfl

namespace KeyStore

variable {store next : KeyStore}

/-- No name comes twice, so no set does. -/
theorem nodup_names (store : KeyStore) : store.names.Nodup :=
  (List.pairwise_map.mpr store.ascending).nodup

theorem nodup_sets (store : KeyStore) : store.sets.Nodup := store.nodup_names.of_map

/-- No number comes twice in a set, so no version does. -/
theorem nodup_shown (store : KeyStore) (set : String) : (store.shown set).Nodup := by
  have hfalling : ((store.shown set).map (·.number)).Pairwise (· > ·) :=
    List.pairwise_map.mpr (store.shown_descending set)
  exact hfalling.nodup.of_map

/-- Among ascending names, a name finds its set. -/
theorem lookup_of_mem {sets : List KeySet} {s : KeySet}
    (h : sets.Pairwise fun s t => s.name < t.name) (hs : s ∈ sets) :
    lookup s.name sets = some s := by
  induction sets with
  | nil => cases hs
  | cons t rest ih =>
    obtain ⟨hfirst, hrest⟩ := List.pairwise_cons.mp h
    unfold lookup at ih ⊢
    rcases List.mem_cons.mp hs with rfl | hs
    · exact List.find?_cons_of_pos (beq_self_eq_true s.name)
    · -- the set found first has a lesser name
      have hne : ¬ (t.name == s.name) = true := by
        intro hsame
        have hlt := hfirst s hs
        rw [eq_of_beq hsame] at hlt
        exact String.lt_irrefl _ hlt
      rw [List.find?_cons_of_neg (by exact hne)]
      exact ih hrest hs

theorem mem_of_shown_eq (h : ∀ set, store.shown set = next.shown set) {s : KeySet}
    (hs : s ∈ store.sets) : s ∈ next.sets := by
  have hset : store.set? s.name = some s := lookup_of_mem store.ascending hs
  have hshown := shown_of_some hset
  have hne : s.versions ≠ [] := store.inhabited s hs
  rw [h s.name] at hshown
  cases hfound : next.set? s.name with
  | none =>
    rw [shown_of_none hfound] at hshown
    exact absurd hshown.symm hne
  | some t =>
    obtain ⟨ht, hname⟩ := mem_of_set? hfound
    rw [shown_of_some hfound] at hshown
    rw [KeySet.eq_of_versions hname.symm hshown.symm hne]
    exact ht

/-- Stores that show the same are the same. -/
theorem eq_of_shown_eq (h : ∀ set, store.shown set = next.shown set) : store = next := by
  have hmem : ∀ s, s ∈ store.sets ↔ s ∈ next.sets := fun s =>
    ⟨mem_of_shown_eq h, mem_of_shown_eq fun set => (h set).symm⟩
  have hperm : store.sets.Perm next.sets :=
    (List.perm_ext_iff_of_nodup store.nodup_sets next.nodup_sets).mpr hmem
  have hsets : store.sets = next.sets := by
    refine hperm.eq_of_pairwise ?_ store.ascending next.ascending
    intro s t _ _ hlt hgt
    exact absurd (String.lt_trans hlt hgt) (String.lt_irrefl _)
  cases store
  cases next
  simp only at hsets
  subst hsets
  rfl

/-! ### Publishing all -/

/-- Publishes entries one after the other, each under its number. -/
def publishAll (store : KeyStore) : List Entry → Except PublishFault KeyStore
  | [] => .ok store
  | e :: rest =>
    match store.publishAs e.set e.version.number e.version.material with
    | .ok (_, next) => next.publishAll rest
    | .error fault => .error fault

/-- Entries that are all taken add to the history. -/
theorem has_publishAll {past entries : List Entry} (h : Has store past)
    (hall : store.publishAll entries = .ok next) : Has next (past ++ entries) := by
  induction entries generalizing store past with
  | nil =>
    obtain rfl := Except.ok.inj hall
    rw [List.append_nil]
    exact h
  | cons e rest ih =>
    rw [publishAll] at hall
    split at hall
    · next p mid hpublish =>
      have hmid := ih (has_publishAs h hpublish) hall
      rwa [List.append_assoc] at hmid
    · cases hall

/-! ### Entries that are all taken -/

/-- Sorted by numbers that are all different, a list ascends. -/
theorem pairwise_mergeSort_of_nodup {α : Type} {as : List α} {number : α → UInt32}
    (h : (as.map number).Nodup) :
    (as.mergeSort fun a b => number a ≤ number b).Pairwise fun a b => number a < number b := by
  let sorted := as.mergeSort fun a b => number a ≤ number b
  have hsorted : sorted.Pairwise fun a b => decide (number a ≤ number b) = true := by
    apply List.pairwise_mergeSort
    · intro a b c hab hbc
      exact decide_eq_true (UInt32.le_trans (of_decide_eq_true hab) (of_decide_eq_true hbc))
    · intro a b
      rw [Bool.or_eq_true, decide_eq_true_eq, decide_eq_true_eq]
      exact UInt32.le_total (number a) (number b)
  have hdistinct : sorted.Pairwise fun a b => number a ≠ number b := by
    have hperm := (List.mergeSort_perm as fun a b => number a ≤ number b).map number
    exact List.pairwise_map.mp (hperm.nodup_iff.mpr h)
  refine (hsorted.and hdistinct).imp ?_
  rintro a b ⟨hle, hne⟩
  exact UInt32.lt_of_le_of_ne (of_decide_eq_true hle) hne

/-- Within each set, numbers ascend. -/
def Ascending (entries : List Entry) : Prop :=
  entries.Pairwise fun earlier later =>
    earlier.set = later.set → earlier.version.number < later.version.number

/-- Entries that a store can take: no number is zero, and a set has keys of one kind. -/
structure Fit (entries : List Entry) : Prop where
  positive : ∀ e ∈ entries, e.version.number ≠ 0
  uniform : ∀ e ∈ entries, ∀ f ∈ entries, e.set = f.set →
    e.version.material.kind = f.version.material.kind

theorem Fit.perm {entries more : List Entry} (h : Fit entries) (hperm : more.Perm entries) :
    Fit more :=
  ⟨fun e he => h.positive e (hperm.mem_iff.mp he),
    fun e he f hf => h.uniform e (hperm.mem_iff.mp he) f (hperm.mem_iff.mp hf)⟩

/-- A version above all that a set shows, and of their kind, is taken. -/
theorem exists_publishAs {set : String} {number : UInt32} {material : KeyMaterial}
    (hpositive : number ≠ 0) (habove : ∀ v ∈ store.shown set, v.number < number)
    (hkind : ∀ v ∈ store.shown set, v.material.kind = material.kind) :
    ∃ p next, store.publishAs set number material = .ok (p, next) := by
  let current := store.setOrNew set material.kind
  have hshown : current.versions = store.shown set := shown_setOrNew store set material.kind
  have hlatest : current.latest < number := by
    unfold KeySet.latest
    split
    · exact UInt32.pos_iff_ne_zero.mpr hpositive
    · next v rest hversions =>
      exact habove v (by rw [← hshown, hversions]; exact List.mem_cons_self)
  -- a new set has the kind that is asked for, an old one that of its versions
  have hsame : material.kind = current.kind := by
    cases hset : store.set? set with
    | none => simp only [current, setOrNew, hset]; rfl
    | some s =>
      have hversions := shown_of_some hset
      obtain ⟨v, hv⟩ := List.exists_mem_of_ne_nil _ (shown_ne_nil hset)
      have hcurrent : current = s := by simp only [current, setOrNew, hset]; rfl
      rw [hcurrent, ← hkind v hv, s.uniform v (hversions ▸ hv)]
  have hpublish : ∃ grown, current.publish ⟨number, material⟩ = .ok grown := by
    rw [KeySet.publish, dif_neg hpositive, dif_pos hlatest, dif_pos hsame]
    exact ⟨_, rfl⟩
  obtain ⟨grown, hgrown⟩ := hpublish
  unfold publishAs
  simp only
  split
  · next fault hfault => cases hfault.symm.trans hgrown
  · exact ⟨_, _, rfl⟩

/-- Fit entries whose numbers ascend, after those that are in the history, are all taken. -/
theorem exists_publishAll {past entries : List Entry} (h : Has store past)
    (hfit : Fit (past ++ entries)) (hascending : Ascending (past ++ entries)) :
    ∃ next, store.publishAll entries = .ok next := by
  induction entries generalizing store past with
  | nil => exact ⟨store, rfl⟩
  | cons e rest ih =>
    have he : e ∈ past ++ e :: rest := List.mem_append_right _ List.mem_cons_self
    -- what the set shows was published before
    have hpast : ∀ v ∈ store.shown e.set, ⟨e.set, v⟩ ∈ past := by
      intro v hv
      rw [h.shows] at hv
      exact mem_versionsIn.mp hv
    have habove : ∀ v ∈ store.shown e.set, v.number < e.version.number := by
      intro v hv
      have hbefore := (List.pairwise_append.mp hascending).2.2
      exact hbefore _ (hpast v hv) e List.mem_cons_self rfl
    have hkind : ∀ v ∈ store.shown e.set, v.material.kind = e.version.material.kind := by
      intro v hv
      exact hfit.uniform _ (List.mem_append_left _ (hpast v hv)) e he rfl
    obtain ⟨p, mid, hpublish⟩ := exists_publishAs (hfit.positive e he) habove hkind
    -- the entry that was taken joins those in the history
    have hassoc : past ++ e :: rest = (past ++ [e]) ++ rest := by simp
    rw [hassoc] at hfit hascending
    obtain ⟨next, hnext⟩ := ih (has_publishAs h hpublish) hfit hascending
    refine ⟨next, ?_⟩
    rw [publishAll, hpublish]
    exact hnext

/-! ### Taking turns -/

/-- Of each set, rearranged entries that still ascend give the same versions. -/
theorem versionsIn_perm {entries more : List Entry} (hperm : more.Perm entries)
    (hentries : Ascending entries) (hmore : Ascending more) (set : String) :
    versionsIn more set = versionsIn entries set := by
  -- among the entries of one set the numbers just ascend
  have hsorted : ∀ {es : List Entry}, Ascending es →
      (es.filter (·.set = set)).Pairwise fun a b => a.version.number < b.version.number := by
    intro es hes
    refine List.Pairwise.imp_of_mem ?_ (hes.filter _)
    intro a b ha hb hlt
    have hset : ∀ c ∈ es.filter (·.set = set), c.set = set := fun c hc =>
      of_decide_eq_true (List.mem_filter.mp hc).2
    exact hlt ((hset a ha).trans (hset b hb).symm)
  have hsame : more.filter (·.set = set) = entries.filter (·.set = set) := by
    refine (hperm.filter _).eq_of_pairwise ?_ (hsorted hmore) (hsorted hentries)
    intro a b _ _ hlt hgt
    exact absurd (UInt32.lt_trans hlt hgt) (UInt32.lt_irrefl _)
  rw [versionsIn, versionsIn, hsame]

/-- In whatever turns sets are published, the store is the same. -/
theorem publishAll_perm {entries more : List Entry} (hfit : Fit entries)
    (hentries : Ascending entries) (hperm : more.Perm entries) (hmore : Ascending more) :
    ∃ next, empty.publishAll entries = .ok next ∧ empty.publishAll more = .ok next := by
  obtain ⟨next, hnext⟩ := exists_publishAll has_empty hfit hentries
  obtain ⟨other, hother⟩ := exists_publishAll has_empty (hfit.perm hperm) hmore
  have hhas := has_publishAll has_empty hnext
  have hhas' := has_publishAll has_empty hother
  have hsame : other = next := by
    apply eq_of_shown_eq
    intro set
    rw [hhas.shows, hhas'.shows]
    exact versionsIn_perm hperm hentries hmore set
  exact ⟨next, hnext, hsame ▸ hother⟩

end KeyStore

end KeyBroker
