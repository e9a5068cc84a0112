import KeyBroker.Proofs.Store.Checking
import KeyBroker.Proofs.Store.Publishing

/-! # Which documents make a store

  A document makes a store exactly if it passes the check and every entry holds its material.
  The store itself never has a reason to refuse: the check has seen to it that the numbers of
  a set are different and not zero, sorting puts them in ascending order, and what an entry
  holds is of the kind of its set. The invariant of publishing is that every entry still to
  come is above all that the store shows of its set, and of the same kind.

  What the store shows in the end is what the entries hold, so it does not depend on how the
  document is ordered.
-/

namespace KeyBroker

/-! ### Entries in a row -/

/-- An entry together with the set that it is in. -/
structure Item where
  set : String
  kind : KeyKind
  entry : VersionEntry

namespace Item

/-- What an item puts into a store. -/
def Gives (i : Item) (set : String) (v : KeyVersion) : Prop :=
  i.set = set ∧ i.entry.number = v.number ∧ i.entry.Holds i.kind v.material

/-- Items in an order in which they can be published: within a set the numbers ascend, and
    the kinds are the same. -/
def Ordered (items : List Item) : Prop :=
  items.Pairwise fun i j => i.set = j.set → i.kind = j.kind ∧ i.entry.number < j.entry.number

/-- A store that is ready for items: what it shows of their sets is below them and of their
    kind. -/
def Awaited (store : KeyStore) (items : List Item) : Prop :=
  ∀ i ∈ items, ∀ v ∈ store.shown i.set, v.material.kind = i.kind ∧ v.number < i.entry.number

/-- Publishes items one after the other. -/
def publishAll (store : KeyStore) : List Item → Except StoreFault KeyStore
  | [] => .ok store
  | i :: rest =>
    match i.entry.material i.kind with
    | .error cause => .error (.entry i.set i.entry.number cause)
    | .ok material =>
      match store.publishAs i.set i.entry.number material with
      | .error cause => .error (.publish cause)
      | .ok (_, next) => publishAll next rest

variable {store next : KeyStore} {items : List Item} {i : Item}

theorem publishAll_append (items more : List Item) :
    publishAll store (items ++ more)
      = (publishAll store items).bind fun next => publishAll next more := by
  induction items generalizing store with
  | nil => rfl
  | cons i rest ih =>
    rw [List.cons_append, publishAll, publishAll]
    split
    · rfl
    split
    · rfl
    · exact ih

/-- Items that hold the keys of entries are published as the entries are. -/
theorem publishAll_of_entries {entries : List Entry} {item : Entry → Item}
    (hitem : ∀ e ∈ entries, (item e).set = e.set ∧ (item e).entry.number = e.version.number
      ∧ (item e).entry.material (item e).kind = .ok e.version.material)
    (hall : store.publishAll entries = .ok next) :
    publishAll store (entries.map item) = .ok next := by
  induction entries generalizing store with
  | nil => exact congrArg Except.ok (Except.ok.inj hall)
  | cons e rest ih =>
    obtain ⟨hset, hnumber, hmaterial⟩ := hitem e List.mem_cons_self
    rw [KeyStore.publishAll] at hall
    rw [List.map_cons, publishAll, hmaterial, hset, hnumber]
    dsimp only
    cases hpublish : store.publishAs e.set e.version.number e.version.material with
    | error fault =>
      rw [hpublish] at hall
      cases hall
    | ok result =>
      rw [hpublish] at hall
      exact ih (fun f hf => hitem f (List.mem_cons_of_mem _ hf)) hall

/-- After the first item is published, the store is ready for the others. -/
theorem awaited_rest {material : KeyMaterial} {p : Publication}
    (hordered : Ordered (i :: items)) (hawaited : Awaited store (i :: items))
    (hkind : material.kind = i.kind)
    (hpublish : store.publishAs i.set i.entry.number material = .ok (p, next)) :
    Awaited next items := by
  obtain ⟨-, hset, hothers⟩ := KeyStore.of_publishAs hpublish
  intro j hj v hv
  by_cases hsame : j.set = i.set
  · -- the new version comes before every later item of its set
    obtain ⟨hkinds, hnumbers⟩ := (List.pairwise_cons.mp hordered).1 j hj hsame.symm
    rw [hsame, hset] at hv
    rcases List.mem_cons.mp hv with rfl | hv
    · exact ⟨hkind.trans hkinds, hnumbers⟩
    · exact hawaited j (List.mem_cons_of_mem _ hj) v (by rw [hsame]; exact hv)
  · rw [hothers j.set hsame] at hv
    exact hawaited j (List.mem_cons_of_mem _ hj) v hv

/-- A store shows what an item that was published gives, and what it showed before. -/
theorem mem_shown_iff_of_publishAs {material : KeyMaterial} {p : Publication}
    (hholds : i.entry.Holds i.kind material)
    (hpublish : store.publishAs i.set i.entry.number material = .ok (p, next)) (set : String)
    (v : KeyVersion) : v ∈ next.shown set ↔ v ∈ store.shown set ∨ i.Gives set v := by
  obtain ⟨-, hset, hothers⟩ := KeyStore.of_publishAs hpublish
  by_cases hsame : set = i.set
  · subst hsame
    rw [hset, List.mem_cons]
    constructor
    · rintro (rfl | hv)
      · exact .inr ⟨rfl, rfl, hholds⟩
      · exact .inl hv
    · rintro (hv | ⟨-, hnumber, hgiven⟩)
      · exact .inr hv
      · -- an entry holds one material
        obtain rfl := hholds.unique hgiven
        exact .inl (by rw [hnumber])
  · have hnot : ¬ i.Gives set v := fun h => hsame h.1.symm
    rw [hothers set hsame, or_iff_left hnot]

/-- All that can come of publishing items in order. Every item holds a material, and the store
    shows what it showed and what the items give; or some item does not hold one, and is
    named. The store itself refuses nothing. -/
theorem publishAll_cases (hpositive : ∀ i ∈ items, i.entry.number ≠ 0)
    (hordered : Ordered items) (hawaited : Awaited store items) :
    (∃ next, publishAll store items = .ok next
      ∧ (∀ i ∈ items, ∃ material, i.entry.Holds i.kind material)
      ∧ ∀ set v, v ∈ next.shown set ↔ v ∈ store.shown set ∨ ∃ i ∈ items, i.Gives set v)
    ∨ ∃ i ∈ items, ∃ cause, i.entry.material i.kind = .error cause
      ∧ publishAll store items = .error (.entry i.set i.entry.number cause) := by
  -- the store changes with every item, and stays ready for the items to come
  induction items generalizing store with
  | nil =>
    refine .inl ⟨store, rfl, nofun, ?_⟩
    intro set v
    simp only [List.not_mem_nil, false_and, exists_false, or_false]
  | cons i rest ih =>
    cases hmaterial : i.entry.material i.kind with
    | error cause =>
      refine .inr ⟨i, List.mem_cons_self, cause, hmaterial, ?_⟩
      rw [publishAll, hmaterial]
    | ok material =>
      have hholds : i.entry.Holds i.kind material := VersionEntry.material_eq_ok_iff.mp hmaterial
      have hready := hawaited i List.mem_cons_self
      have hkind : material.kind = i.kind := hholds.kind_eq
      have hfits : ∀ v ∈ store.shown i.set, v.material.kind = material.kind := fun v hv =>
        (hready v hv).1.trans hkind.symm
      obtain ⟨p, mid, hpublish⟩ := KeyStore.exists_publishAs
        (hpositive i List.mem_cons_self) (fun v hv => (hready v hv).2) hfits
      have hstep : publishAll store (i :: rest) = publishAll mid rest := by
        rw [publishAll, hmaterial]
        simp only [hpublish]
      rw [hstep]
      rcases ih (fun j hj => hpositive j (List.mem_cons_of_mem _ hj))
          (List.pairwise_cons.mp hordered).2 (awaited_rest hordered hawaited hkind hpublish)
        with ⟨next, hnext, hall, hshown⟩ | ⟨j, hj, cause, hcause, hfault⟩
      · refine .inl ⟨next, hnext, List.forall_mem_cons.mpr ⟨⟨material, hholds⟩, hall⟩, ?_⟩
        intro set v
        rw [hshown, mem_shown_iff_of_publishAs hholds hpublish, or_assoc]
        simp only [List.mem_cons, or_and_right, exists_or, exists_eq_left]
      · exact .inr ⟨j, List.mem_cons_of_mem _ hj, cause, hcause, hfault⟩

end Item

/-! ### The entries of a document -/

/-- The entries of a set, in the order in which they are published. -/
def SetEntry.items (s : SetEntry) : List Item :=
  (Document.sorted s.versions).map fun e => ⟨s.name, s.kind, e⟩

namespace Document

variable {d : Document} {store next : KeyStore} {i : Item}

/-- The entries of a document, in the order in which they are published. -/
def items (d : Document) : List Item := d.sets.flatMap SetEntry.items

theorem mem_items : i ∈ d.items ↔ ∃ s ∈ d.sets, i.set = s.name ∧ i.kind = s.kind
    ∧ i.entry ∈ s.versions := by
  have hsorted : ∀ (s : SetEntry) e, e ∈ sorted s.versions ↔ e ∈ s.versions := fun s e =>
    (List.mergeSort_perm s.versions _).mem_iff
  simp only [items, SetEntry.items, List.mem_flatMap, List.mem_map, hsorted]
  constructor
  · rintro ⟨s, hs, e, he, rfl⟩
    exact ⟨s, hs, rfl, rfl, he⟩
  · rintro ⟨s, hs, hset, hkind, he⟩
    exact ⟨s, hs, i.entry, he, by rw [← hset, ← hkind]⟩

theorem publishVersions_eq (name : String) (kind : KeyKind) (versions : List VersionEntry) :
    (publishVersions name kind store versions).1
      = Item.publishAll store (versions.map fun e => ⟨name, kind, e⟩) := by
  induction versions generalizing store with
  | nil => rfl
  | cons e rest ih =>
    rw [publishVersions, List.map_cons, Item.publishAll]
    -- both stop at the same place, or go on from the same store
    cases hmaterial : e.material kind with
    | error cause => rfl
    | ok material =>
      dsimp only
      cases hpublish : store.publishAs name e.number material with
      | error cause =>
        have hrun : (Attempt.numbered name e.number material).run store = .error cause := hpublish
        rw [KeyStore.attempt_of_error hrun]
      | ok result =>
        have hrun : (Attempt.numbered name e.number material).run store = .ok result := hpublish
        rw [KeyStore.attempt_of_ok hrun]
        exact ih

/-- Publishing set after set is publishing entry after entry. -/
theorem publishSets_eq (sets : List SetEntry) :
    (publishSets store sets).1 = Item.publishAll store (sets.flatMap SetEntry.items) := by
  induction sets generalizing store with
  | nil => rfl
  | cons s rest ih =>
    have hfirst : (publishVersions s.name s.kind store (sorted s.versions)).1
        = Item.publishAll store s.items := publishVersions_eq s.name s.kind _
    rw [publishSets, List.flatMap_cons, Item.publishAll_append, ← hfirst]
    split
    · next fault events heq => rw [heq]; rfl
    · next mid events heq =>
      rw [heq]
      exact ih

/-- The entries of a document that passes the check come in an order in which they can be
    published. -/
theorem ordered_items (h : d.check = .ok ()) : Item.Ordered d.items := by
  obtain ⟨hchecked, hdistinct⟩ := check_eq_ok_iff.mp h
  refine List.pairwise_flatMap.mpr ⟨?_, ?_⟩
  · intro s hs
    have hascending := KeyStore.pairwise_mergeSort_of_nodup (hchecked s hs).distinct
    refine List.pairwise_map.mpr (hascending.imp ?_)
    intro e f hlt _
    exact ⟨rfl, hlt⟩
  · -- entries of different sets have different names
    refine (List.pairwise_map.mp hdistinct).imp ?_
    intro s t hne i hi j hj hsame
    obtain ⟨e, -, rfl⟩ := List.mem_map.mp hi
    obtain ⟨f, -, rfl⟩ := List.mem_map.mp hj
    exact absurd hsame hne

/-! ### Valid documents -/

/-- A document that says what a key store holds. -/
structure Valid (d : Document) : Prop where
  /-- Each set has a name that is not blank, and different numbers from one. -/
  checked : ∀ s ∈ d.sets, s.Checked
  /-- No name comes twice. -/
  distinct : (d.sets.map (·.name)).Nodup
  /-- Each entry holds a material of the kind of its set. -/
  held : ∀ s ∈ d.sets, ∀ e ∈ s.versions, ∃ material, e.Holds s.kind material

/-- A version that a document has in a set. -/
def Has (d : Document) (set : String) (v : KeyVersion) : Prop :=
  ∃ s ∈ d.sets, s.name = set ∧ ∃ e ∈ s.versions, e.number = v.number ∧ e.Holds s.kind v.material

theorem exists_gives_iff {set : String} {v : KeyVersion} :
    (∃ i ∈ d.items, i.Gives set v) ↔ d.Has set v := by
  constructor
  · rintro ⟨i, hi, hset, hnumber, hholds⟩
    obtain ⟨s, hs, hname, hkind, he⟩ := mem_items.mp hi
    exact ⟨s, hs, hname.symm.trans hset, i.entry, he, hnumber, hkind ▸ hholds⟩
  · rintro ⟨s, hs, hname, e, he, hnumber, hholds⟩
    exact ⟨⟨s.name, s.kind, e⟩, mem_items.mpr ⟨s, hs, rfl, rfl, he⟩, hname, hnumber, hholds⟩

/-- All that can come of publishing a document: it is valid and the store shows what it has,
    or it is not valid, and the fault is none of the store's. -/
theorem publish_cases (d : Document) :
    (∃ store, d.publish.1 = .ok store ∧ d.Valid ∧ ∀ set v, v ∈ store.shown set ↔ d.Has set v)
    ∨ ¬ d.Valid ∧ ∃ fault, d.publish.1 = .error fault ∧ ∀ cause, fault ≠ .publish cause := by
  cases hcheck : d.check with
  | error fault =>
    refine .inr ⟨?_, fault, by simp only [publish, hcheck], ?_⟩
    · intro hvalid
      rw [check_eq_ok_iff.mpr ⟨hvalid.checked, hvalid.distinct⟩] at hcheck
      cases hcheck
    · rintro cause rfl
      exact check_ne_publish cause hcheck
  | ok =>
    obtain ⟨hchecked, hdistinct⟩ := check_eq_ok_iff.mp hcheck
    have hpublish : d.publish.1 = Item.publishAll KeyStore.empty d.items := by
      rw [publish, hcheck]
      exact publishSets_eq d.sets
    have hpositive : ∀ i ∈ d.items, i.entry.number ≠ 0 := by
      intro i hi
      obtain ⟨s, hs, -, -, he⟩ := mem_items.mp hi
      exact (hchecked s hs).positive i.entry he
    -- the empty store is ready for anything
    have hawaited : Item.Awaited KeyStore.empty d.items := by
      intro i _ v hv
      cases hv
    rw [hpublish]
    rcases Item.publishAll_cases hpositive (ordered_items hcheck) hawaited
      with ⟨store, hstore, hall, hshown⟩ | ⟨i, hi, cause, hcause, hfault⟩
    · refine .inl ⟨store, hstore, ⟨hchecked, hdistinct, ?_⟩, ?_⟩
      · intro s hs e he
        exact hall ⟨s.name, s.kind, e⟩ (mem_items.mpr ⟨s, hs, rfl, rfl, he⟩)
      · intro set v
        have hnothing : v ∉ KeyStore.empty.shown set := List.not_mem_nil
        rw [hshown, exists_gives_iff, or_iff_right hnothing]
    · refine .inr ⟨?_, _, hfault, nofun⟩
      intro hvalid
      obtain ⟨s, hs, -, hkind, he⟩ := mem_items.mp hi
      obtain ⟨material, hholds⟩ := hvalid.held s hs i.entry he
      rw [hkind, VersionEntry.material_eq_ok_iff.mpr hholds] at hcause
      cases hcause

end Document

end KeyBroker
