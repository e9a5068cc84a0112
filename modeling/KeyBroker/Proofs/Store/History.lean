import KeyBroker.Store.Attempt

/-! # A key store and its history

  Keys are published one after the other, under the next number of a set or under one of
  the publisher's choice, and what succeeds makes the history of the store. The invariants
  of every run:

  - a set shows the versions that were published to it, the latest first, and no others;
  - no number was published twice to one set.

  From there follows what each way to look at the store gives, and that whatever a set
  once showed it shows for ever.
-/

namespace KeyBroker

/-! ### Publishing -/

/-- A version that came into a set. -/
structure Entry where
  /-- The set. -/
  set : String
  /-- Its new version. -/
  version : KeyVersion
  deriving DecidableEq

namespace Attempt

/-- The set that an attempt is for. -/
def set : Attempt → String
  | next set _ | numbered set _ _ => set

/-- The key. -/
def material : Attempt → KeyMaterial
  | next _ material | numbered _ _ material => material

/-- What an attempt that succeeds puts on record. The next number is the one reported. -/
def entry : Attempt → Publication → Entry
  | next set material, p => ⟨set, p.number, material⟩
  | numbered set number material, _ => ⟨set, number, material⟩

end Attempt

namespace KeyStore

/-- What an attempt puts on record, if it succeeds. -/
def recorded (store : KeyStore) (a : Attempt) : List Entry :=
  match a.run store with
  | .ok (p, _) => [a.entry p]
  | .error _ => []

/-- The store after attempts. -/
def after (store : KeyStore) : List Attempt → KeyStore
  | [] => store
  | a :: rest => (store.step a).after rest

/-- The history that attempts make, the earliest first. -/
def history (store : KeyStore) : List Attempt → List Entry
  | [] => []
  | a :: rest => store.recorded a ++ (store.step a).history rest

theorem after_append (store : KeyStore) (attempts more : List Attempt) :
    store.after (attempts ++ more) = (store.after attempts).after more := by
  induction attempts generalizing store with
  | nil => rfl
  | cons a rest ih => exact ih (store.step a)

/-! ### What a store shows -/

/-- The versions that a store shows of a set, the latest first. -/
def shown (store : KeyStore) (set : String) : List KeyVersion :=
  match store.set? set with
  | some s => s.versions
  | none => []

variable {store next : KeyStore} {set : String}

theorem shown_of_some {s : KeySet} (h : store.set? set = some s) :
    store.shown set = s.versions := by
  simp only [shown, h]

theorem shown_of_none (h : store.set? set = none) : store.shown set = [] := by
  simp only [shown, h]

theorem mem_of_set? {s : KeySet} (h : store.set? set = some s) :
    s ∈ store.sets ∧ s.name = set := by
  refine ⟨List.mem_of_find?_eq_some h, ?_⟩
  have hname := List.find?_some h
  exact eq_of_beq hname

/-- A set that is there has a version. -/
theorem shown_ne_nil {s : KeySet} (h : store.set? set = some s) : store.shown set ≠ [] := by
  rw [shown_of_some h]
  exact store.inhabited s (mem_of_set? h).1

theorem shown_eq_nil_iff : store.shown set = [] ↔ store.set? set = none := by
  constructor
  · intro h
    cases hset : store.set? set with
    | none => rfl
    | some s => exact absurd h (shown_ne_nil hset)
  · exact shown_of_none

/-- The versions shown of a set have different numbers, falling from the latest. -/
theorem shown_descending (store : KeyStore) (set : String) :
    (store.shown set).Pairwise fun later earlier => earlier.number < later.number := by
  cases h : store.set? set with
  | none => rw [shown_of_none h]; exact List.Pairwise.nil
  | some s => rw [shown_of_some h]; exact s.descending

/-- Among falling numbers, a number finds its version. -/
theorem find?_of_mem {versions : List KeyVersion} {v : KeyVersion}
    (h : versions.Pairwise fun later earlier => earlier.number < later.number)
    (hv : v ∈ versions) : versions.find? (·.number == v.number) = some v := by
  induction versions with
  | nil => cases hv
  | cons w rest ih =>
    obtain ⟨hfirst, hrest⟩ := List.pairwise_cons.mp h
    rcases List.mem_cons.mp hv with rfl | hv
    · rw [List.find?_cons_of_pos (by exact beq_self_eq_true _)]
    · -- the version found first has a greater number
      have hne : ¬ (w.number == v.number) = true := by
        intro heq
        have hlt := hfirst v hv
        rw [eq_of_beq heq] at hlt
        exact UInt32.lt_irrefl _ hlt
      rw [List.find?_cons_of_neg (by exact hne)]
      exact ih hrest hv

/-! ### Looking keys up -/

/-- A key is found where its set is there and has the version that is meant. -/
theorem get_eq_ok_iff {selector : Selector} {v : KeyVersion} :
    store.get set selector = .ok v ↔ ∃ s, store.set? set = some s ∧ s.get? selector = some v := by
  cases h : store.set? set with
  | none => simp [get, find, h, bind, Except.bind]
  | some s =>
    cases hv : s.get? selector with
    | none => simp [get, find, h, hv, bind, Except.bind]
    | some w => simp [get, find, h, hv, bind, Except.bind]

/-- A number finds the version that is shown under it. -/
theorem get_exactly_eq_ok_iff {number : UInt32} {v : KeyVersion} :
    store.get set (.exactly number) = .ok v ↔ v ∈ store.shown set ∧ v.number = number := by
  rw [get_eq_ok_iff]
  constructor
  · rintro ⟨s, hs, hv⟩
    rw [shown_of_some hs]
    have hnumber := List.find?_some hv
    exact ⟨List.mem_of_find?_eq_some hv, eq_of_beq hnumber⟩
  · rintro ⟨hv, rfl⟩
    cases hs : store.set? set with
    | none => rw [shown_of_none hs] at hv; cases hv
    | some s =>
      rw [shown_of_some hs] at hv
      exact ⟨s, rfl, find?_of_mem s.descending hv⟩

/-- Without a number the first version that is shown is found. -/
theorem get_latest_eq_ok_iff {v : KeyVersion} :
    store.get set .latest = .ok v ↔ (store.shown set).head? = some v := by
  rw [get_eq_ok_iff]
  constructor
  · rintro ⟨s, hs, hv⟩
    rw [shown_of_some hs]
    exact hv
  · intro hv
    cases hs : store.set? set with
    | none => rw [shown_of_none hs] at hv; cases hv
    | some s =>
      rw [shown_of_some hs] at hv
      exact ⟨s, rfl, hv⟩

/-- The highest number is that of the first version that is shown. -/
theorem latest_eq_ok_iff {number : UInt32} :
    store.latest set = .ok number ↔ ∃ v, (store.shown set).head? = some v ∧ v.number = number := by
  cases h : store.set? set with
  | none =>
    rw [shown_of_none h]
    simp [latest, find, h, Except.map]
  | some s =>
    have hne := shown_ne_nil h
    rw [shown_of_some h] at hne ⊢
    cases hversions : s.versions with
    | nil => exact absurd hversions hne
    | cons v rest => simp [latest, find, h, Except.map, KeySet.latest, hversions]

/-- Every version that is shown has the kind. -/
theorem kind_of_mem_shown {v : KeyVersion} (hv : v ∈ store.shown set) :
    store.kind set = .ok v.material.kind := by
  cases h : store.set? set with
  | none => rw [shown_of_none h] at hv; cases hv
  | some s =>
    rw [shown_of_some h] at hv
    rw [s.uniform v hv]
    simp only [KeyStore.kind, find, h, Except.map]

/-- The kind is that of every version that is shown, where one is. -/
theorem kind_eq_ok_iff {kind : KeyKind} :
    store.kind set = .ok kind
      ↔ store.shown set ≠ [] ∧ ∀ v ∈ store.shown set, v.material.kind = kind := by
  constructor
  · intro h
    have hne : store.shown set ≠ [] := by
      intro hnone
      simp [KeyStore.kind, find, shown_eq_nil_iff.mp hnone, Except.map] at h
    refine ⟨hne, ?_⟩
    intro v hv
    rw [kind_of_mem_shown hv] at h
    exact Except.ok.inj h
  · rintro ⟨hne, huniform⟩
    obtain ⟨v, hv⟩ := List.exists_mem_of_ne_nil _ hne
    rw [kind_of_mem_shown hv, huniform v hv]

/-- The names are those of the sets that show something. -/
theorem mem_names_iff : set ∈ store.names ↔ store.shown set ≠ [] := by
  rw [Ne, shown_eq_nil_iff, KeyStore.set?, lookup, List.find?_eq_none]
  simp [names]

/-! ### What publishing does -/

theorem shown_setOrNew (store : KeyStore) (set : String) (kind : KeyKind) :
    (store.setOrNew set kind).versions = store.shown set := by
  cases h : store.set? set with
  | none =>
    rw [shown_of_none h]
    simp only [setOrNew, h]
    rfl
  | some s =>
    rw [shown_of_some h]
    simp only [setOrNew, h]
    rfl

/-- A set that is there, or is made, has the name that was asked for. -/
theorem name_setOrNew (store : KeyStore) (set : String) (kind : KeyKind) :
    (store.setOrNew set kind).name = set := by
  cases h : store.set? set with
  | none => simp only [setOrNew, h]; rfl
  | some s =>
    simp only [setOrNew, h]
    exact (mem_of_set? h).2

/-- What a publication under a number leaves: the set shows one version more, above all that
    it showed, and every other set shows what it showed. -/
theorem of_publishAs {number : UInt32} {material : KeyMaterial} {p : Publication}
    (h : store.publishAs set number material = .ok (p, next)) :
    (∀ v ∈ store.shown set, v.number < number)
      ∧ next.shown set = ⟨number, material⟩ :: store.shown set
      ∧ ∀ other, other ≠ set → next.shown other = store.shown other := by
  unfold publishAs at h
  simp only at h
  split at h
  · cases h
  · next grown hgrown =>
    obtain ⟨-, rfl⟩ := Prod.mk.inj (Except.ok.inj h)
    obtain ⟨hname, -, hversions, -, habove, -⟩ := KeySet.of_publish hgrown
    rw [shown_setOrNew] at hversions
    rw [name_setOrNew] at hname
    have hset : ∀ other, lookup other (place grown store.sets)
        = if grown.name = other then some grown else lookup other store.sets :=
      fun other => lookup_place grown other store.ascending
    refine ⟨?_, ?_, ?_⟩
    · intro v hv
      rw [← shown_setOrNew store set material.kind] at hv
      exact UInt32.lt_of_le_of_lt (KeySet.le_latest hv) habove
    · have hfound := hset set
      rw [if_pos hname] at hfound
      rw [← hversions]
      exact shown_of_some hfound
    · intro other hother
      have hfound := hset other
      rw [if_neg (by rw [hname]; exact hother.symm)] at hfound
      simp only [shown, KeyStore.set?, hfound]

/-- To publish the next version is to publish it under the number that is reported. -/
theorem publishAs_of_publish {material : KeyMaterial} {p : Publication}
    (h : store.publish set material = .ok (p, next)) :
    store.publishAs set p.number material = .ok (p, next) := by
  unfold publish at h
  simp only at h
  split at h
  · have hnumber : p.number = (store.setOrNew set material.kind).latest + 1 := by
      have hcopy := h
      unfold publishAs at hcopy
      simp only at hcopy
      split at hcopy
      · cases hcopy
      · obtain ⟨rfl, -⟩ := Prod.mk.inj (Except.ok.inj hcopy)
        rfl
    rw [hnumber]
    exact h
  · cases h

/-- An attempt that succeeds is a publication of what it puts on record. -/
theorem publishAs_of_run {a : Attempt} {p : Publication} (h : a.run store = .ok (p, next)) :
    store.publishAs (a.entry p).set (a.entry p).version.number (a.entry p).version.material
      = .ok (p, next) := by
  cases a with
  | next set material => exact publishAs_of_publish h
  | numbered set number material => exact h

/-! ### The invariant of the history -/

/-- The versions of a set in a history, the latest first. -/
def versionsIn (history : List Entry) (set : String) : List KeyVersion :=
  ((history.filter (·.set = set)).map (·.version)).reverse

theorem mem_versionsIn {history : List Entry} {v : KeyVersion} :
    v ∈ versionsIn history set ↔ ⟨set, v⟩ ∈ history := by
  simp only [versionsIn, List.mem_reverse, List.mem_map, List.mem_filter, decide_eq_true_eq]
  constructor
  · rintro ⟨e, ⟨he, rfl⟩, rfl⟩
    exact he
  · intro h
    exact ⟨⟨set, v⟩, ⟨h, rfl⟩, rfl⟩

theorem versionsIn_append (history more : List Entry) (set : String) :
    versionsIn (history ++ more) set = versionsIn more set ++ versionsIn history set := by
  simp [versionsIn]

/-- A store has a history: its sets show what was published to them, and no number was
    published twice to one set. -/
structure Has (store : KeyStore) (history : List Entry) : Prop where
  /-- Each set shows its versions in the history. -/
  shows : ∀ set, store.shown set = versionsIn history set
  /-- Different entries for one set have different numbers. -/
  once : history.Pairwise fun earlier later =>
    earlier.set = later.set → earlier.version.number ≠ later.version.number

theorem has_empty : Has empty [] := ⟨fun _ => rfl, List.Pairwise.nil⟩

/-- One more publication is one more entry. -/
theorem has_publishAs {history : List Entry} {e : Entry} {p : Publication} (h : Has store history)
    (hpublish : store.publishAs e.set e.version.number e.version.material = .ok (p, next)) :
    Has next (history ++ [e]) := by
  obtain ⟨habove, hset, hother⟩ := of_publishAs hpublish
  refine ⟨?_, ?_⟩
  · intro set
    by_cases hsame : e.set = set
    · subst hsame
      rw [hset, h.shows, versionsIn_append]
      simp [versionsIn]
    · rw [hother set (Ne.symm hsame), h.shows, versionsIn_append]
      simp [versionsIn, hsame]
  · refine List.pairwise_append.mpr ⟨h.once, List.pairwise_singleton _ _, ?_⟩
    intro earlier hearlier later hlater hsame
    obtain rfl := List.mem_singleton.mp hlater
    -- every earlier version of the set is shown, and the new number is above it
    have hshown : earlier.version ∈ store.shown later.set := by
      rw [h.shows, ← hsame]
      exact mem_versionsIn.mpr hearlier
    intro hnumber
    have hlt := habove _ hshown
    rw [hnumber] at hlt
    exact UInt32.lt_irrefl _ hlt

theorem has_step {history : List Entry} (a : Attempt) (h : Has store history) :
    Has (store.step a) (history ++ store.recorded a) := by
  cases hrun : a.run store with
  | error fault =>
    simp only [step_of_error hrun, recorded, hrun, List.append_nil]
    exact h
  | ok result =>
    obtain ⟨p, next⟩ := result
    simp only [step_of_ok hrun, recorded, hrun]
    exact has_publishAs h (publishAs_of_run hrun)

theorem has_after {history : List Entry} (attempts : List Attempt) (h : Has store history) :
    Has (store.after attempts) (history ++ store.history attempts) := by
  induction attempts generalizing store history with
  | nil =>
    rw [KeyStore.history, List.append_nil]
    exact h
  | cons a rest ih =>
    -- the history so far grows by what this attempt records
    rw [after, KeyStore.history, ← List.append_assoc]
    exact ih (has_step a h)

/-! ### What looking tells -/

/-- A result is a failure just if it is no success. -/
theorem exists_error_iff {ε α : Type} {x : Except ε α} :
    (∃ e, x = .error e) ↔ ∀ a, x ≠ .ok a := by
  cases x with
  | error e => simp
  | ok a => simp

theorem ofNumber_of_ne {number : UInt32} (h : number ≠ 0) :
    Selector.ofNumber number = .exactly number := if_neg h

/-- What the ways to look at a store tell of its history. -/
structure Tells (store : KeyStore) (history : List Entry) : Prop where
  /-- A number finds the version that was published to the set under it. -/
  found : ∀ set number v, number ≠ 0 →
    (store.get set (.ofNumber number) = .ok v ↔ ⟨set, v⟩ ∈ history ∧ v.number = number)
  /-- There is one such publication at most. -/
  once : history.Pairwise fun earlier later =>
    earlier.set = later.set → earlier.version.number ≠ later.version.number
  /-- Nothing is found just if there is none. -/
  missing : ∀ set number, number ≠ 0 →
    ((∃ fault, store.get set (.ofNumber number) = .error fault)
      ↔ ∀ v, ⟨set, v⟩ ∈ history → v.number ≠ number)
  /-- Zero finds what the highest number finds. -/
  latest : ∀ set, store.get set (.ofNumber 0)
    = (store.latest set).bind fun number => store.get set (.ofNumber number)
  /-- The highest number is the greatest that was published to the set. -/
  greatest : ∀ set number, store.latest set = .ok number
    ↔ (∃ v, ⟨set, v⟩ ∈ history ∧ v.number = number)
      ∧ ∀ v, ⟨set, v⟩ ∈ history → v.number ≤ number
  /-- Zero finds nothing just if nothing was published to the set. -/
  unknown : ∀ set, (∃ fault, store.get set (.ofNumber 0) = .error fault)
    ↔ ∀ v, ⟨set, v⟩ ∉ history
  /-- The kind of a set is the kind of all that was published to it. -/
  kinds : ∀ set kind, store.kind set = .ok kind
    ↔ (∃ v, ⟨set, v⟩ ∈ history) ∧ ∀ v, ⟨set, v⟩ ∈ history → v.material.kind = kind
  /-- Names ascend, -/
  ascending : store.names.Pairwise (· < ·)
  /-- they are those of the sets to which something was published, -/
  named : ∀ set, set ∈ store.names ↔ ∃ v, ⟨set, v⟩ ∈ history
  /-- and there are as many as sets. -/
  counted : store.size = store.names.length
  /-- No set is empty, and no version has number zero. -/
  whole : ∀ s ∈ store.sets, s.versions ≠ [] ∧ ∀ v ∈ s.versions, v.number ≠ 0

/-- The first of falling numbers is the greatest. -/
theorem head?_shown_iff {number : UInt32} :
    (∃ v, (store.shown set).head? = some v ∧ v.number = number)
      ↔ (∃ v ∈ store.shown set, v.number = number)
        ∧ ∀ v ∈ store.shown set, v.number ≤ number := by
  have hfalling := store.shown_descending set
  cases hshown : store.shown set with
  | nil => simp
  | cons w rest =>
    rw [hshown] at hfalling
    obtain ⟨hfirst, -⟩ := List.pairwise_cons.mp hfalling
    have hgreatest : ∀ v ∈ w :: rest, v.number ≤ w.number := by
      intro v hv
      rcases List.mem_cons.mp hv with rfl | hv
      · exact UInt32.le_refl _
      · exact UInt32.le_of_lt (hfirst v hv)
    constructor
    · rintro ⟨_, ⟨⟩, rfl⟩
      exact ⟨⟨w, List.mem_cons_self, rfl⟩, hgreatest⟩
    · rintro ⟨⟨v, hv, rfl⟩, hle⟩
      exact ⟨w, rfl, UInt32.le_antisymm (hle w List.mem_cons_self) (hgreatest v hv)⟩

/-- Zero finds what the highest number finds. -/
theorem get_zero (store : KeyStore) (set : String) :
    store.get set (.ofNumber 0)
      = (store.latest set).bind fun number => store.get set (.ofNumber number) := by
  cases h : store.set? set with
  | none => simp [get, KeyStore.latest, find, h, bind, Except.bind, Except.map]
  | some s =>
    have hne := shown_ne_nil h
    obtain ⟨v, hv⟩ := Option.ne_none_iff_exists'.mp (mt List.head?_eq_none_iff.mp hne)
    have hmem : v ∈ store.shown set := List.mem_of_mem_head? hv
    have hzero : store.get set (.ofNumber 0) = .ok v := get_latest_eq_ok_iff.mpr hv
    have hlatest : store.latest set = .ok v.number := latest_eq_ok_iff.mpr ⟨v, hv, rfl⟩
    -- the number of a version is not zero, so it means that version
    have hpositive : v.number ≠ 0 := by
      rw [shown_of_some h] at hmem
      exact s.positive v hmem
    have hexact : store.get set (.ofNumber v.number) = .ok v := by
      rw [ofNumber_of_ne hpositive]
      exact get_exactly_eq_ok_iff.mpr ⟨hmem, rfl⟩
    rw [hzero, hlatest]
    exact hexact.symm

/-- A store tells the history that it has. -/
theorem tells_of_has {history : List Entry} (h : Has store history) : Tells store history := by
  have hmem : ∀ {set v}, v ∈ store.shown set ↔ ⟨set, v⟩ ∈ history := by
    intro set v
    rw [h.shows]
    exact mem_versionsIn
  have hsome : ∀ {set}, store.shown set ≠ [] ↔ ∃ v, ⟨set, v⟩ ∈ history := by
    intro set
    constructor
    · intro hne
      obtain ⟨v, hv⟩ := List.exists_mem_of_ne_nil _ hne
      exact ⟨v, hmem.mp hv⟩
    · rintro ⟨v, hv⟩
      exact List.ne_nil_of_mem (hmem.mpr hv)
  have hfound : ∀ set number v, number ≠ 0 →
      (store.get set (.ofNumber number) = .ok v ↔ ⟨set, v⟩ ∈ history ∧ v.number = number) := by
    intro set number v hnumber
    rw [ofNumber_of_ne hnumber, get_exactly_eq_ok_iff, hmem]
  refine
    { found := hfound
      once := h.once
      missing := ?missing
      latest := store.get_zero
      greatest := ?greatest
      unknown := ?unknown
      kinds := ?kinds
      ascending := List.pairwise_map.mpr store.ascending
      named := ?named
      counted := by rw [size, names, List.length_map]
      whole := fun s hs => ⟨store.inhabited s hs, s.positive⟩ }
  case missing =>
    intro set number hnumber
    rw [exists_error_iff]
    constructor
    · intro hnone v hv heq
      exact hnone v ((hfound set number v hnumber).mpr ⟨hv, heq⟩)
    · intro hnone v hv
      obtain ⟨hv, heq⟩ := (hfound set number v hnumber).mp hv
      exact hnone v hv heq
  case greatest =>
    intro set number
    rw [latest_eq_ok_iff, head?_shown_iff]
    simp only [hmem]
  case unknown =>
    intro set
    rw [exists_error_iff]
    constructor
    · intro hnone v hv
      -- a set that shows something has a first version, and that would be found
      have hne : store.shown set ≠ [] := hsome.mpr ⟨v, hv⟩
      obtain ⟨w, hw⟩ := Option.ne_none_iff_exists'.mp (mt List.head?_eq_none_iff.mp hne)
      exact hnone w (get_latest_eq_ok_iff.mpr hw)
    · intro hnone v hv
      have hshown : v ∈ store.shown set := List.mem_of_mem_head? (get_latest_eq_ok_iff.mp hv)
      exact hnone v (hmem.mp hshown)
  case kinds =>
    intro set kind
    rw [kind_eq_ok_iff, hsome]
    simp only [hmem]
  case named =>
    intro set
    rw [mem_names_iff, hsome]

/-- A store is the history of its successful publications. Whatever was attempted, what the
    store shows is what was published, as `Tells` says; and whatever is attempted next, a
    set keeps its kind, and a set that was held before shows in the store all that it
    showed, below what was added to it since. -/
theorem tells_its_history (attempts more : List Attempt) :
    let store := empty.after attempts
    let later := empty.after (attempts ++ more)
    Tells store (empty.history attempts)
    ∧ (∀ set kind, store.kind set = .ok kind → later.kind set = .ok kind)
    ∧ ∀ set held, store.set? set = some held →
      ∃ now added, later.set? set = some now ∧ now.versions = added ++ held.versions
        ∧ ∀ v ∈ held.versions, held.get? (.exactly v.number) = some v
          ∧ later.get set (.exactly v.number) = .ok v := by
  intro store later
  have hstore : Has store (empty.history attempts) := has_after attempts has_empty
  have hlater : Has later (empty.history attempts ++ store.history more) := by
    show Has (empty.after (attempts ++ more)) _
    rw [after_append]
    exact has_after more hstore
  -- a set shows now what it showed, below what was added
  have hshown : ∀ set, later.shown set
      = versionsIn (store.history more) set ++ store.shown set := by
    intro set
    rw [hlater.shows, hstore.shows, versionsIn_append]
  refine ⟨tells_of_has hstore, ?_, ?_⟩
  · intro set kind h
    obtain ⟨hne, hall⟩ := kind_eq_ok_iff.mp h
    -- one version that stays fixes the kind
    obtain ⟨v, hv⟩ := List.exists_mem_of_ne_nil _ hne
    have hstays : v ∈ later.shown set := by
      rw [hshown]
      exact List.mem_append_right _ hv
    rw [kind_of_mem_shown hstays, hall v hv]
  · intro set held h
    have hheld := shown_of_some h
    cases hnow : later.set? set with
    | none =>
      have hnone := hshown set
      rw [shown_of_none hnow, hheld] at hnone
      have hempty : held.versions = [] := (List.append_eq_nil_iff.mp hnone.symm).2
      exact absurd hempty (store.inhabited held (mem_of_set? h).1)
    | some now =>
      refine ⟨now, versionsIn (store.history more) set, rfl, ?_, ?_⟩
      · rw [← shown_of_some hnow, hshown, hheld]
      · intro v hv
        refine ⟨find?_of_mem held.descending hv, get_exactly_eq_ok_iff.mpr ⟨?_, rfl⟩⟩
        rw [hshown, hheld]
        exact List.mem_append_right _ hv

/-- A set with a gap, another set, and three attempts that fail: the history has three
    entries, and by it the sixth version is found and is the latest, the third is missing,
    and what the set showed after two attempts it still shows. -/
theorem tells_its_history_after_gaps :
    let attempts := [.next "a" (.secret [1]), .numbered "a" 0 (.secret [2])]
    let more := [.numbered "a" 6 (.secret [6]), .numbered "a" 3 (.secret [3]),
      .next "b" (.secret [1]), .numbered "b" 1 (.secret [7])]
    let store := empty.after (attempts ++ more)
    empty.history (attempts ++ more)
        = [⟨"a", 1, .secret [1]⟩, ⟨"a", 6, .secret [6]⟩, ⟨"b", 1, .secret [1]⟩]
      ∧ store.get "a" (.ofNumber 6) = .ok ⟨6, .secret [6]⟩
      ∧ (∃ fault, store.get "a" (.ofNumber 3) = .error fault)
      ∧ store.latest "a" = .ok 6
      ∧ ∃ now added, store.set? "a" = some now
          ∧ now.versions = added ++ [⟨1, .secret [1]⟩] := by
  intro attempts more store
  have hhistory : empty.history (attempts ++ more)
      = [⟨"a", 1, .secret [1]⟩, ⟨"a", 6, .secret [6]⟩, ⟨"b", 1, .secret [1]⟩] := by
    decide +kernel
  obtain ⟨htells, -, -⟩ := tells_its_history (attempts ++ more) []
  obtain ⟨-, -, hsnapshot⟩ := tells_its_history attempts more
  rw [hhistory] at htells
  refine ⟨hhistory, ?_, ?_, ?_, ?_⟩
  · exact (htells.found "a" 6 _ (by decide)).mpr (by decide)
  · refine (htells.missing "a" 3 (by decide)).mpr ?_
    intro v hv hnumber
    simp only [List.mem_cons, List.not_mem_nil, Entry.mk.injEq] at hv
    rcases hv with ⟨-, rfl⟩ | ⟨-, rfl⟩ | ⟨-, rfl⟩ | hv
    all_goals first | exact absurd hnumber (by decide) | exact hv.elim
  · refine (htells.greatest "a" 6).mpr ⟨⟨⟨6, .secret [6]⟩, by decide⟩, ?_⟩
    intro v hv
    simp only [List.mem_cons, List.not_mem_nil, Entry.mk.injEq] at hv
    rcases hv with ⟨-, rfl⟩ | ⟨-, rfl⟩ | ⟨-, rfl⟩ | hv
    all_goals first | decide | exact hv.elim
  · cases hheld : (empty.after attempts).set? "a" with
    | none => exact absurd hheld (by decide +kernel)
    | some held =>
      obtain ⟨now, added, hnow, hversions, -⟩ := hsnapshot "a" held hheld
      refine ⟨now, added, hnow, ?_⟩
      have hone : (empty.after attempts).shown "a" = [⟨1, .secret [1]⟩] := by decide +kernel
      rw [hversions, ← shown_of_some hheld, hone]

end KeyStore

end KeyBroker
