import KeyBroker.Proofs.Store.Publishing

/-! # Which keys a store takes

  A key is published as the next version of a set, or under a number of the publisher's
  choice. Both ways ask two things of the store: that the number is above all that the set
  shows, and that the key is of the set's kind. A set that is not there shows nothing and
  has no kind. The invariants of every attempt:

  - one that succeeds adds one version to one set, and one line to the audit log;
  - one that fails leaves the store and the log as they are.

  From there follows, for a whole run, that the numbers taken for a set only grow, and that
  the log tells the history.
-/

namespace KeyBroker

/-- The event that an entry of the history leaves. -/
def Entry.told (e : Entry) : Event :=
  .published ⟨e.set, e.version.number, e.version.material.kind⟩

namespace KeyStore

/-! ### What is asked of a key -/

/-- The highest number of a set, zero for one that is not there. -/
def highest (store : KeyStore) (set : String) : UInt32 := (store.latest set).toOption.getD 0

/-- A set can have keys of a kind: it has that kind, or it is not there. -/
def Suits (store : KeyStore) (set : String) (kind : KeyKind) : Prop :=
  ∀ held, store.kind set = .ok held → held = kind

variable {store next : KeyStore} {set : String} {number : UInt32} {material : KeyMaterial}
  {p : Publication} {a : Attempt}

theorem latest_setOrNew (store : KeyStore) (set : String) (kind : KeyKind) :
    (store.setOrNew set kind).latest = store.highest set := by
  cases h : store.set? set with
  | none => simp only [setOrNew, highest, KeyStore.latest, find, h]; rfl
  | some s => simp only [setOrNew, highest, KeyStore.latest, find, h]; rfl

/-- A number is above the highest if it is not zero and above all that the set shows. -/
theorem highest_lt_iff :
    store.highest set < number ↔ number ≠ 0 ∧ ∀ v ∈ store.shown set, v.number < number := by
  -- the kind of a set that is made for the occasion does not matter
  let current := store.setOrNew set .symmetric
  have hlatest : current.latest = store.highest set := latest_setOrNew store set .symmetric
  have hversions : current.versions = store.shown set := shown_setOrNew store set .symmetric
  rw [← hlatest, ← hversions]
  constructor
  · intro habove
    refine ⟨?_, ?_⟩
    · exact UInt32.pos_iff_ne_zero.mp (UInt32.lt_of_le_of_lt UInt32.zero_le habove)
    · intro v hv
      exact UInt32.lt_of_le_of_lt (KeySet.le_latest hv) habove
  · rintro ⟨hpositive, habove⟩
    unfold KeySet.latest
    split
    · exact UInt32.pos_iff_ne_zero.mpr hpositive
    · next v rest hcurrent =>
      exact habove v (by rw [hcurrent]; exact List.mem_cons_self)

/-- A kind suits a set if all that the set shows is of that kind. -/
theorem suits_iff {kind : KeyKind} :
    store.Suits set kind ↔ ∀ v ∈ store.shown set, v.material.kind = kind := by
  constructor
  · intro hsuits v hv
    exact hsuits _ (kind_of_mem_shown hv)
  · intro huniform held hheld
    obtain ⟨hne, hall⟩ := kind_eq_ok_iff.mp hheld
    obtain ⟨v, hv⟩ := List.exists_mem_of_ne_nil _ hne
    rw [← hall v hv, huniform v hv]

/-! ### Which attempts succeed -/

/-- No version has number zero. -/
theorem number_ne_zero_of_mem_shown {v : KeyVersion} (hv : v ∈ store.shown set) :
    v.number ≠ 0 := by
  cases h : store.set? set with
  | none => rw [shown_of_none h] at hv; cases hv
  | some s =>
    rw [shown_of_some h] at hv
    exact s.positive v hv

/-- A number of the publisher's choice is taken if it is above the highest, for a key of a
    kind that suits the set. -/
theorem exists_publishAs_iff :
    (∃ p next, store.publishAs set number material = .ok (p, next))
      ↔ store.highest set < number ∧ store.Suits set material.kind := by
  rw [highest_lt_iff, suits_iff]
  constructor
  · rintro ⟨p, next, h⟩
    obtain ⟨habove, hset, -⟩ := of_publishAs h
    -- the new version stands with the old ones in one set, so it is positive and of their kind
    have hnew : ⟨number, material⟩ ∈ next.shown set := by
      rw [hset]
      exact List.mem_cons_self
    refine ⟨⟨number_ne_zero_of_mem_shown hnew, habove⟩, ?_⟩
    intro v hv
    have hold : v ∈ next.shown set := by
      rw [hset]
      exact List.mem_cons_of_mem _ hv
    exact Except.ok.inj ((kind_of_mem_shown hold).symm.trans (kind_of_mem_shown hnew))
  · rintro ⟨⟨hpositive, habove⟩, hkind⟩
    exact exists_publishAs hpositive habove hkind

/-- The next version is the one after the highest, as long as there is a number for it. -/
theorem publish_of_room (h : (store.highest set).toNat + 1 < UInt32.size) :
    store.publish set material = store.publishAs set (store.highest set + 1) material := by
  simp only [publish, latest_setOrNew, h, if_true]

theorem publish_of_full (h : ¬ (store.highest set).toNat + 1 < UInt32.size) :
    store.publish set material = .error (.exhausted set) := by
  simp only [publish, latest_setOrNew, h, if_false]

theorem toNat_highest_succ (h : (store.highest set).toNat + 1 < UInt32.size) :
    (store.highest set + 1).toNat = (store.highest set).toNat + 1 := by
  have hone : (1 : UInt32).toNat = 1 := rfl
  rw [UInt32.toNat_add, hone]
  exact Nat.mod_eq_of_lt h

/-- The next version is taken if there is a number for it and its kind suits the set. -/
theorem exists_publish_iff :
    (∃ p next, store.publish set material = .ok (p, next))
      ↔ (store.highest set).toNat < UInt32.size - 1 ∧ store.Suits set material.kind := by
  rw [Nat.lt_sub_iff_add_lt]
  by_cases hroom : (store.highest set).toNat + 1 < UInt32.size
  · have habove : store.highest set < store.highest set + 1 := by
      rw [UInt32.lt_iff_toNat_lt, toNat_highest_succ hroom]
      exact Nat.lt_succ_self _
    rw [publish_of_room hroom, exists_publishAs_iff]
    simp only [habove, hroom, true_and]
  · rw [publish_of_full hroom]
    constructor
    · rintro ⟨p, next, h⟩
      cases h
    · rintro ⟨h, -⟩
      exact absurd h hroom

/-! ### What an attempt leaves -/

/-- What attempts make happen, in order. -/
def log (store : KeyStore) : List Attempt → List Event
  | [] => []
  | a :: rest => store.happenings a ++ (store.step a).log rest

/-- A publication tells the set, the number and the kind of the key. -/
theorem eq_of_publishAs (h : store.publishAs set number material = .ok (p, next)) :
    p = ⟨set, number, material.kind⟩ := by
  unfold publishAs at h
  simp only at h
  split at h
  · cases h
  · next grown hgrown =>
    obtain ⟨rfl, -⟩ := Prod.mk.inj (Except.ok.inj h)
    obtain ⟨-, -, -, -, -, hkind⟩ := KeySet.of_publish hgrown
    rw [← hkind]

theorem eq_of_run (h : a.run store = .ok (p, next)) :
    p = ⟨a.set, p.number, a.material.kind⟩
      ∧ store.publishAs a.set p.number a.material = .ok (p, next) := by
  have hpublish : store.publishAs a.set p.number a.material = .ok (p, next) := by
    cases a with
    | next set material => exact publishAs_of_publish h
    | numbered set number material =>
      have hp : p = ⟨set, number, material.kind⟩ := eq_of_publishAs h
      rw [hp] at h ⊢
      exact h
  exact ⟨eq_of_publishAs hpublish, hpublish⟩

/-- What an attempt that succeeds makes of a store: its set has one version more, and
    everything else is as it was. -/
structure Grown (store : KeyStore) (a : Attempt) (number : UInt32) (next : KeyStore) : Prop where
  /-- The number is above all that the set showed, and not zero. -/
  above : store.highest a.set < number
  /-- The set is there with the new version and those that it had, -/
  added : ∃ s, next.set? a.set = some s ∧ s.kind = a.material.kind
    ∧ s.versions = ⟨number, a.material⟩ :: store.shown a.set
  /-- and every other set is the same, or still not there. -/
  others : ∀ set, set ≠ a.set → next.set? set = store.set? set
  /-- A number finds what it found before, or the new version. -/
  found : ∀ set n v, n ≠ 0 → (next.get set (.ofNumber n) = .ok v
    ↔ store.get set (.ofNumber n) = .ok v
      ∨ set = a.set ∧ n = number ∧ v = ⟨number, a.material⟩)
  /-- The new version is the latest. -/
  latest : next.latest a.set = .ok number
  /-- The names are those from before, and that of the set. -/
  named : ∀ set, set ∈ next.names ↔ set ∈ store.names ∨ set = a.set

/-- The sets that a publication does not name are the same afterwards. -/
theorem set?_of_publishAs (h : store.publishAs set number material = .ok (p, next))
    {other : String} (hother : other ≠ set) : next.set? other = store.set? other := by
  obtain ⟨-, -, hothers⟩ := of_publishAs h
  have hshown := hothers other hother
  cases hset : store.set? other with
  | none =>
    rw [shown_of_none hset] at hshown
    exact shown_eq_nil_iff.mp hshown
  | some s =>
    have hne := shown_ne_nil hset
    rw [← hshown] at hne
    obtain ⟨t, ht⟩ := Option.ne_none_iff_exists'.mp (mt shown_eq_nil_iff.mpr hne)
    rw [ht]
    rw [shown_of_some ht, shown_of_some hset] at hshown
    -- a set is what it shows
    have hname : t.name = s.name := (mem_of_set? ht).2.trans (mem_of_set? hset).2.symm
    have hversions : t.versions ≠ [] := next.inhabited t (mem_of_set? ht).1
    rw [KeySet.eq_of_versions hname hshown hversions]

theorem grown_of_run (h : a.run store = .ok (p, next)) : store.Grown a p.number next := by
  obtain ⟨-, hpublish⟩ := eq_of_run h
  obtain ⟨-, hset, hothers⟩ := of_publishAs hpublish
  obtain ⟨habove, -⟩ := exists_publishAs_iff.mp ⟨p, next, hpublish⟩
  have hnew : ⟨p.number, a.material⟩ ∈ next.shown a.set := by
    rw [hset]
    exact List.mem_cons_self
  have hhead : (next.shown a.set).head? = some ⟨p.number, a.material⟩ := by
    rw [hset]
    rfl
  refine ⟨habove, ?_, fun other => set?_of_publishAs hpublish, ?_, ?_, ?_⟩
  · obtain ⟨s, hs⟩ := Option.ne_none_iff_exists'.mp
      (mt shown_eq_nil_iff.mpr (List.ne_nil_of_mem hnew))
    have hversions : s.versions = ⟨p.number, a.material⟩ :: store.shown a.set := by
      rw [← hset, shown_of_some hs]
    refine ⟨s, hs, ?_, hversions⟩
    exact (s.uniform _ (by rw [hversions]; exact List.mem_cons_self)).symm
  · intro set n v hn
    rw [ofNumber_of_ne hn, get_exactly_eq_ok_iff, get_exactly_eq_ok_iff]
    by_cases hsame : set = a.set
    · subst hsame
      rw [hset, List.mem_cons]
      constructor
      · rintro ⟨rfl | hv, rfl⟩
        · exact .inr ⟨rfl, rfl, rfl⟩
        · exact .inl ⟨hv, rfl⟩
      · rintro (⟨hv, rfl⟩ | ⟨-, rfl, rfl⟩)
        · exact ⟨.inr hv, rfl⟩
        · exact ⟨.inl rfl, rfl⟩
    · rw [hothers set hsame]
      simp only [hsame, false_and, or_false]
  · exact latest_eq_ok_iff.mpr ⟨_, hhead, rfl⟩
  · intro set
    rw [mem_names_iff, mem_names_iff]
    by_cases hsame : set = a.set
    · subst hsame
      exact ⟨fun _ => .inr rfl, fun _ => List.ne_nil_of_mem hnew⟩
    · rw [hothers set hsame]
      simp only [hsame, or_false]

/-! ### Runs -/

/-- What comes into a set in a run is above all that the set showed before. -/
theorem lt_of_mem_history {attempts : List Attempt} {e : Entry}
    (he : e ∈ store.history attempts) : ∀ v ∈ store.shown e.set, v.number < e.version.number := by
  induction attempts generalizing store with
  | nil => cases he
  | cons a rest ih =>
    intro v hv
    cases hrun : a.run store with
    | error fault =>
      simp only [history, recorded, step_of_error hrun, hrun, List.nil_append] at he
      exact ih he v hv
    | ok result =>
      obtain ⟨p, next⟩ := result
      obtain ⟨habove, hset, hothers⟩ := of_publishAs (publishAs_of_run hrun)
      simp only [history, recorded, step_of_ok hrun, hrun, List.singleton_append, List.mem_cons]
        at he
      rcases he with rfl | he
      · exact habove v hv
      · -- the set still shows the version when the later attempts begin
        refine ih he v ?_
        by_cases hsame : e.set = (a.entry p).set
        · rw [hsame] at hv ⊢
          rw [hset]
          exact List.mem_cons_of_mem _ hv
        · rw [hothers e.set hsame]
          exact hv

/-- In every run the numbers that are taken for a set ascend. -/
theorem ascending_history (store : KeyStore) (attempts : List Attempt) :
    Ascending (store.history attempts) := by
  induction attempts generalizing store with
  | nil => exact List.Pairwise.nil
  | cons a rest ih =>
    have hrest := ih (store.step a)
    cases hrun : a.run store with
    | error fault =>
      simp only [history, recorded, step_of_error hrun, hrun, List.nil_append] at hrest ⊢
      exact hrest
    | ok result =>
      obtain ⟨p, next⟩ := result
      obtain ⟨-, hset, -⟩ := of_publishAs (publishAs_of_run hrun)
      simp only [history, recorded, step_of_ok hrun, hrun, List.singleton_append] at hrest ⊢
      refine List.pairwise_cons.mpr ⟨?_, hrest⟩
      intro e he hsame
      -- what was just taken is shown when the later attempts begin
      apply lt_of_mem_history he (a.entry p).version
      rw [← hsame, hset]
      exact List.mem_cons_self

theorem happenings_eq (store : KeyStore) (a : Attempt) :
    store.happenings a = (store.recorded a).map Entry.told := by
  cases hrun : a.run store with
  | error fault => simp only [happenings_of_error hrun, recorded, hrun, List.map_nil]
  | ok result =>
    obtain ⟨p, next⟩ := result
    have hp : p = ⟨a.set, p.number, a.material.kind⟩ := (eq_of_run hrun).1
    simp only [happenings_of_ok hrun, recorded, hrun, List.map_cons, List.map_nil]
    cases a with
    | next set material => rw [hp]; rfl
    | numbered set number material => rw [eq_of_publishAs hrun]; rfl

/-- The log of a run tells its history, one line for each entry. -/
theorem log_eq (store : KeyStore) (attempts : List Attempt) :
    store.log attempts = (store.history attempts).map Entry.told := by
  induction attempts generalizing store with
  | nil => rfl
  | cons a rest ih => rw [log, history, List.map_append, happenings_eq, ih]

/-! ### Exactly these -/

/-- A store takes exactly what is above. Under a number of the publisher's choice a key is
    taken if the number is above the highest of the set, and as the next version if there is
    a number left; in both cases the key must be of the set's kind, and a set that is not
    there has none. The next version has the number after the highest. Whatever is taken is
    one version more of its set and one line of the log, and what is not taken leaves the
    store as it is and no line. Over a whole run the numbers taken for a set ascend, so none
    comes twice, and the log tells what was taken. -/
theorem takes_exactly_what_is_above (store : KeyStore) (set : String) (material : KeyMaterial) :
    (∀ number, (∃ p next, store.publishAs set number material = .ok (p, next))
        ↔ store.highest set < number ∧ store.Suits set material.kind)
      ∧ (∀ number p next, store.publishAs set number material = .ok (p, next) →
          p.number = number)
      ∧ ((∃ p next, store.publish set material = .ok (p, next))
        ↔ (store.highest set).toNat < UInt32.size - 1 ∧ store.Suits set material.kind)
      ∧ (∀ p next, store.publish set material = .ok (p, next) →
          p.number.toNat = (store.highest set).toNat + 1)
      ∧ (∀ (a : Attempt) p next, a.run store = .ok (p, next) →
          store.step a = next ∧ store.Grown a p.number next
            ∧ records (store.happenings a)
                = [⟨.info, "custody::audit",
                    s!"published {a.set} v{p.number.toNat} ({a.material.kind.name})"⟩])
      ∧ (∀ (a : Attempt) fault, a.run store = .error fault →
          store.step a = store ∧ store.happenings a = [])
      ∧ ∀ attempts, Ascending (store.history attempts)
        ∧ store.log attempts = (store.history attempts).map Entry.told := by
  refine ⟨fun _ => exists_publishAs_iff, ?_, exists_publish_iff, ?_, ?_, ?_, ?_⟩
  · intro number p next h
    rw [eq_of_publishAs h]
  · intro p next h
    by_cases hroom : (store.highest set).toNat + 1 < UInt32.size
    · rw [publish_of_room hroom] at h
      rw [eq_of_publishAs h, toNat_highest_succ hroom]
    · rw [publish_of_full hroom] at h
      cases h
  · intro a p next hrun
    have hp := (eq_of_run hrun).1
    refine ⟨step_of_ok hrun, grown_of_run hrun, ?_⟩
    rw [happenings_of_ok hrun, hp]
    rfl
  · intro a fault hrun
    exact ⟨step_of_error hrun, happenings_of_error hrun⟩
  · intro attempts
    exact ⟨store.ascending_history attempts, store.log_eq attempts⟩

/-- A set that holds the last number there is: nothing more is taken for it, and a number
    zero does not bring another set about. As its next version that set gets number one. -/
theorem takes_exactly_what_is_above_up_to_the_last :
    let store := empty.after [.next "a" (.secret [1]), .numbered "a" 4294967295 (.secret [2])]
    store.highest "a" = 4294967295
      ∧ (¬ ∃ p next, store.publish "a" (.secret [3]) = .ok (p, next))
      ∧ (store.step (.next "a" (.secret [3])) = store
        ∧ store.happenings (.next "a" (.secret [3])) = [])
      ∧ (store.step (.numbered "b" 0 (.secret [3]))).names = ["a"]
      ∧ (store.step (.next "b" (.secret [3]))).latest "b" = .ok 1
      ∧ records (store.happenings (.next "b" (.secret [3])))
          = [⟨.info, "custody::audit", "published b v1 (symmetric)"⟩] := by
  intro store
  have hlast : store.highest "a" = 4294967295 := by decide +kernel
  obtain ⟨-, -, hnext, -, -, hfails, -⟩ := takes_exactly_what_is_above store "a" (.secret [3])
  obtain ⟨hnumbered, -, hfirst, hsucc, htaken, hrefused, -⟩ :=
    takes_exactly_what_is_above store "b" (.secret [3])
  have hnone : ∀ kind, store.Suits "b" kind := by
    intro kind
    have hshown : store.shown "b" = [] := by decide +kernel
    rw [suits_iff, hshown]
    intro v hv
    exact absurd hv List.not_mem_nil
  have hfull : ¬ ∃ p next, store.publish "a" (.secret [3]) = .ok (p, next) := by
    rw [hnext, hlast]
    rintro ⟨hroom, -⟩
    exact absurd hroom (by decide)
  refine ⟨hlast, hfull, ?_, ?_, ?_⟩
  · cases hrun : (Attempt.next "a" (.secret [3])).run store with
    | error fault => exact hfails _ fault hrun
    | ok result => exact absurd ⟨result.1, result.2, hrun⟩ hfull
  · -- zero is above nothing
    cases hrun : (Attempt.numbered "b" 0 (.secret [3])).run store with
    | error fault =>
      rw [(hrefused _ fault hrun).1]
      decide +kernel
    | ok result =>
      have habove := ((hnumbered 0).mp ⟨result.1, result.2, hrun⟩).1
      exact absurd habove (UInt32.not_lt.mpr UInt32.zero_le)
  · have hroom : (store.highest "b").toNat = 0 := by decide +kernel
    obtain ⟨p, next, hrun⟩ := hfirst.mpr ⟨by rw [hroom]; decide, hnone _⟩
    have hone : p.number.toNat = 1 := by rw [hsucc p next hrun, hroom]
    obtain ⟨hstep, hgrown, hline⟩ := htaken (.next "b" (.secret [3])) p next hrun
    refine ⟨?_, ?_⟩
    · have hlatest : next.latest "b" = .ok p.number := hgrown.latest
      rw [hstep, hlatest]
      exact congrArg _ (UInt32.toNat_inj.mp hone)
    · rw [hline, hone]
      rfl

end KeyStore

end KeyBroker
