import KeyBroker.Proofs.Text.Base64
import KeyBroker.Store.Document

/-! # What is asked of a document

  A document is looked at in two rounds. The check compares names and numbers, and passes
  exactly those documents in which no name is blank or comes twice, and no number of a set is
  zero or comes twice. Then each entry must hold the material that its set's kind calls for,
  in the form that is written of it and in no other.
-/

namespace KeyBroker

/-! ### Entries -/

namespace VersionEntry

variable {e : VersionEntry} {kind : KeyKind} {material : KeyMaterial}

/-- What an entry holds in a set of a kind: the field for the kind is there and has the Base64
    form of the material, and the other field is not there. -/
inductive Holds : VersionEntry → KeyKind → KeyMaterial → Prop where
  /-- The bytes of a secret. -/
  | secret (number : UInt32) (bytes : Bytes) :
    Holds ⟨number, some (String.ofList (Text.Base64.encode bytes)), none⟩ .symmetric
      (.secret bytes)
  /-- The encoding of a key pair. -/
  | pair (number : UInt32) (der : Bytes) (k : KeyPair) (hread : KeyPair.ofBytes der = .ok k) :
    Holds ⟨number, none, some (String.ofList (Text.Base64.encode der))⟩ .asymmetric (.pair k)

/-- A text that is Base64 is the written form of what it stands for. -/
theorem ofList_encode_of_decode? {text : String} {bytes : Bytes}
    (h : Text.Base64.decode? text.toList = some bytes) :
    String.ofList (Text.Base64.encode bytes) = text := by
  rw [Text.Base64.encode_of_decode? h, String.ofList_toList]

/-- The material of an entry is what it holds. -/
theorem material_eq_ok_iff : e.material kind = .ok material ↔ e.Holds kind material := by
  constructor
  · intro h
    obtain ⟨number, secret, privateKey⟩ := e
    unfold VersionEntry.material at h
    simp only at h
    split at h
    · -- a set of secrets, and the entry has a secret only
      next text =>
      split at h
      · next bytes hdecoded =>
        obtain rfl := Except.ok.inj h
        rw [← ofList_encode_of_decode? hdecoded]
        exact .secret number bytes
      · cases h
    · -- a set of pairs, and the entry has a private key only
      next text =>
      split at h
      · next der hdecoded =>
        split at h
        · next k hread =>
          obtain rfl := Except.ok.inj h
          rw [← ofList_encode_of_decode? hdecoded]
          exact .pair number der k hread
        · cases h
      · cases h
    · cases h
    · cases h
  · intro h
    cases h with
    | secret number bytes =>
      simp only [VersionEntry.material, String.toList_ofList, Text.Base64.decode?_encode]
    | pair number der k hread =>
      simp only [VersionEntry.material, String.toList_ofList, Text.Base64.decode?_encode, hread]

/-- It holds no other. -/
theorem Holds.unique {other : KeyMaterial} (h : e.Holds kind material)
    (hother : e.Holds kind other) : material = other :=
  Except.ok.inj ((material_eq_ok_iff.mpr h).symm.trans (material_eq_ok_iff.mpr hother))

/-- It is of the kind of the set. -/
theorem Holds.kind_eq (h : e.Holds kind material) : material.kind = kind := by
  cases h <;> rfl

end VersionEntry

/-! ### Sets and documents -/

/-- A set that the check lets pass. -/
structure SetEntry.Checked (s : SetEntry) : Prop where
  /-- Its name is not blank. -/
  named : Text.trim s.name.toList ≠ []
  /-- Its numbers start at one. -/
  positive : ∀ e ∈ s.versions, e.number ≠ 0
  /-- No number comes twice. -/
  distinct : (s.versions.map (·.number)).Nodup

namespace Document

/-- Keys that are new: they were not found before, and none comes twice. -/
def New {α : Type} (seen keys : List α) : Prop := (∀ k ∈ keys, k ∉ seen) ∧ keys.Nodup

theorem new_cons_iff {α : Type} {seen keys : List α} {k : α} :
    New seen (k :: keys) ↔ k ∉ seen ∧ New (k :: seen) keys := by
  rw [New, New, List.forall_mem_cons, List.nodup_cons]
  simp only [List.mem_cons, not_or]
  constructor
  · rintro ⟨⟨hk, hkeys⟩, hother, hdistinct⟩
    refine ⟨hk, ?_, hdistinct⟩
    intro j hj
    refine ⟨?_, hkeys j hj⟩
    rintro rfl
    exact hother hj
  · rintro ⟨hk, hkeys, hdistinct⟩
    exact ⟨⟨hk, fun j hj => (hkeys j hj).2⟩, fun hagain => (hkeys k hagain).1 rfl, hdistinct⟩

theorem new_nil_iff {α : Type} {keys : List α} : New [] keys ↔ keys.Nodup := by
  simp only [New, List.not_mem_nil, not_false_eq_true, implies_true, true_and]

variable {set : String} {s : SetEntry}

theorem checkVersions_eq_ok_iff {seen : List UInt32} {versions : List VersionEntry} :
    checkVersions set seen versions = .ok ()
      ↔ (∀ e ∈ versions, e.number ≠ 0) ∧ New seen (versions.map (·.number)) := by
  induction versions generalizing seen with
  | nil => simp [checkVersions, New]
  | cons e rest ih =>
    rw [checkVersions, List.forall_mem_cons, List.map_cons, new_cons_iff]
    split
    · next hzero => exact ⟨nofun, fun h => absurd hzero h.1.1⟩
    split
    · next hseen => exact ⟨nofun, fun h => absurd hseen h.2.1⟩
    · next hpositive hunseen =>
      rw [ih]
      constructor
      · rintro ⟨hrest, hnew⟩
        exact ⟨⟨hpositive, hrest⟩, hunseen, hnew⟩
      · rintro ⟨⟨-, hrest⟩, -, hnew⟩
        exact ⟨hrest, hnew⟩

theorem checked_iff :
    s.Checked ↔ Text.trim s.name.toList ≠ [] ∧ checkVersions s.name [] s.versions = .ok () := by
  rw [checkVersions_eq_ok_iff, new_nil_iff]
  constructor
  · rintro ⟨hnamed, hpositive, hdistinct⟩
    exact ⟨hnamed, hpositive, hdistinct⟩
  · rintro ⟨hnamed, hpositive, hdistinct⟩
    exact ⟨hnamed, hpositive, hdistinct⟩

theorem checkSets_eq_ok_iff {seen : List String} {sets : List SetEntry} :
    checkSets seen sets = .ok ()
      ↔ (∀ s ∈ sets, s.Checked) ∧ New seen (sets.map (·.name)) := by
  -- the names found so far grow by one with each set that passes
  induction sets generalizing seen with
  | nil => simp [checkSets, New]
  | cons s rest ih =>
    rw [checkSets, List.forall_mem_cons, List.map_cons, new_cons_iff, checked_iff]
    split
    · next hblank => exact ⟨nofun, fun h => absurd (List.isEmpty_iff.mp hblank) h.1.1.1⟩
    split
    · next hseen => exact ⟨nofun, fun h => absurd hseen h.2.1⟩
    split
    · next hnamed hunseen _ hversions =>
      rw [ih]
      constructor
      · rintro ⟨hrest, hnew⟩
        exact ⟨⟨⟨mt List.isEmpty_iff.mpr hnamed, hversions⟩, hrest⟩, hunseen, hnew⟩
      · rintro ⟨⟨-, hrest⟩, -, hnew⟩
        exact ⟨hrest, hnew⟩
    · -- the numbers of the first set are at fault
      next fault hversions =>
      refine ⟨nofun, ?_⟩
      rintro ⟨⟨⟨-, hpasses⟩, -⟩, -⟩
      rw [hpasses] at hversions
      cases hversions

/-- The check passes exactly the documents whose sets pass, with different names. -/
theorem check_eq_ok_iff {d : Document} :
    d.check = .ok () ↔ (∀ s ∈ d.sets, s.Checked) ∧ (d.sets.map (·.name)).Nodup := by
  rw [check, checkSets_eq_ok_iff, new_nil_iff]

/-- What the check finds is never a fault of the store. -/
theorem check_ne_publish {d : Document} (cause : PublishFault) :
    d.check ≠ .error (.publish cause) := by
  have hversions : ∀ set seen versions,
      checkVersions set seen versions ≠ .error (.publish cause) := by
    intro set seen versions
    fun_induction checkVersions set seen versions with
    | case1 => nofun
    | case2 => nofun
    | case3 => nofun
    | case4 _ _ _ _ _ ih => exact ih
  have hsets : ∀ seen sets, checkSets seen sets ≠ .error (.publish cause) := by
    intro seen sets
    fun_induction checkSets seen sets with
    | case1 => nofun
    | case2 => nofun
    | case3 => nofun
    | case4 _ _ _ _ _ _ ih => exact ih
    | case5 _ s _ _ _ fault hfault =>
      rintro ⟨rfl⟩
      exact hversions _ _ _ hfault
  exact hsets [] d.sets

end Document

end KeyBroker
