import KeyBroker.Key.Material

/-! # Key sets

A key set has a name, a kind, and numbered versions of one key. Versions are only ever added, with
growing numbers; number zero is kept for asking for the latest version. A key set is a value, so
who holds one keeps what it showed. Main statement: a version that is published comes before those
that the set had, under a greater number, and it is of the set's kind.
-/

namespace KeyBroker

/-- One version of a key. -/
structure KeyVersion where
  number : UInt32
  material : KeyMaterial
  deriving DecidableEq

/-- Which version of a key is meant. -/
inductive Selector where
  | latest
  | exactly (number : UInt32)
  deriving DecidableEq, Repr

namespace Selector

/-- The selector that a number stands for in a request. -/
def ofNumber (n : UInt32) : Selector := if n = 0 then latest else exactly n

/-- The selector in messages. -/
def describe : Selector → String
  | latest => "latest"
  | exactly n => s!"v{n.toNat}"

end Selector

/-- Why a version is not published. -/
inductive PublishFault where
  | versionZero (set : String)
  | notAbove (set : String) (number latest : UInt32)
  | wrongKind (set : String) (number : UInt32) (kind setKind : KeyKind)
  | exhausted (set : String)
  deriving DecidableEq, Repr

/-- The reason in words. -/
def PublishFault.message : PublishFault → String
  | versionZero set => s!"{set}: version 0 is reserved for the latest selector"
  | notAbove set number latest =>
    s!"{set}: version {number.toNat} does not exceed latest version {latest.toNat}"
  | wrongKind set number kind setKind =>
    s!"{set} v{number.toNat}: {kind.name} material in a {setKind.name} set"
  | exhausted set => s!"{set}: version space exhausted"

/-- A named key with its versions, the latest first. -/
structure KeySet where
  name : String
  kind : KeyKind
  versions : List KeyVersion
  descending : versions.Pairwise fun later earlier => earlier.number < later.number
  positive : ∀ v ∈ versions, v.number ≠ 0
  uniform : ∀ v ∈ versions, v.material.kind = kind
  deriving DecidableEq

namespace KeySet

/-- A set without versions. -/
def empty (name : String) (kind : KeyKind) : KeySet :=
  ⟨name, kind, [], List.Pairwise.nil, by simp, by simp⟩

/-- The highest number of a version, zero when there is none. -/
def latest (s : KeySet) : UInt32 :=
  match s.versions with
  | [] => 0
  | v :: _ => v.number

/-- How many versions there are. -/
def size (s : KeySet) : Nat := s.versions.length

/-- The version that is meant. -/
def get? (s : KeySet) : Selector → Option KeyVersion
  | .latest => s.versions.head?
  | .exactly n => s.versions.find? (·.number == n)

theorem le_latest {s : KeySet} {v : KeyVersion} (h : v ∈ s.versions) : v.number ≤ s.latest := by
  obtain ⟨name, kind, versions, descending, positive, uniform⟩ := s
  cases versions with
  | nil => simp at h
  | cons w r =>
    rcases List.mem_cons.1 h with rfl | h
    · exact UInt32.le_refl _
    · exact UInt32.le_of_lt ((List.pairwise_cons.1 descending).1 v h)

/-- Adds a version above all others and of the set's kind. -/
def publish (s : KeySet) (v : KeyVersion) : Except PublishFault KeySet :=
  if zero : v.number = 0 then .error (.versionZero s.name)
  else if above : s.latest < v.number then
    if kind : v.material.kind = s.kind then
      .ok {
        name := s.name
        kind := s.kind
        versions := v :: s.versions
        descending := List.pairwise_cons.2
          ⟨fun _ h => UInt32.lt_of_le_of_lt (le_latest h) above, s.descending⟩
        positive := by
          intro w h
          rcases List.mem_cons.1 h with rfl | h
          · exact zero
          · exact s.positive w h
        uniform := by
          intro w h
          rcases List.mem_cons.1 h with rfl | h
          · exact kind
          · exact s.uniform w h }
    else .error (.wrongKind s.name v.number v.material.kind s.kind)
  else .error (.notAbove s.name v.number s.latest)

/-- What publishing leaves behind, when it succeeds. -/
theorem of_publish {s t : KeySet} {v : KeyVersion} (h : s.publish v = .ok t) :
    t.name = s.name ∧ t.kind = s.kind ∧ t.versions = v :: s.versions ∧ v.number ≠ 0
      ∧ s.latest < v.number ∧ v.material.kind = s.kind := by
  unfold publish at h
  split at h
  · cases h
  · split at h
    · split at h
      · injection h with h
        subst h
        exact ⟨rfl, rfl, rfl, by assumption, by assumption, by assumption⟩
      · cases h
    · cases h

end KeySet

end KeyBroker
