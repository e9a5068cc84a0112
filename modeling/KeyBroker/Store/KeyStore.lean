import KeyBroker.Store.KeySet

/-! # Key stores

A key store holds key sets by name, in ascending order of names, and none of them is empty.
Publishing adds a version to a set, creating the set with its first version. Main statement: looking
up a set after another was put in gives the new one under its name and the old ones elsewhere.
-/

namespace KeyBroker

/-- What was published. -/
structure Publication where
  set : String
  number : UInt32
  kind : KeyKind
  deriving DecidableEq, Repr

/-- Why a key is not found. -/
inductive Missing where
  | noSet (name : String)
  | noVersion (set : String) (selector : Selector)
  deriving DecidableEq, Repr

/-- The reason in words. -/
def Missing.message : Missing → String
  | noSet name => s!"unknown key set {name}"
  | noVersion set selector => s!"key set {set} has no version {selector.describe}"

/-- Key sets by name. -/
structure KeyStore where
  sets : List KeySet
  ascending : sets.Pairwise fun s t => s.name < t.name
  inhabited : ∀ s ∈ sets, s.versions ≠ []
  deriving DecidableEq

namespace KeyStore

/-! ## Sorted lists of sets -/

/-- The set with a given name. -/
def lookup (name : String) (sets : List KeySet) : Option KeySet := sets.find? (·.name == name)

/-- Puts a set in its place, instead of the one with its name. -/
def place (s : KeySet) : List KeySet → List KeySet
  | [] => [s]
  | t :: r =>
    if s.name < t.name then s :: t :: r
    else if s.name = t.name then s :: r
    else t :: place s r

theorem lt_of_not_lt_of_ne {a b : String} (h : ¬ a < b) (ne : a ≠ b) : b < a := by
  rcases Decidable.em (b < a) with lt | ge
  · exact lt
  · exact absurd (String.le_antisymm (String.not_lt.1 ge) (String.not_lt.1 h)) ne

theorem mem_place {s t : KeySet} {sets : List KeySet} (h : t ∈ place s sets) :
    t = s ∨ t ∈ sets := by
  induction sets with
  | nil => exact .inl (by simpa [place] using h)
  | cons u r ih =>
    unfold place at h
    split at h
    · simpa using h
    · split at h
      · rcases List.mem_cons.1 h with h | h
        · exact .inl h
        · exact .inr (List.mem_cons_of_mem _ h)
      · rcases List.mem_cons.1 h with h | h
        · exact .inr (by simp [h])
        · exact (ih h).imp_right (List.mem_cons_of_mem _)

theorem ascending_place (s : KeySet) {sets : List KeySet}
    (h : sets.Pairwise fun s t => s.name < t.name) :
    (place s sets).Pairwise fun s t => s.name < t.name := by
  induction sets with
  | nil => simp [place]
  | cons u r ih =>
    obtain ⟨first, rest⟩ := List.pairwise_cons.1 h
    unfold place
    split
    · next lt =>
      refine List.pairwise_cons.2 ⟨?_, h⟩
      intro t member
      rcases List.mem_cons.1 member with rfl | member
      · exact lt
      · exact String.lt_trans lt (first t member)
    · next ge =>
      split
      · next same => exact List.pairwise_cons.2 ⟨fun t member => same ▸ first t member, rest⟩
      · next ne =>
        refine List.pairwise_cons.2 ⟨?_, ih rest⟩
        intro t member
        rcases mem_place member with rfl | member
        · exact lt_of_not_lt_of_ne ge ne
        · exact first t member

theorem lookup_place (s : KeySet) (name : String) {sets : List KeySet}
    (h : sets.Pairwise fun s t => s.name < t.name) :
    lookup name (place s sets) = if s.name = name then some s else lookup name sets := by
  induction sets with
  | nil => by_cases same : s.name = name <;> simp [lookup, place, same]
  | cons u r ih =>
    obtain ⟨first, rest⟩ := List.pairwise_cons.1 h
    have step := ih rest
    simp only [lookup] at step ⊢
    unfold place
    split
    · by_cases same : s.name = name <;> simp [same]
    · split
      · next shared =>
        by_cases same : s.name = name
        · simp [same]
        · have other : u.name ≠ name := shared ▸ same
          simp [same, other]
      · next ne =>
        by_cases found : u.name = name
        · have other : s.name ≠ name := fun e => ne (e.trans found.symm)
          simp [found, other]
        · simp [found, step]

/-! ## Stores -/

/-- The store without sets. -/
def empty : KeyStore := ⟨[], List.Pairwise.nil, by simp⟩

/-- The set with a given name. -/
def set? (store : KeyStore) (name : String) : Option KeySet := lookup name store.sets

/-- The names of the sets, ascending. -/
def names (store : KeyStore) : List String := store.sets.map (·.name)

/-- How many sets there are. -/
def size (store : KeyStore) : Nat := store.sets.length

/-- The set with a given name, or what is missing. -/
def find (store : KeyStore) (name : String) : Except Missing KeySet :=
  match store.set? name with
  | some s => .ok s
  | none => .error (.noSet name)

/-- The version that is meant, or what is missing. -/
def get (store : KeyStore) (name : String) (selector : Selector) : Except Missing KeyVersion := do
  let s ← store.find name
  match s.get? selector with
  | some v => .ok v
  | none => .error (.noVersion name selector)

/-- The highest number of a version of the set. -/
def latest (store : KeyStore) (name : String) : Except Missing UInt32 :=
  (store.find name).map (·.latest)

/-- The kind of the set. -/
def kind (store : KeyStore) (name : String) : Except Missing KeyKind :=
  (store.find name).map (·.kind)

/-- The set with a given name, or an empty one of the given kind. -/
def setOrNew (store : KeyStore) (name : String) (kind : KeyKind) : KeySet :=
  (store.set? name).getD (KeySet.empty name kind)

/-- Publishes a key under a number of one's choice. -/
def publishAs (store : KeyStore) (name : String) (number : UInt32) (material : KeyMaterial) :
    Except PublishFault (Publication × KeyStore) :=
  let current := store.setOrNew name material.kind
  match h : current.publish ⟨number, material⟩ with
  | .error fault => .error fault
  | .ok next =>
    .ok (⟨name, number, current.kind⟩, {
      sets := place next store.sets
      ascending := ascending_place next store.ascending
      inhabited := by
        intro s member
        rcases mem_place member with rfl | member
        · simp [(KeySet.of_publish h).2.2.1]
        · exact store.inhabited s member })

/-- Publishes a key as the next version of a set. -/
def publish (store : KeyStore) (name : String) (material : KeyMaterial) :
    Except PublishFault (Publication × KeyStore) :=
  let latest := (store.setOrNew name material.kind).latest
  if latest.toNat + 1 < UInt32.size then store.publishAs name (latest + 1) material
  else .error (.exhausted name)

end KeyStore

end KeyBroker
