import KeyBroker.Config.Basic
import KeyBroker.Proofs.Key.Running

/-! # Refused algorithms

  A configuration that passes its check gives a registry, and the registry offers all
  algorithms but those that the configuration refuses by name. A name may have capitals and
  hyphens in any place, and which names there are is all that counts. What the registry
  resolves an ordinal to is always something that the operation can run.
-/

namespace KeyBroker

/-! ### Spelling -/

/-- A text spells a word: its letters one by one, each as it is or as a capital, with
    hyphens anywhere between them. -/
inductive Spells : List Char → List Char → Prop where
  | done : Spells [] []
  | hyphen {text word : List Char} (rest : Spells text word) : Spells ('-' :: text) word
  | letter {text word : List Char} (c d : Char) (hletter : c = d ∨ c.toLower = d)
      (rest : Spells text word) : Spells (c :: text) (d :: word)

/-- No capital becomes a hyphen. -/
theorem eq_hyphen_of_toLower {c : Char} (h : c.toLower = '-') : c = '-' := by
  unfold Char.toLower at h
  split at h
  · next hcapital =>
    have hlow : (65 : UInt32) ≤ c.val := hcapital.1
    have hhigh : c.val ≤ (90 : UInt32) := hcapital.2
    have hsum : c.val + 32 = 45 := congrArg Char.val h
    grind
  · exact h

/-- A word that can be spelt: small letters and digits, without hyphens. -/
def Spellable (word : List Char) : Prop := ∀ d ∈ word, d.toLower = d ∧ d ≠ '-'

/-- A text spells a word just when it is that word once its capitals are made small and its
    hyphens are left out. -/
theorem spells_iff {text word : List Char} (hword : Spellable word) :
    Spells text word ↔ (text.map Char.toLower).filter (· ≠ '-') = word := by
  constructor
  · intro h
    induction h with
    | done => rfl
    | hyphen rest ih => exact ih hword
    | letter c d hletter rest ih =>
      obtain ⟨hsmall, hne⟩ := hword d List.mem_cons_self
      have hlower : c.toLower = d := by
        rcases hletter with rfl | hlower
        · exact hsmall
        · exact hlower
      rw [List.map_cons, List.filter_cons_of_pos (by simpa [hlower] using hne), hlower,
        ih fun d hd => hword d (List.mem_cons_of_mem _ hd)]
  · intro h
    induction text generalizing word with
    | nil =>
      subst h
      exact .done
    | cons c text ih =>
      by_cases hhyphen : c = '-'
      · subst hhyphen
        exact .hyphen (ih hword h)
      · have hkept : c.toLower ≠ '-' := fun hlower => hhyphen (eq_hyphen_of_toLower hlower)
        rw [List.map_cons, List.filter_cons_of_pos (by simpa using hkept)] at h
        subst h
        exact .letter c c.toLower (Or.inr rfl)
          (ih (fun d hd => hword d (List.mem_cons_of_mem _ hd)) rfl)

/-! ### Names -/

namespace Algorithm

theorem spellable_name (a : Algorithm) : Spellable a.name.toList := by
  have hall : ∀ a ∈ all, a.name.toList.all (fun d => d.toLower = d && d ≠ '-') = true := by decide
  intro d hd
  simpa using List.all_eq_true.mp (hall a (mem_all a)) d hd

/-- The algorithm of a name is the one that the name spells. -/
theorem ofName_eq_ok_iff {name : String} {a : Algorithm} :
    ofName name = .ok a ↔ Spells name.toList a.name.toList := by
  have hplain : Spells name.toList a.name.toList ↔ plainName name = a.name := by
    rw [spells_iff a.spellable_name, plainName, ← String.toList_inj, String.toList_ofList]
  rw [hplain]
  constructor
  · intro h
    cases hfind : all.find? (·.name == plainName name) with
    | none => simp [ofName, hfind] at h
    | some found =>
      have hfound : found = a := by simpa [ofName, hfind] using h
      have hname := List.find?_some hfind
      exact hfound ▸ (eq_of_beq hname).symm
  · intro h
    -- no two algorithms have the same name
    have hfirst : all.find? (·.name == a.name) = some a := by
      cases a with
      | standard => decide
      | hash d => cases d <;> decide
    simp only [ofName, h, hfirst]

end Algorithm

/-! ### Refusals -/

namespace Config

theorem refusal_eq_ok_iff {name : String} {a : Algorithm} :
    refusal name = .ok a ↔ a ≠ .standard ∧ Spells name.toList a.name.toList := by
  rw [← Algorithm.ofName_eq_ok_iff]
  cases hname : Algorithm.ofName name with
  | error cause => simp [refusal, hname]
  | ok found =>
    cases found with
    | standard =>
      simp only [refusal, hname, Except.ok.injEq, ne_eq]
      exact ⟨nofun, fun h => absurd h.2.symm h.1⟩
    | hash d =>
      simp only [refusal, hname, Except.ok.injEq, ne_eq]
      exact ⟨fun h => ⟨h ▸ nofun, h⟩, fun h => h.2⟩

theorem refusals_cons_eq_ok_iff {name : String} {rest : List String} {refused : List Algorithm} :
    refusals (name :: rest) = .ok refused
      ↔ ∃ a as, refusal name = .ok a ∧ refusals rest = .ok as ∧ refused = a :: as := by
  cases hname : refusal name with
  | error fault => simp [refusals, hname]
  | ok a =>
    cases hrest : refusals rest with
    | error fault => simp [refusals, hname, hrest]
    | ok as => simp [refusals, hname, hrest, eq_comm]

/-- Names are refused together just when each is refused by itself. -/
theorem exists_refusals_iff {names : List String} :
    (∃ refused, refusals names = .ok refused) ↔ ∀ name ∈ names, ∃ a, refusal name = .ok a := by
  induction names with
  | nil => exact ⟨fun _ => nofun, fun _ => ⟨[], rfl⟩⟩
  | cons name rest ih =>
    rw [List.forall_mem_cons, ← ih]
    constructor
    · rintro ⟨refused, h⟩
      obtain ⟨a, as, hname, hrest, -⟩ := refusals_cons_eq_ok_iff.mp h
      exact ⟨⟨a, hname⟩, as, hrest⟩
    · rintro ⟨⟨a, hname⟩, as, hrest⟩
      exact ⟨a :: as, refusals_cons_eq_ok_iff.mpr ⟨a, as, hname, hrest, rfl⟩⟩

/-- What is refused is what some name refuses. -/
theorem mem_refusals {names : List String} {refused : List Algorithm} {a : Algorithm}
    (h : refusals names = .ok refused) :
    a ∈ refused ↔ ∃ name ∈ names, refusal name = .ok a := by
  induction names generalizing refused with
  | nil =>
    obtain rfl := Except.ok.inj h
    exact ⟨nofun, fun ⟨_, hname, _⟩ => absurd hname List.not_mem_nil⟩
  | cons name rest ih =>
    obtain ⟨first, as, hname, hrest, rfl⟩ := refusals_cons_eq_ok_iff.mp h
    simp only [List.mem_cons, ih hrest, exists_eq_or_imp, hname, Except.ok.injEq]
    exact or_congr_left eq_comm

/-! ### The registry -/

variable {c c' : Config} {r r' : Registry} {d : Hash}

theorem registry_eq_ok_iff :
    c.registry = .ok r ↔ ∃ refused, refusals c.disabled = .ok refused
      ∧ r = Registry.without refused := by
  cases hrefused : refusals c.disabled with
  | error fault => simp [registry, hrefused, Except.map]
  | ok refused => simp [registry, hrefused, Except.map, eq_comm]

theorem offers_without_iff {refused : List Algorithm} :
    (Registry.without refused).offers (.hash d) = true ↔ .hash d ∉ refused := by
  have hmem : d ∈ (Registry.without refused).refused ↔ .hash d ∈ refused := by
    simp only [Registry.without, List.mem_filterMap]
    constructor
    · rintro ⟨a, ha, hhash⟩
      cases a with
      | standard => cases hhash
      | hash d' =>
        obtain rfl := Option.some.inj hhash
        exact ha
    · exact fun h => ⟨_, h, rfl⟩
  rw [← hmem]
  simp [Registry.offers]

/-- A digest function is offered just when no name spells it. -/
theorem offers_hash_iff (h : c.registry = .ok r) :
    r.offers (.hash d) = true
      ↔ ∀ name ∈ c.disabled, ¬ Spells name.toList (Algorithm.hash d).name.toList := by
  obtain ⟨refused, hrefused, rfl⟩ := registry_eq_ok_iff.mp h
  rw [offers_without_iff, mem_refusals hrefused]
  constructor
  · intro hnone name hname hspells
    exact hnone ⟨name, hname, refusal_eq_ok_iff.mpr ⟨nofun, hspells⟩⟩
  · rintro hnone ⟨name, hname, hrefusal⟩
    exact hnone name hname (refusal_eq_ok_iff.mp hrefusal).2

/-- The same names, in any order and any number, give a registry with the same offers. -/
theorem exists_registry_of_same (hsame : ∀ name, name ∈ c'.disabled ↔ name ∈ c.disabled)
    (h : c.registry = .ok r) :
    ∃ r', c'.registry = .ok r' ∧ ∀ a, r'.offers a = r.offers a := by
  obtain ⟨refused, hrefused, -⟩ := registry_eq_ok_iff.mp h
  have hall : ∀ name ∈ c'.disabled, ∃ a, refusal name = .ok a := fun name hname =>
    exists_refusals_iff.mp ⟨refused, hrefused⟩ name ((hsame name).mp hname)
  obtain ⟨refused', hrefused'⟩ := exists_refusals_iff.mpr hall
  have h' : c'.registry = .ok (Registry.without refused') :=
    registry_eq_ok_iff.mpr ⟨refused', hrefused', rfl⟩
  refine ⟨_, h', fun a => ?_⟩
  cases a with
  | standard => rfl
  | hash d =>
    rw [Bool.eq_iff_iff, offers_hash_iff h', offers_hash_iff h]
    simp only [hsame]

end Config

/-! ### What is resolved -/

/-- The operations that a primitive is for. -/
def Primitive.operations : Primitive → List Operation
  | cipher _ => [.encrypt, .decrypt]
  | mac _ => [.hmac]
  | signature _ => [.sign, .verify]

namespace Registry

variable {r r' : Registry} {op : Operation} {ordinal : Option UInt32} {p : Primitive}

/-- Offers are all that resolving looks at. -/
theorem resolve_congr (h : ∀ a, r'.offers a = r.offers a) (op : Operation)
    (ordinal : Option UInt32) : r'.resolve op ordinal = r.resolve op ordinal := by
  simp only [resolve, h]

/-- An ordinal resolves if it is left out, or is that of an algorithm on offer. -/
theorem exists_resolve_iff :
    (∃ p, r.resolve op ordinal = .ok p)
      ↔ ordinal = none ∨ ordinal = some 0
        ∨ ∃ d, ordinal = some (Algorithm.hash d).ordinal ∧ r.offers (.hash d) = true := by
  constructor
  · rintro ⟨p, hp⟩
    have hresolved := r.resolved op ordinal
    rw [hp] at hresolved
    cases hresolved with
    | offered _ a hordinal hoffered =>
      cases ordinal with
      | none => exact Or.inl rfl
      | some n =>
        have hn : n = a.ordinal := hordinal
        subst hn
        cases a with
        | standard => exact Or.inr (Or.inl rfl)
        | hash d => exact Or.inr (Or.inr ⟨d, rfl, hoffered⟩)
  · rintro (rfl | rfl | ⟨d, rfl, hoffered⟩)
    · exact ⟨_, r.resolve_of_ordinal op (a := .standard) rfl⟩
    · exact ⟨_, r.resolve_of_ordinal op (a := .standard) rfl⟩
    · exact ⟨_, (r.resolve_of_ordinal op rfl).trans (if_pos hoffered)⟩

/-- What is resolved for an operation is for it, and running it never fails for want of a
    primitive. -/
theorem suits_of_resolve (h : r.resolve op ordinal = .ok p) :
    op ∈ p.operations ∧ ∀ key draw payload aux cause,
      op.run p key draw payload aux ≠ .error (.unsupported cause) := by
  have hresolved := r.resolved op ordinal
  rw [h] at hresolved
  cases hresolved with
  | offered _ a hordinal hoffered =>
    refine ⟨?_, fun key draw payload aux cause hrun => ?_⟩
    -- an algorithm gives each operation a primitive of its own kind
    · cases op <;> cases a <;> simp [primitive, Primitive.operations]
    · have hran := Operation.ran op a key draw payload aux
      rw [hrun] at hran
      cases hran

end Registry

/-- A configuration that passes its check gives a registry. An ordinal resolves under it just
    when it is left out, is zero, or is that of a digest function that no refused name spells;
    what it resolves to is for the operation, which can run it with every key, and is the same
    for operations that undo or judge each other. The refused names count without order and
    repetition. -/
theorem Config.offers_what_is_not_refused (c : Config) (hchecked : c.check = .ok ()) :
    ∃ r, c.registry = .ok r
      ∧ (∀ op ordinal, (∃ p, r.resolve op ordinal = .ok p)
        ↔ ordinal = none ∨ ordinal = some 0
          ∨ ∃ d, ordinal = some (Algorithm.hash d).ordinal
            ∧ ∀ name ∈ c.disabled, ¬ Spells name.toList (Algorithm.hash d).name.toList)
      ∧ (∀ op ordinal p, r.resolve op ordinal = .ok p →
        op ∈ p.operations ∧ ∀ key draw payload aux cause,
          op.run p key draw payload aux ≠ .error (.unsupported cause))
      ∧ (∀ ordinal, r.resolve .decrypt ordinal = r.resolve .encrypt ordinal
        ∧ r.resolve .verify ordinal = r.resolve .sign ordinal)
      ∧ ∀ c' : Config, (∀ name, name ∈ c'.disabled ↔ name ∈ c.disabled) →
        ∃ r', c'.registry = .ok r'
          ∧ ∀ op ordinal, r'.resolve op ordinal = r.resolve op ordinal := by
  obtain ⟨r, hr⟩ := registry_of_check hchecked
  refine ⟨r, hr, fun op ordinal => ?_, fun op ordinal p h => Registry.suits_of_resolve h,
    fun ordinal => ⟨r.resolve_decrypt ordinal, r.resolve_verify ordinal⟩, fun c' hsame => ?_⟩
  · rw [Registry.exists_resolve_iff]
    simp only [offers_hash_iff hr]
  · obtain ⟨r', hr', hoffers⟩ := exists_registry_of_same hsame hr
    exact ⟨r', hr', Registry.resolve_congr hoffers⟩

/-- Two functions are refused, one of them twice, with capitals and hyphens. -/
theorem Config.offers_what_is_not_refused_of_three_names :
    let c : Config :=
      { server := { socketPath := Path.ofText "/run/s" }
        storePath := Path.ofText "/run/keys"
        disabled := ["SHA-1", "s-hA5--12", "sha1"] }
    c.check = .ok () ∧ ∃ r, c.registry = .ok r
      ∧ (∃ p, r.resolve .verify (some 2) = .ok p) ∧ ¬ (∃ p, r.resolve .hmac (some 1) = .ok p)
      ∧ ¬ ∃ p, r.resolve .decrypt (some 4) = .ok p := by
  intro c
  have hchecked : c.check = .ok () := by rfl
  obtain ⟨r, hr, hresolves, -⟩ := offers_what_is_not_refused c hchecked
  refine ⟨hchecked, r, hr, (hresolves _ _).mpr ?_, fun h => ?_, fun h => ?_⟩
  · refine Or.inr (Or.inr ⟨.sha256, rfl, ?_⟩)
    simp only [spells_iff (Algorithm.spellable_name _)]
    decide
  · obtain hnone | hzero | ⟨d, hd, hunspelt⟩ := (hresolves _ _).mp h
    · cases hnone
    · cases hzero
    · cases d with
      | sha1 =>
        refine hunspelt "sha1" (by decide) ((spells_iff (Algorithm.spellable_name _)).mpr ?_)
        decide
      | sha256 => cases hd
      | sha512 => cases hd
  · obtain hnone | hzero | ⟨d, hd, -⟩ := (hresolves _ _).mp h
    · cases hnone
    · cases hzero
    · cases d <;> cases hd

end KeyBroker
