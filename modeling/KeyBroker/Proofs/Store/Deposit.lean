import KeyBroker.Proofs.Key.Written
import KeyBroker.Proofs.Store.Filing
import KeyBroker.Proofs.Store.Loading
import Mathlib.Data.List.Nodup

/-! # Key stores from files

  Sets can be published directly, or put in a document that is saved, read back and loaded.
  Both ways give the same store. On the way through the file

  - each version is written with its number, and its material in Base64, from which the same
    material is read;
  - the whole document is read back from the text in the file;
  - what was deposited passes the checks of a document, and the versions of each set are
    published in ascending order.
-/

namespace KeyBroker

/-! ### Deposits -/

/-- A set that is put in a file: it has a name that is not blank, and versions in any order,
    with different numbers, keys of its kind, and a written form for each key pair. -/
structure Deposit where
  name : String
  kind : KeyKind
  versions : List KeyVersion
  named : Text.trim name.toList ≠ []
  positive : ∀ v ∈ versions, v.number ≠ 0
  distinct : (versions.map (·.number)).Nodup
  uniform : ∀ v ∈ versions, v.material.kind = kind
  writable : ∀ v ∈ versions, ∀ k, v.material = .pair k → ∃ bytes, k.privateBytes = .ok bytes

namespace Deposit

/-- The versions in ascending order. -/
def ascending (d : Deposit) : List KeyVersion :=
  d.versions.mergeSort fun v w => v.number ≤ w.number

/-- The versions as entries of a store, in ascending order. -/
def entries (d : Deposit) : List Entry := d.ascending.map fun v => ⟨d.name, v⟩

variable {d : Deposit}

theorem mem_ascending {v : KeyVersion} : v ∈ d.ascending ↔ v ∈ d.versions :=
  (List.mergeSort_perm _ _).mem_iff

theorem mem_entries {e : Entry} : e ∈ d.entries ↔ e.set = d.name ∧ e.version ∈ d.versions := by
  simp only [entries, List.mem_map, mem_ascending]
  constructor
  · rintro ⟨v, hv, rfl⟩
    exact ⟨rfl, hv⟩
  · rintro ⟨hset, hv⟩
    exact ⟨e.version, hv, by rw [← hset]⟩

theorem pairwise_ascending (d : Deposit) :
    d.ascending.Pairwise fun v w => v.number < w.number :=
  KeyStore.pairwise_mergeSort_of_nodup d.distinct

end Deposit

namespace KeyStore

variable {ds : List Deposit}

/-- Deposits with different names ascend, one after the other. -/
theorem ascending_entries (h : (ds.map (·.name)).Nodup) :
    Ascending (ds.flatMap Deposit.entries) := by
  refine List.pairwise_flatMap.mpr ⟨?_, ?_⟩
  · intro d _
    refine List.pairwise_map.mpr (d.pairwise_ascending.imp ?_)
    intro v w hlt _
    exact hlt
  · refine (List.pairwise_map.mp h).imp ?_
    intro d other hne e he f hf hsame
    rw [(Deposit.mem_entries.mp he).1, (Deposit.mem_entries.mp hf).1] at hsame
    exact absurd hsame hne

/-- The entries under a name are the versions of the deposit with that name. -/
theorem mem_flatMap_entries (h : (ds.map (·.name)).Nodup) {d : Deposit} (hd : d ∈ ds)
    {v : KeyVersion} : ⟨d.name, v⟩ ∈ ds.flatMap Deposit.entries ↔ v ∈ d.versions := by
  constructor
  · intro hv
    obtain ⟨other, hother, he⟩ := List.mem_flatMap.mp hv
    obtain ⟨hname, hv⟩ := Deposit.mem_entries.mp he
    obtain rfl : d = other := List.inj_on_of_nodup_map h hd hother hname
    exact hv
  · intro hv
    exact List.mem_flatMap.mpr ⟨d, hd, Deposit.mem_entries.mpr ⟨rfl, hv⟩⟩

theorem fit_entries (h : (ds.map (·.name)).Nodup) : Fit (ds.flatMap Deposit.entries) := by
  refine ⟨?_, ?_⟩
  · intro e he
    obtain ⟨d, -, he⟩ := List.mem_flatMap.mp he
    exact d.positive e.version (Deposit.mem_entries.mp he).2
  · intro e he f hf hsame
    obtain ⟨d, hd, he⟩ := List.mem_flatMap.mp he
    obtain ⟨hset, hv⟩ := Deposit.mem_entries.mp he
    -- the other entry is under the same name, so it is of the same deposit
    have hw : f.version ∈ d.versions := by
      apply (mem_flatMap_entries h hd).mp
      rw [← hset, hsame]
      exact hf
    rw [d.uniform _ hv, d.uniform _ hw]

end KeyStore

/-! ### Versions in documents -/

namespace VersionEntry

/-- The entry of a version. -/
def ofVersion (v : KeyVersion) : Except PairFault VersionEntry :=
  match v.material with
  | .secret bytes => .ok (ofSecret v.number bytes)
  | .pair k => ofPair v.number k

/-- What is written of a version. -/
def written (v : KeyVersion) : VersionEntry :=
  match ofVersion v with
  | .ok e => e
  | .error _ => { number := v.number }

theorem of_ofVersion {v : KeyVersion} {e : VersionEntry} (h : ofVersion v = .ok e) :
    e.number = v.number ∧ e.material v.material.kind = .ok v.material := by
  obtain ⟨number, material⟩ := v
  cases material with
  | secret bytes =>
    obtain rfl := Except.ok.inj h
    refine ⟨rfl, ?_⟩
    simp only [material, ofSecret, KeyMaterial.kind, String.toList_ofList,
      Text.Base64.decode?_encode]
  | pair k =>
    simp only [ofVersion, ofPair] at h
    cases hbytes : k.privateBytes with
    | error fault => rw [hbytes] at h; cases h
    | ok bytes =>
      rw [hbytes] at h
      obtain rfl := Except.ok.inj h
      refine ⟨rfl, ?_⟩
      simp only [material, KeyMaterial.kind, String.toList_ofList, Text.Base64.decode?_encode,
        KeyPair.ofBytes_of_privateBytes hbytes]

theorem number_written (v : KeyVersion) : (written v).number = v.number := by
  unfold written
  split
  · next e he => exact (of_ofVersion he).1
  · rfl

end VersionEntry

variable {d : Deposit} {ds : List Deposit} {store next : KeyStore}

/-- The versions of a deposit are written. -/
theorem Deposit.ofVersion_eq {v : KeyVersion} (hv : v ∈ d.versions) :
    VersionEntry.ofVersion v = .ok (VersionEntry.written v) := by
  have hwritten : ∃ e, VersionEntry.ofVersion v = .ok e := by
    cases hmaterial : v.material with
    | secret bytes =>
      unfold VersionEntry.ofVersion
      simp only [hmaterial]
      exact ⟨_, rfl⟩
    | pair k =>
      obtain ⟨bytes, hbytes⟩ := d.writable v hv k hmaterial
      unfold VersionEntry.ofVersion VersionEntry.ofPair
      simp only [hmaterial, hbytes]
      exact ⟨_, rfl⟩
  obtain ⟨e, he⟩ := hwritten
  rw [VersionEntry.written, he]

/-! ### Documents of deposits -/

/-- Items that each give a result give the list of results. -/
theorem mapM_eq_ok {ε α β : Type} {f : α → Except ε β} {g : α → β} {as : List α}
    (h : ∀ a ∈ as, f a = .ok (g a)) : as.mapM f = .ok (as.map g) := by
  induction as with
  | nil => rfl
  | cons a rest ih =>
    rw [List.mapM_cons, h a List.mem_cons_self, ih fun b hb => h b (List.mem_cons_of_mem a hb)]
    rfl

/-- The set in a document for a deposit. -/
def SetEntry.ofDeposit (d : Deposit) : Except PairFault SetEntry :=
  (d.versions.mapM VersionEntry.ofVersion).map fun versions => ⟨d.name, d.kind, versions⟩

/-- What is written of a deposit. -/
def SetEntry.written (d : Deposit) : SetEntry :=
  ⟨d.name, d.kind, d.versions.map VersionEntry.written⟩

theorem SetEntry.ofDeposit_eq (d : Deposit) : ofDeposit d = .ok (written d) := by
  rw [ofDeposit, mapM_eq_ok fun v hv => Deposit.ofVersion_eq hv]
  rfl

namespace Document

/-- The document of deposits. -/
def ofDeposits (ds : List Deposit) : Except PairFault Document :=
  (ds.mapM SetEntry.ofDeposit).map Document.mk

theorem ofDeposits_eq (ds : List Deposit) :
    ofDeposits ds = .ok ⟨ds.map SetEntry.written⟩ := by
  rw [ofDeposits, mapM_eq_ok fun d _ => SetEntry.ofDeposit_eq d]
  rfl

/-! ### Checks -/

theorem map_number_written (versions : List KeyVersion) :
    (versions.map VersionEntry.written).map (·.number) = versions.map (·.number) := by
  rw [List.map_map]
  exact List.map_congr_left fun v _ => VersionEntry.number_written v

/-- What is written of a deposit passes. -/
theorem checked_written (d : Deposit) : (SetEntry.written d).Checked := by
  refine ⟨d.named, ?_, ?_⟩
  · intro e he
    obtain ⟨v, hv, rfl⟩ := List.mem_map.mp he
    rw [VersionEntry.number_written]
    exact d.positive v hv
  · rw [SetEntry.written, map_number_written]
    exact d.distinct

theorem checkSets_written {seen : List String} (hdistinct : (ds.map (·.name)).Nodup)
    (hunseen : ∀ d ∈ ds, d.name ∉ seen) :
    checkSets seen (ds.map SetEntry.written) = .ok () := by
  have hnames : (ds.map SetEntry.written).map (·.name) = ds.map (·.name) := by
    rw [List.map_map]
    rfl
  refine checkSets_eq_ok_iff.mpr ⟨?_, ?_, ?_⟩
  · intro s hs
    obtain ⟨d, -, rfl⟩ := List.mem_map.mp hs
    exact checked_written d
  · intro name hname
    rw [hnames] at hname
    obtain ⟨d, hd, rfl⟩ := List.mem_map.mp hname
    exact hunseen d hd
  · rw [hnames]
    exact hdistinct

/-! ### Publishing -/

theorem sorted_written (d : Deposit) :
    sorted (d.versions.map VersionEntry.written) = d.ascending.map VersionEntry.written := by
  refine (List.map_mergeSort ?_).symm
  intro v _ w _
  rw [VersionEntry.number_written, VersionEntry.number_written]

/-- The item for an entry of a deposit. -/
def itemOf (e : Entry) : Item :=
  ⟨e.set, e.version.material.kind, VersionEntry.written e.version⟩

theorem items_written (d : Deposit) : (SetEntry.written d).items = d.entries.map itemOf := by
  rw [Deposit.entries, List.map_map]
  show (sorted (d.versions.map VersionEntry.written)).map _ = _
  rw [sorted_written, List.map_map]
  refine List.map_congr_left ?_
  intro v hv
  have hkind := d.uniform v (Deposit.mem_ascending.mp hv)
  simp only [Function.comp_apply, itemOf, SetEntry.written, hkind]

/-- A document publishes what was deposited, set after set. -/
theorem publishSets_written (hall : store.publishAll (ds.flatMap Deposit.entries) = .ok next) :
    (publishSets store (ds.map SetEntry.written)).1 = .ok next := by
  have hitems : (ds.map SetEntry.written).flatMap SetEntry.items
      = (ds.flatMap Deposit.entries).map itemOf := by
    rw [List.flatMap_map, List.map_flatMap]
    simp only [items_written]
  rw [publishSets_eq, hitems]
  refine Item.publishAll_of_entries ?_ hall
  intro e he
  obtain ⟨d, -, he⟩ := List.mem_flatMap.mp he
  have hv := (Deposit.mem_entries.mp he).2
  obtain ⟨hnumber, hmaterial⟩ := VersionEntry.of_ofVersion (Deposit.ofVersion_eq hv)
  exact ⟨rfl, hnumber, hmaterial⟩

/-! ### The way through the file -/

/-- A file gives the store that direct publishing gives. Deposits with different names make a
    document; saved where a file is or can be, and loaded from there, it gives a store, and
    that store comes of publishing the versions of each set in ascending order to an empty
    one, in whatever turns the sets are taken. What it shows is what was deposited. -/
theorem loads_what_was_deposited (ds : List Deposit) (hnames : (ds.map (·.name)).Nodup)
    (path : Path) (l : Location) (hl : l = .vacant ∨ ∃ f, l = .file f) :
    ∃ doc store, ofDeposits ds = .ok doc
      ∧ (doc.save l).1 = .ok ()
      ∧ (load path (doc.save l).2).1 = .ok store
      ∧ KeyStore.empty.publishAll (ds.flatMap Deposit.entries) = .ok store
      ∧ (∀ entries, entries.Perm (ds.flatMap Deposit.entries) → KeyStore.Ascending entries →
          KeyStore.empty.publishAll entries = .ok store)
      ∧ KeyStore.Tells store (ds.flatMap Deposit.entries) := by
  have hfit := KeyStore.fit_entries hnames
  have hascending := KeyStore.ascending_entries hnames
  obtain ⟨store, hstore⟩ : ∃ store,
      KeyStore.empty.publishAll (ds.flatMap Deposit.entries) = .ok store :=
    KeyStore.exists_publishAll KeyStore.has_empty hfit hascending
  let doc : Document := ⟨ds.map SetEntry.written⟩
  obtain ⟨hsaved, hread⟩ := ofFile_save doc path hl
  have hcheck : doc.check = .ok () := checkSets_written hnames fun _ _ => List.not_mem_nil
  have hpublished : doc.publish.1 = .ok store := by
    rw [publish, hcheck]
    exact publishSets_written hstore
  have hloaded : (load path (doc.save l).2).1 = .ok store := by
    unfold load
    simp only [hread]
    split
    · next fault events heq => rw [heq] at hpublished; cases hpublished
    · next reached events heq =>
      rw [heq] at hpublished
      obtain rfl := Except.ok.inj hpublished
      rfl
  refine ⟨doc, store, ofDeposits_eq ds, hsaved, hloaded, hstore, ?_, ?_⟩
  · intro entries hperm hturns
    obtain ⟨same, hsame, hentries⟩ := KeyStore.publishAll_perm hfit hascending hperm hturns
    rw [hstore] at hsame
    rw [hentries, hsame]
  · exact KeyStore.tells_of_has (KeyStore.has_publishAll KeyStore.has_empty hstore)

/-- A set with versions out of order and a name that is escaped in the file, and a set with a
    key pair, saved over another file: they are loaded from there. -/
theorem loads_what_was_deposited_over_a_file :
    let p := (1 <<< 184) - 287
    let q := (1 <<< 184) - 59
    let pair : KeyPair := ⟨⟨p * q, 3, (2 * (p - 1) * (q - 1) + 1) / 3, p, q⟩, by decide +kernel⟩
    ∃ secrets pairs : Deposit, ∃ doc store,
      secrets.name = "\"caf\u00e9\"\n"
      ∧ secrets.versions = [⟨7, .secret []⟩, ⟨2, .secret [1, 2, 3]⟩]
      ∧ pairs.name = "pairs"
      ∧ pairs.versions = [⟨1, .pair pair⟩]
      ∧ ofDeposits [secrets, pairs] = .ok doc
      ∧ (load (.ofText "keys.json") (doc.save (.file ⟨0o644, [0x7b]⟩)).2).1 = .ok store
      ∧ store.latest secrets.name = .ok 7
      ∧ store.get secrets.name (.ofNumber 2) = .ok ⟨2, .secret [1, 2, 3]⟩
      ∧ store.get pairs.name (.ofNumber 1) = .ok ⟨1, .pair pair⟩ := by
  intro p q pair
  have hwritten : ∃ bytes, pair.privateBytes = .ok bytes := by
    have hok : pair.privateBytes.isOk = true := by decide +kernel
    cases hbytes : pair.privateBytes with
    | ok bytes => exact ⟨bytes, rfl⟩
    | error fault => rw [hbytes] at hok; cases hok
  let secrets : Deposit :=
    { name := "\"caf\u00e9\"\n"
      kind := .symmetric
      versions := [⟨7, .secret []⟩, ⟨2, .secret [1, 2, 3]⟩]
      named := by decide
      positive := by decide
      distinct := by decide
      uniform := by decide
      writable := by simp }
  let pairs : Deposit :=
    { name := "pairs"
      kind := .asymmetric
      versions := [⟨1, .pair pair⟩]
      named := by decide
      positive := by simp
      distinct := by simp
      uniform := by simp [KeyMaterial.kind]
      writable := by
        intro v hv k hk
        obtain rfl := List.mem_singleton.mp hv
        obtain rfl := KeyMaterial.pair.inj hk
        exact hwritten }
  have hnames : ([secrets, pairs].map (·.name)).Nodup := by simp [secrets, pairs]
  obtain ⟨doc, store, hdoc, -, hloaded, -, -, htells⟩ := loads_what_was_deposited
    [secrets, pairs] hnames (.ofText "keys.json") (.file ⟨0o644, [0x7b]⟩) (.inr ⟨_, rfl⟩)
  have hsecrets : ∀ {v}, ⟨secrets.name, v⟩ ∈ [secrets, pairs].flatMap Deposit.entries
      ↔ v ∈ secrets.versions := KeyStore.mem_flatMap_entries hnames List.mem_cons_self
  have hpairs : ∀ {v}, ⟨pairs.name, v⟩ ∈ [secrets, pairs].flatMap Deposit.entries
      ↔ v ∈ pairs.versions :=
    KeyStore.mem_flatMap_entries hnames (List.mem_cons_of_mem _ List.mem_cons_self)
  refine ⟨secrets, pairs, doc, store, rfl, rfl, rfl, rfl, hdoc, hloaded, ?_, ?_, ?_⟩
  · rw [htells.greatest]
    simp only [hsecrets]
    simp [secrets]
  · rw [htells.found _ _ _ (by decide), hsecrets]
    exact ⟨by simp [secrets], rfl⟩
  · rw [htells.found _ _ _ (by decide), hpairs]
    exact ⟨List.mem_cons_self, rfl⟩

end Document

end KeyBroker
