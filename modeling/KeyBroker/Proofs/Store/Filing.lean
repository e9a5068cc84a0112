import KeyBroker.Proofs.Json.Reading
import KeyBroker.Proofs.Wire.Utf8
import KeyBroker.Store.Document

/-! # Documents read back

  A document is what its written form is read as, whatever it says: any names, any texts in
  the place of material, any numbers. Each part is written as one JSON value and read from
  it, so the proof goes up from numbers and texts to versions, sets and the whole document,
  and then through the text of the JSON value and the bytes of the file.
-/

namespace KeyBroker

namespace Document

/-! ### Lists -/

/-- Items that are each read back are read back as a list. -/
theorem itemsOf_map {α : Type} {read : Json → Option α} {write : α → Json}
    (h : ∀ a, read (write a) = some a) (as : List α) :
    itemsOf read (.array (as.map write)) = some as := by
  have hall : (as.map write).mapM read = some as := by
    induction as with
    | nil => rfl
    | cons a rest ih =>
      rw [List.map_cons, List.mapM_cons, h, ih]
      rfl
  exact hall

/-! ### Fields -/

/-- The names of the fields of a document. -/
def fieldNames : List String :=
  ["sets", "name", "kind", "versions", "version", "secret", "private_key"]

/-- They are written as they are. -/
theorem escape_fieldNames : ∀ name ∈ fieldNames, Json.escape name.toList = name.toList := by
  decide

/-- The object with the given fields. -/
def object (fields : List (String × Json)) : Json :=
  .object (fields.map fun f => (f.1.toList, f.2))

/-- Fields that are read as they were written. -/
def Readable (fields : List (String × Json)) : Prop :=
  ∀ f ∈ fields, f.1 ∈ fieldNames ∧ Json.Written f.2

theorem written_object {fields : List (String × Json)} (h : Readable fields) :
    Json.Written (object fields) := by
  refine .object _ ?_ ?_
  · intro f hf
    obtain ⟨g, hg, rfl⟩ := List.mem_map.mp hf
    exact ⟨g.1.toList, (escape_fieldNames g.1 (h g hg).1).symm⟩
  · intro f hf
    obtain ⟨g, hg, rfl⟩ := List.mem_map.mp hf
    exact (h g hg).2

theorem namedFields_object {fields : List (String × Json)} (h : Readable fields) :
    namedFields (fields.map fun f => (f.1.toList, f.2)) = some fields := by
  induction fields with
  | nil => rfl
  | cons f rest ih =>
    have hname : Json.unescape? f.1.toList = some f.1 := by
      have hread := Json.unescape?_escape f.1
      rwa [escape_fieldNames f.1 (h f List.mem_cons_self).1] at hread
    have hrest := ih fun g hg => h g (List.mem_cons_of_mem f hg)
    rw [namedFields] at hrest ⊢
    rw [List.map_cons, List.mapM_cons, hrest]
    simp only [hname]
    rfl

/-- Fields are looked for under the names that they were written under. -/
theorem fieldValues_object {fields : List (String × Json)} (names : List String)
    (h : Readable fields) :
    fieldValues names (object fields) = names.mapM fun name =>
      match fields.filter (·.1 == name) with
      | [] => some none
      | [(_, v)] => some (some v)
      | _ => none := by
  rw [object, fieldValues, namedFields_object h]
  rfl

/-! ### Values of fields -/

/-- A number of a version is read back. -/
theorem numberOf_toDigits (n : UInt32) :
    numberOf (.number (Nat.toDigits 10 n.toNat)) = some n := by
  have hsize : n.toNat < UInt32.size := n.toNat_lt
  rw [numberOf, Text.numeral?_toDigits]
  simp only [if_pos hsize, UInt32.ofNat_toNat]

theorem textOf_ofString (s : String) : textOf (.ofString s) = some s := Json.unescape?_escape s

theorem optionalText_ofString (s : String) :
    optionalText (some (.ofString s)) = some (some s) := by
  show (textOf (.ofString s)).map some = _
  rw [textOf_ofString]
  rfl

theorem kindOf_ofString (kind : KeyKind) : kindOf (.ofString kind.name) = some kind := by
  have hread := Json.unescape?_escape kind.name
  show (Json.unescape? (Json.escape kind.name.toList)).bind KeyKind.ofName? = _
  rw [hread]
  cases kind <;> rfl

/-! ### Versions -/

/-- The fields of a version. -/
def versionFields (e : VersionEntry) : List (String × Json) :=
  ("version", .number (Nat.toDigits 10 e.number.toNat))
    :: (e.secret.toList.map fun s => ("secret", Json.ofString s))
    ++ e.privateKey.toList.map fun s => ("private_key", Json.ofString s)

theorem versionJson_eq (e : VersionEntry) : versionJson e = object (versionFields e) := by
  obtain ⟨number, secret, privateKey⟩ := e
  cases secret <;> cases privateKey <;> rfl

theorem readable_versionFields (e : VersionEntry) : Readable (versionFields e) := by
  intro f hf
  simp only [versionFields, List.cons_append, List.mem_cons, List.mem_append, List.mem_map] at hf
  rcases hf with rfl | ⟨s, -, rfl⟩ | ⟨s, -, rfl⟩
  · exact ⟨by simp [fieldNames], .number e.number.toNat⟩
  · exact ⟨by simp [fieldNames], .text s⟩
  · exact ⟨by simp [fieldNames], .text s⟩

/-- A version is read back, with or without material. -/
theorem versionOf_versionJson (e : VersionEntry) : versionOf (versionJson e) = some e := by
  have hnumber := numberOf_toDigits e.number
  have habsent : optionalText none = some none := rfl
  rw [versionJson_eq, versionOf, fieldValues_object _ (readable_versionFields e)]
  obtain ⟨number, secret, privateKey⟩ := e
  rcases secret with _ | secret <;> rcases privateKey with _ | privateKey
  all_goals simp [versionFields, hnumber, habsent, optionalText_ofString]

/-! ### Sets -/

/-- The fields of a set. -/
def setFields (s : SetEntry) : List (String × Json) :=
  [("name", .ofString s.name), ("kind", .ofString s.kind.name),
    ("versions", .array (s.versions.map versionJson))]

theorem readable_setFields (s : SetEntry) : Readable (setFields s) := by
  have hversions : Json.Written (.array (s.versions.map versionJson)) := by
    refine .array _ ?_
    intro v hv
    obtain ⟨e, -, rfl⟩ := List.mem_map.mp hv
    rw [versionJson_eq]
    exact written_object (readable_versionFields e)
  intro f hf
  simp only [setFields, List.mem_cons, List.not_mem_nil, or_false] at hf
  rcases hf with rfl | rfl | rfl
  · exact ⟨by simp [fieldNames], .text s.name⟩
  · exact ⟨by simp [fieldNames], .text s.kind.name⟩
  · exact ⟨by simp [fieldNames], hversions⟩

theorem setOf_setJson (s : SetEntry) : setOf (setJson s) = some s := by
  have hversions := itemsOf_map versionOf_versionJson s.versions
  show setOf (object (setFields s)) = _
  rw [setOf, fieldValues_object _ (readable_setFields s)]
  simp [setFields, textOf_ofString, kindOf_ofString, hversions]

/-! ### Documents -/

/-- The fields of a document. -/
def fields (d : Document) : List (String × Json) := [("sets", .array (d.sets.map setJson))]

theorem readable_fields (d : Document) : Readable d.fields := by
  intro f hf
  obtain rfl := List.mem_singleton.mp hf
  refine ⟨by simp [fieldNames], .array _ ?_⟩
  intro v hv
  obtain ⟨s, -, rfl⟩ := List.mem_map.mp hv
  exact written_object (readable_setFields s)

/-- A document is read back from its JSON value. -/
theorem ofJson_toJson (d : Document) : ofJson d.toJson = some d := by
  have hsets := itemsOf_map setOf_setJson d.sets
  show ofJson (object d.fields) = _
  rw [ofJson, fieldValues_object _ d.readable_fields]
  simp [fields, hsets]

/-- A document is read back from its text. -/
theorem ofText_text (d : Document) : ofText d.text = some d := by
  have hwritten : Json.Written d.toJson := written_object d.readable_fields
  rw [ofText, text, String.toList_ofList, Json.read?_render hwritten]
  exact ofJson_toJson d

/-! ### Files -/

/-- What is saved in a file, or where none is yet, is read back. -/
theorem ofFile_save {l : Location} (d : Document) (path : Path)
    (h : l = .vacant ∨ ∃ f, l = .file f) :
    (d.save l).1 = .ok () ∧ ofFile path (d.save l).2 = .ok d := by
  have hread := Text.Utf8.decode_encode d.text
  rcases h with rfl | ⟨f, rfl⟩
  · refine ⟨rfl, ?_⟩
    simp only [save, Location.write, ofFile, Location.readText, Location.read, hread, ofText_text]
  · refine ⟨rfl, ?_⟩
    simp only [save, Location.write, ofFile, Location.readText, Location.read, hread, ofText_text]

end Document

end KeyBroker
