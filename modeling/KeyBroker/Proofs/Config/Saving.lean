import KeyBroker.Proofs.Access.Entities
import KeyBroker.Proofs.Config.Rendering
import KeyBroker.Proofs.Wire.Utf8

/-! # Saved configurations read back

  A configuration that is saved is read back as itself, whatever it says. The sections that
  are written add up to one table, whose values are read as the parts of the configuration,
  and since every value is stated, the surroundings of the reader do not matter.
-/

namespace KeyBroker

/-! ### Values -/

/-- A path that has a text is that of the text, -/
theorem Path.ofText_of_text? {p : Path} {text : String} (h : p.text? = some text) :
    Path.ofText text = p := by
  unfold Path.text? at h
  cases hdecode : Text.Utf8.decode p.bytes with
  | error fault =>
    rw [hdecode] at h
    cases h
  | ok s =>
    rw [hdecode] at h
    cases h
    rw [Path.ofText, ← Text.Utf8.eq_encode_of_decode hdecode]

/-- and one that has none is the path of no text. -/
theorem Path.text?_eq_none_iff {p : Path} : p.text? = none ↔ ∀ text, p ≠ Path.ofText text := by
  constructor
  · rintro h text rfl
    rw [Path.text?, Path.ofText, Text.Utf8.decode_encode] at h
    cases h
  · intro h
    cases htext : p.text? with
    | none => rfl
    | some text => exact absurd (Path.ofText_of_text? htext).symm (h text)

/-- A number is read back if it is within the limit. -/
theorem Toml.natural?_integer {limit n : Nat} (h : n ≤ limit) :
    natural? limit (.integer n) = some n := by
  have hbounds : (0 : Int) ≤ n ∧ (n : Int) ≤ limit := by omega
  rw [natural?, if_pos hbounds]
  rfl

theorem Toml.word32?_integer (n : UInt32) : word32? (.integer n.toNat) = some n := by
  have hlimit : n.toNat ≤ UInt32.size - 1 := Nat.le_sub_one_of_lt n.toNat_lt
  rw [word32?, natural?_integer hlimit, Option.map_some, UInt32.ofNat_toNat]

theorem Toml.word64?_integer (n : UInt64) : word64? (.integer n.toNat) = some n := by
  have hlimit : n.toNat ≤ UInt64.size - 1 := Nat.le_sub_one_of_lt n.toNat_lt
  rw [word64?, natural?_integer hlimit, Option.map_some, UInt64.ofNat_toNat]

/-- Items that are each read back are read back as a list. -/
theorem Toml.mapM_map {α : Type} {read : Toml → Option α} {write : α → Toml}
    (h : ∀ a, read (write a) = some a) (as : List α) : (as.map write).mapM read = some as := by
  have hsame : (read ∘ write) = fun a => pure (id a) := funext h
  rw [List.mapM_map, hsame, List.mapM_pure, List.map_id]
  rfl

namespace Config

open Toml

/-! ### Entries -/

variable {c : Config} {socketPath storePath : String}

/-- The series of the grants, if there are any. -/
def seriesOf (c : Config) : List (String × Toml) :=
  if c.grants.isEmpty then []
  else [("grants", .series ((c.grants.map grantFields).map (.table .header)))]

/-- The entries that a configuration is written as. -/
def entriesOfConfig (c : Config) (socketPath storePath : String) : List (String × Toml) :=
  c.prefaceFields ++ tablesOf (c.plainTables socketPath storePath) ++ c.seriesOf

/-- The tables before the grants are added. -/
theorem addSections_plainTables (c : Config) (socketPath storePath : String) :
    addSections c.prefaceFields
        ((c.plainTables socketPath storePath).map fun t => Section.named false t.1 t.2)
      = some (c.prefaceFields ++ tablesOf (c.plainTables socketPath storePath)) := by
  refine addSections_tables ?_ ?_
  · show (c.prefaceFields.map Prod.fst ++ ["server", "keystore", "algorithms"]).Nodup
    unfold prefaceFields
    split <;> decide
  · intro t ht
    simp only [plainTables, List.mem_cons, List.not_mem_nil, or_false] at ht
    obtain rfl | rfl | rfl := ht
    · show ["socket_path", "socket_mode", "max_frame_bytes", "probe_timeout_ms"].Nodup
      decide
    · exact List.nodup_singleton _
    · exact List.nodup_singleton _

/-- Behind them the grants are. -/
theorem addSections_grants (c : Config) (socketPath storePath : String) :
    addSections (c.prefaceFields ++ tablesOf (c.plainTables socketPath storePath))
        ((c.grants.map grantFields).map (Section.named true "grants"))
      = some (c.entriesOfConfig socketPath storePath) := by
  unfold entriesOfConfig prefaceFields seriesOf
  cases hgrants : c.grants with
  | nil =>
    show some _ = some (_ ++ [])
    rw [List.append_nil]
  | cons g gs =>
    have hnew : (tablesOf (c.plainTables socketPath storePath)).lookup "grants" = none := rfl
    have hnames : ∀ fields ∈ (g :: gs).map grantFields, (fields.map Prod.fst).Nodup := by
      intro fields hfields
      obtain ⟨g, -, rfl⟩ := List.mem_map.mp hfields
      show ["entity", "set", "access"].Nodup
      decide
    exact addSections_first hnew hnames

/-- What is written adds up to the entries. -/
theorem ofStatements_document (c : Config) (socketPath storePath : String) :
    ofStatements (entryStatements (entriesOf c.prefaceFields)
        ++ (c.sectionsOf socketPath storePath).flatMap Section.statements)
      = some (.table .header (c.entriesOfConfig socketPath storePath)) := by
  have hpreface : fill [] (entriesOf c.prefaceFields) = some c.prefaceFields := by
    refine fill_entriesOf ?_
    unfold prefaceFields
    split <;> decide
  have hsections : addSections c.prefaceFields (c.sectionsOf socketPath storePath)
      = some (c.entriesOfConfig socketPath storePath) := by
    rw [sectionsOf, addSections_append, addSections_plainTables, Option.bind_some,
      addSections_grants]
  rw [ofStatements, sections_statements]
  simp only [hpreface, hsections, Option.map_some]

/-! ### Reading -/

/-- A grant is read back. -/
theorem ofToml_grant (g : Grant) : Grant.ofToml (.table .header (grantFields g)) = some g := by
  have hentity : Entity.ofToml (.text g.entity.text) = some g.entity := by
    show (Entity.ofText g.entity.text).toOption = _
    rw [Entity.ofText_text]
    rfl
  have haccess : Capability.ofToml (.text g.access.name) = some g.access := by
    cases g.access <;> rfl
  have hfields : (Toml.table .header (grantFields g)).fields? ["entity", "set", "access"]
      = some [some (.text g.entity.text), some (.text g.pattern), some (.text g.access.name)] := rfl
  simp only [Grant.ofToml, hfields, hentity, haccess]
  rfl

/-- The server is read back, -/
theorem ofToml_server (standard : ServerConfig)
    (hsocket : c.server.socketPath.text? = some socketPath) :
    ServerConfig.ofToml standard (.table .header (fieldsOf (c.serverSettings socketPath)))
      = some c.server := by
  have hfields : (Toml.table .header (fieldsOf (c.serverSettings socketPath))).fields?
        ["socket_path", "socket_mode", "max_frame_bytes", "probe_timeout_ms"]
      = some [some (.text socketPath), some (.integer c.server.socketMode.toNat),
          some (.integer c.server.frameLimit.toNat),
          some (.integer c.server.probeTimeout.toNat)] := rfl
  have hpath : Path.ofToml (.text socketPath) = some c.server.socketPath := by
    show some (Path.ofText socketPath) = _
    rw [Path.ofText_of_text? hsocket]
  simp only [ServerConfig.ofToml, hfields, orElse, hpath, word32?_integer, word64?_integer]
  rfl

/-- and so are the place of the key store -/
theorem storePathOf_text (standard : Path) (hstore : c.storePath.text? = some storePath) :
    storePathOf standard (.table .header (fieldsOf [("path", .text storePath)]))
      = some c.storePath := by
  show some (Path.ofText storePath) = _
  rw [Path.ofText_of_text? hstore]

/-- and the names of the algorithms refused. -/
theorem disabledOf_names (names : List String) :
    disabledOf (.table .header (fieldsOf [("disabled", .names names)])) = some names := by
  have hread : ∀ name : String, Toml.text? (.text name) = some name := fun _ => rfl
  exact mapM_map hread names

/-- From the entries the configuration is read back, whatever the standard values. -/
theorem ofToml_document (standard : Config) (hsocket : c.server.socketPath.text? = some socketPath)
    (hstore : c.storePath.text? = some storePath) :
    ofToml standard (.table .header (c.entriesOfConfig socketPath storePath)) = some c := by
  -- the grants are an empty array before the tables, or a series behind them
  obtain ⟨grants, hgrants, hitems⟩ : ∃ grants : Toml,
      (Toml.table .header (c.entriesOfConfig socketPath storePath)).fields?
          ["server", "keystore", "algorithms", "grants"]
        = some [some (.table .header (fieldsOf (c.serverSettings socketPath))),
            some (.table .header (fieldsOf [("path", .text storePath)])),
            some (.table .header (fieldsOf [("disabled", .names c.disabled)])), some grants]
      ∧ grants.items?.bind (·.mapM Grant.ofToml) = some c.grants := by
    unfold entriesOfConfig prefaceFields seriesOf
    cases hgrants : c.grants with
    | nil => exact ⟨.array [], rfl, rfl⟩
    | cons g gs =>
      refine ⟨.series (((g :: gs).map grantFields).map (.table .header)), rfl, ?_⟩
      rw [List.map_map]
      exact mapM_map ofToml_grant (g :: gs)
  simp only [ofToml, hgrants, orElse, ofToml_server standard.server hsocket,
    storePathOf_text standard.storePath hstore, disabledOf_names, hitems]
  rfl

/-- The written form of a configuration is read back as the configuration. -/
theorem ofText_of_text? {text : String} (h : c.text? = some text) (s : Surroundings) :
    ofText s text = some c := by
  unfold text? at h
  split at h
  · next socketPath storePath hsocket hstore =>
    split at h
    · next hrepresentable =>
      cases h
      have hlines := lines_document socketPath storePath hrepresentable
      rw [ofText, read?, String.toList_ofList, hlines.statements?, Option.bind_some,
        ofStatements_document, Option.bind_some, ofToml_document _ hsocket hstore]
    · cases h
  · cases h

/-- What can keep a configuration from having a written form: a path that is the path of no
    text, or a number beyond the integers of the format. -/
inductive Unwritable (c : Config) : Prop where
  | socketPath (h : ∀ text, c.server.socketPath ≠ Path.ofText text)
  | storePath (h : ∀ text, c.storePath ≠ Path.ofText text)
  | frameLimit (h : 0x8000000000000000 ≤ c.server.frameLimit.toNat)
  | probeTimeout (h : 0x8000000000000000 ≤ c.server.probeTimeout.toNat)

/-- Nothing else does. -/
theorem text?_eq_none_iff : c.text? = none ↔ c.Unwritable := by
  constructor
  · intro h
    cases hsocket : c.server.socketPath.text? with
    | none => exact .socketPath (Path.text?_eq_none_iff.mp hsocket)
    | some socketPath =>
      cases hstore : c.storePath.text? with
      | none => exact .storePath (Path.text?_eq_none_iff.mp hstore)
      | some storePath =>
        have hlarge : ¬ c.representable = true := by
          intro hsmall
          simp [text?, hsocket, hstore, hsmall] at h
        rw [representable_iff, Decidable.not_and_iff_not_or_not, Nat.not_lt, Nat.not_lt] at hlarge
        obtain hlimit | htimeout := hlarge
        · exact .frameLimit hlimit
        · exact .probeTimeout htimeout
  · intro h
    unfold text?
    split
    · next socketPath storePath hsocket hstore =>
      refine if_neg fun hsmall => ?_
      obtain ⟨hlimit, htimeout⟩ := representable_iff.mp hsmall
      cases h with
      | socketPath h => rw [Path.text?_eq_none_iff.mpr h] at hsocket; cases hsocket
      | storePath h => rw [Path.text?_eq_none_iff.mpr h] at hstore; cases hstore
      | frameLimit h => exact Nat.not_le.mpr hlimit h
      | probeTimeout h => exact Nat.not_le.mpr htimeout h
    · rfl

/-- Where a text was written it is read. -/
theorem readText_of_write {mode : Nat} {text : String} {l : Location}
    (h : (l.write mode text).1 = .ok ()) : (l.write mode text).2.readText = .ok text := by
  cases l with
  | vacant => simp [Location.write, Location.readText, Location.read]
  | file f => simp [Location.write, Location.readText, Location.read]
  | directory m => cases h
  | blocked cause => cases h

/-- A configuration that is saved has a written form, and that is what is there. -/
theorem readText_of_save {l : Location} (h : (c.save l).1 = .ok ()) :
    ∃ text, c.text? = some text ∧ (c.save l).2.readText = .ok text := by
  unfold save at h ⊢
  cases htext : c.text? with
  | none =>
    rw [htext] at h
    cases h
  | some text =>
    refine ⟨text, rfl, ?_⟩
    rw [htext] at h
    cases hwrite : l.write fileMode text with
    | mk result after =>
      simp only [hwrite] at h ⊢
      cases result with
      | error cause => cases h
      | ok _ =>
        have hread := readText_of_write (congrArg Prod.fst hwrite)
        rwa [hwrite] at hread

/-- A configuration that is saved reads back as itself, whatever it says and whatever the
    surroundings of the reader, and if it was valid it still is. It has no written form just if
    one of its paths is not UTF-8 or one of its numbers is no integer of the format, and then
    what is there is not touched. -/
theorem reads_back_what_was_saved (c : Config) (l : Location) :
    (c.text? = none ↔ c.Unwritable)
      ∧ (c.text? = none → c.save l = (.error (.config .encoding), l))
      ∧ ((c.save l).1 = .ok () → ∀ s path, ofFile s path (c.save l).2 = .ok c)
      ∧ (c.check = .ok () → (c.save l).1 = .ok () →
        ∀ s path, ∃ c', ofFile s path (c.save l).2 = .ok c' ∧ c'.check = .ok ()) := by
  have hreload : (c.save l).1 = .ok () → ∀ s path, ofFile s path (c.save l).2 = .ok c := by
    intro hsaved s path
    obtain ⟨text, htext, hread⟩ := readText_of_save hsaved
    rw [ofFile, hread]
    simp only [ofText_of_text? htext s]
  refine ⟨text?_eq_none_iff, fun hnone => ?_, hreload, fun hchecked hsaved s path => ?_⟩
  · rw [save, hnone]
  · exact ⟨c, hreload hsaved s path, hchecked⟩

/-- Quotes of both kinds, three in a row, strokes, line feeds and other controls come back from a
    file; a path that is not UTF-8 leaves it as it was. -/
theorem reads_back_what_was_saved_of_quotes :
    let c : Config :=
      { server := { socketPath := Path.ofText "/run/it's \"s\"", frameLimit := 4096 }
        storePath := Path.ofText "\n\\keys\x01"
        disabled := ["SHA-1", "s-h-a-512"]
        grants := [⟨.user 1000, "'''\"\"\"\r\n*", .retrieve⟩, ⟨.anyone, "a\nb\\", .operate⟩] }
    let l : Location := .file ⟨0o600, []⟩
    c.check = .ok () ∧ (c.save l).1 = .ok () ∧ (∀ s path, ofFile s path (c.save l).2 = .ok c)
      ∧ { c with storePath := ⟨[0xff]⟩ }.save l = (.error (.config .encoding), l) := by
  intro c l
  have hchecked : c.check = .ok () := by rfl
  obtain ⟨text, htext⟩ := Option.isSome_iff_exists.mp (by decide +kernel : c.text?.isSome = true)
  have hsaved : (c.save l).1 = .ok () := by
    rw [save, htext]
    rfl
  have hnone : { c with storePath := ⟨[0xff]⟩ }.text? = none := by decide +kernel
  obtain ⟨-, -, hreload, -⟩ := reads_back_what_was_saved c l
  obtain ⟨-, huntouched, -, -⟩ := reads_back_what_was_saved { c with storePath := ⟨[0xff]⟩ } l
  exact ⟨hchecked, hsaved, hreload hsaved, huntouched hnone⟩

end Config

end KeyBroker
