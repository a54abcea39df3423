import ComponentAttrs.Project.Settings
import ComponentAttrs.Proofs.Catalog.Documents

/-!
Which settings take effect. A section is what the document has under its name, if that is a mapping;
what it leaves open is filled in, and what cannot be used gives way to a standard with a warning. No
other entry of a section is touched.

* `field_put`, `filter_put`: one entry after another is put, and all entries but some;
* `field_fillAll`, `filter_fillAll`: the same after a whole list of standards is filled in;
* `settings_take_effect`: the settings that come of a document, and what is logged on the way.
-/
namespace ComponentAttrs

open ComponentAttrs.Files ComponentAttrs.Document

namespace Document

/-! ## Entries that are put -/

section

variable {entries : Entries} {key name : String} {v : Value}

@[simp] theorem sameKey_text_iff {k : Value} :
    sameKey k (.text key) = true ↔ k = .text key := by
  cases k <;> simp [sameKey]

theorem field_cons (k v : Value) (rest : Entries) (name : String) :
    field ((k, v) :: rest) name = if k.text? = some name then v else field rest name := by
  unfold field field?
  rw [List.find?_cons]
  by_cases h : k.text? = some name <;> simp [h]

theorem field_put : field (put entries (.text key) v) name =
    if key = name then v else field entries name := by
  induction entries with
  | nil => simp [put, field_cons, Value.text?]
  | cons e rest ih =>
    obtain ⟨k, old⟩ := e
    rw [put]
    split
    case isTrue h =>
      obtain rfl := sameKey_text_iff.mp h
      simp only [field_cons, Value.text?, Option.some.injEq]
      split <;> rfl
    case isFalse h =>
      rw [field_cons, field_cons, ih]
      by_cases hname : k.text? = some name
      · have hother : key ≠ name := by
          rintro rfl
          exact h (sameKey_text_iff.mpr (text?_eq_some_iff.mp hname))
        simp [hname, hother]
      · simp [hname]

/-- Is the key of an entry none of these names? -/
def isOther (names : List String) (e : Value × Value) : Bool := e.1.text?.all (· ∉ names)

theorem filter_put {names : List String} (h : key ∈ names) :
    (put entries (.text key) v).filter (isOther names) = entries.filter (isOther names) := by
  induction entries with
  | nil => simp [put, isOther, Value.text?, h]
  | cons e rest ih =>
    obtain ⟨k, old⟩ := e
    rw [put]
    split
    case isTrue hk =>
      obtain rfl := sameKey_text_iff.mp hk
      simp [isOther, Value.text?, h]
    case isFalse hk => simp only [List.filter_cons, ih]

end

end Document

namespace Project

/-! ## Standards that are filled in -/

/-- A value, or a standard where there is none. -/
def orStandard (standard v : Value) : Value := if v.isNull then standard else v

section

variable {entries : Entries} {name : String} {names : List String}

theorem field_fillIn {key : String} {standard : Value} :
    field (fillIn entries key standard) name =
      if key = name then orStandard standard (field entries name) else field entries name := by
  unfold fillIn orStandard
  by_cases hkey : key = name
  · subst hkey
    split <;> simp [field_put]
  · split <;> simp [field_put, hkey]

theorem filter_fillIn {key : String} (h : key ∈ names) (standard : Value) :
    (fillIn entries key standard).filter (isOther names) = entries.filter (isOther names) := by
  unfold fillIn
  split
  case isTrue => exact filter_put h
  case isFalse => rfl

theorem fillAll_cons (key : String) (standard : Value) (rest : List (String × Value)) :
    fillAll ((key, standard) :: rest) entries = fillAll rest (fillIn entries key standard) := rfl

/-- Each name is filled in on its own. -/
theorem field_fillAll {standards : List (String × Value)} (h : (standards.map Prod.fst).Nodup) :
    field (fillAll standards entries) name =
      ((standards.lookup name).map fun standard =>
        orStandard standard (field entries name)).getD (field entries name) := by
  induction standards generalizing entries with
  | nil => rfl
  | cons s rest ih =>
    obtain ⟨key, standard⟩ := s
    rw [List.map_cons, List.nodup_cons] at h
    rw [fillAll_cons, ih h.2, field_fillIn, List.lookup_cons]
    by_cases hkey : key = name
    · subst hkey
      have hlater : rest.lookup key = none := by
        rw [List.lookup_eq_none_iff]
        rintro ⟨other, _⟩ hmem
        have hne : key ≠ other := fun heq => h.1 (List.mem_map.mpr ⟨_, hmem, heq.symm⟩)
        simpa using hne
      simp [hlater]
    · have hname : (name == key) = false := by simpa using Ne.symm hkey
      simp [hkey, hname]

theorem filter_fillAll {standards : List (String × Value)}
    (h : ∀ s ∈ standards, s.1 ∈ names) :
    (fillAll standards entries).filter (isOther names) = entries.filter (isOther names) := by
  induction standards generalizing entries with
  | nil => rfl
  | cons s rest ih =>
    obtain ⟨hs, hrest⟩ := List.forall_mem_cons.mp h
    rw [fillAll_cons, ih hrest, filter_fillIn hs]

end

/-! ## Sections -/

/-- What a document has under a name; a section that is no mapping has no entries. -/
def sectionOf (v : Value) (name : String) : Entries := fieldsOf (field (fieldsOf v) name)

/-- Something stands where a section should be. -/
def warnsOfSection (v : Value) (name : String) : Bool :=
  (field (fieldsOf v) name).truthy && (field (fieldsOf v) name).entries?.isNone

theorem value_takeSection (v : Value) (name : String) (standards : List (String × Value)) :
    (takeSection (fieldsOf v) name standards).value = fillAll standards (sectionOf v name) := by
  unfold takeSection sectionOf
  cases field (fieldsOf v) name with
  | map o entries => cases entries <;> rfl
  | _ => simp only [Value.entries?, fieldsOf, Option.getD_none]; split <;> rfl

theorem log_takeSection (v : Value) (name : String) (standards : List (String × Value)) :
    (takeSection (fieldsOf v) name standards).log =
      if warnsOfSection v name then
        [warn ("Ignoring non-mapping '" ++ name ++ "' section in config")]
      else [] := by
  unfold takeSection warnsOfSection
  cases hvalue : field (fieldsOf v) name with
  | map o entries => cases entries <;> rfl
  | _ => simp only [Value.entries?, Option.isNone_none, Bool.and_true]; split <;> rfl

/-! ## What takes effect -/

/-- The settings file is there and holds a value. -/
structure SettingsHold (files : Tree) (base : Location) (root : Path) (v : Value) : Prop where
  lookable : files.isTooLong base (settingsPath root) = false
  holds : ∃ bytes, files.look base (settingsPath root) = some (.file bytes) ∧
    Yaml.read (.ofBytes bytes) = .ok v

theorem SettingsHold.loadSettings_eq {files : Tree} {base : Location} {root : Path} {v : Value}
    (h : SettingsHold files base root v) : loadSettings files base root = .ok ⟨fieldsOf v, []⟩ := by
  obtain ⟨bytes, hfile, hread⟩ := h.holds
  simp only [loadSettings, h.lookable, hfile, readSettings, hread, Bool.false_eq_true, if_false]
  rfl

/-- The catalog settings that a section makes in a project. -/
structure CatalogTakesEffect (root : Path) (entries : Entries) (c : CatalogSettings) : Prop where
  path : c.path = root.join (.ofString ((field entries "path").text?.getD standardCatalog))
  path_entry : field c.entries "path" = .text c.path.text
  publicOnly : c.publicOnly = orStandard (.bool false) (field entries "only_public")
  inTemplate : c.inTemplate = orStandard (.bool true) (field entries "xml_context")
  others : c.entries.filter (isOther ["path", "only_public", "xml_context"]) =
    entries.filter (isOther ["path", "only_public", "xml_context"])

/-- The output settings that a section makes. -/
structure OutputTakesEffect (entries : Entries) (o : OutputSettings) : Prop where
  format : o.format =
    if (field entries "format").text? = some yamlFormat then yamlFormat else jsonFormat
  format_entry : field o.entries "format" = .text o.format
  others : o.entries.filter (isOther ["format"]) = entries.filter (isOther ["format"])

/-- Something stands where the path should be. -/
def warnsOfPath (entries : Entries) : Bool :=
  !(field entries "path").isNull && (field entries "path").text?.isNone

/-- Something stands where the format should be. -/
def warnsOfFormat (entries : Entries) : Bool :=
  !(field entries "format").isNull &&
    !([some jsonFormat, some yamlFormat].contains (field entries "format").text?)

theorem isNull_iff {v : Value} : v.isNull = true ↔ v = .null := by
  cases v <;> simp [Value.isNull]

/-- A standard for what is null is as good as one for what is no text. -/
theorem getD_text?_orStandard (s : String) (v : Value) :
    (orStandard (.text s) v).text?.getD s = v.text?.getD s := by
  cases v <;> rfl

theorem orStandard_eq_text_iff {s t : String} {v : Value} :
    orStandard (.text s) v = .text t ↔ v = .null ∧ s = t ∨ v = .text t := by
  cases v <;> simp [orStandard, Value.isNull]

section

variable (root : Path) (v : Value)

theorem field_catalog (name : String) {standard : Value}
    (h : catalogDefaults.lookup name = some standard) :
    field (takeSection (fieldsOf v) "catalog" catalogDefaults).value name =
      orStandard standard (field (sectionOf v "catalog") name) := by
  rw [value_takeSection, field_fillAll (by decide), h]
  rfl

theorem field_output :
    field (takeSection (fieldsOf v) "output" outputDefaults).value "format" =
      orStandard (.text jsonFormat) (field (sectionOf v "output") "format") := by
  rw [value_takeSection, field_fillAll (by decide)]
  rfl

/-- The catalog settings, whether the path that is given is a text or not. -/
theorem catalogSettings_eq (settings : Entries) :
    let taken := takeSection settings "catalog" catalogDefaults
    let given := field taken.value "path"
    let path := root.join (.ofString (given.text?.getD standardCatalog))
    catalogSettings root settings =
      ⟨⟨path, put taken.value (.text "path") (.text path.text)⟩,
        taken.log ++ if given.text?.isNone then
          [warn (aboutSetting settings "catalog" catalogDefaults
            "Ignoring non-string catalog path " given "")]
        else []⟩ := by
  intro taken given path
  simp only [catalogSettings, path, given, taken]
  cases (field (takeSection settings "catalog" catalogDefaults).value "path").text? <;> rfl

theorem catalogTakesEffect :
    CatalogTakesEffect root (sectionOf v "catalog") (catalogSettings root (fieldsOf v)).value := by
  rw [catalogSettings_eq]
  have hpath := field_catalog v "path" rfl
  constructor
  · rw [hpath, getD_text?_orStandard]
  · rw [field_put, if_pos rfl]
  · rw [CatalogSettings.publicOnly, field_put, if_neg (by decide)]
    exact field_catalog v _ rfl
  · rw [CatalogSettings.inTemplate, field_put, if_neg (by decide)]
    exact field_catalog v _ rfl
  · rw [filter_put (by decide), value_takeSection]
    exact filter_fillAll (by decide)

theorem log_catalogSettings :
    (catalogSettings root (fieldsOf v)).log =
      (takeSection (fieldsOf v) "catalog" catalogDefaults).log ++
        if warnsOfPath (sectionOf v "catalog") then
          [warn (aboutSetting (fieldsOf v) "catalog" catalogDefaults
            "Ignoring non-string catalog path " (field (sectionOf v "catalog") "path") "")]
        else [] := by
  rw [catalogSettings_eq]
  dsimp only
  rw [field_catalog v "path" rfl, warnsOfPath]
  cases hpath : field (sectionOf v "catalog") "path" <;>
    simp [orStandard, Value.isNull, Value.text?]

theorem knownFormat?_eq_some_iff {v : Value} {format : String} :
    knownFormat? v = some format ↔
      v = .text format ∧ (format = jsonFormat ∨ format = yamlFormat) := by
  simp [knownFormat?, Option.filter_eq_some_iff, text?_eq_some_iff]

/-- The output settings, whether the format that is given is known or not. -/
theorem outputSettings_cases (settings : Entries) :
    let taken := takeSection settings "output" outputDefaults
    let given := field taken.value "format"
    (∃ format, given = .text format ∧ (format = jsonFormat ∨ format = yamlFormat) ∧
      outputSettings settings = ⟨⟨format, taken.value⟩, taken.log⟩) ∨
    ((∀ format, format = jsonFormat ∨ format = yamlFormat → given ≠ .text format) ∧
      outputSettings settings =
        ⟨⟨jsonFormat, put taken.value (.text "format") (.text jsonFormat)⟩,
          taken.log ++ [warn (aboutSetting settings "output" outputDefaults
            "Unknown output format " given ", using json")]⟩) := by
  intro taken given
  simp only [outputSettings]
  cases hknown : knownFormat? given with
  | some format =>
    left
    obtain ⟨hgiven, hformat⟩ := knownFormat?_eq_some_iff.mp hknown
    exact ⟨format, hgiven, hformat, rfl⟩
  | none =>
    right
    refine ⟨fun format hformat hgiven => ?_, rfl⟩
    rw [knownFormat?_eq_some_iff.mpr ⟨hgiven, hformat⟩] at hknown
    cases hknown

theorem outputTakesEffect :
    OutputTakesEffect (sectionOf v "output") (outputSettings (fieldsOf v)).value := by
  have hothers : (takeSection (fieldsOf v) "output" outputDefaults).value.filter
      (isOther ["format"]) = (sectionOf v "output").filter (isOther ["format"]) := by
    rw [value_takeSection]
    exact filter_fillAll (by decide)
  have hgiven := field_output v
  rcases outputSettings_cases (fieldsOf v) with ⟨format, htext, hformat, heq⟩ | ⟨hunknown, heq⟩
  · rw [heq]
    refine ⟨?_, htext, hothers⟩
    rw [hgiven, orStandard_eq_text_iff] at htext
    rcases htext with ⟨hnull, rfl⟩ | htext
    · rw [hnull]
      rfl
    · rw [htext]
      rcases hformat with rfl | rfl <;> rfl
  · rw [heq]
    refine ⟨(if_neg fun hyaml => ?_).symm, field_put.trans (if_pos rfl),
      (filter_put (by decide)).trans hothers⟩
    rw [text?_eq_some_iff] at hyaml
    rw [hyaml] at hgiven
    exact hunknown yamlFormat (.inr rfl) hgiven

theorem log_outputSettings :
    (outputSettings (fieldsOf v)).log =
      (takeSection (fieldsOf v) "output" outputDefaults).log ++
        if warnsOfFormat (sectionOf v "output") then
          [warn (aboutSetting (fieldsOf v) "output" outputDefaults
            "Unknown output format " (field (sectionOf v "output") "format") ", using json")]
        else [] := by
  have hgiven := field_output v
  rcases outputSettings_cases (fieldsOf v) with ⟨format, htext, hformat, heq⟩ | ⟨hunknown, heq⟩
  · have hquiet : warnsOfFormat (sectionOf v "output") = false := by
      rw [hgiven, orStandard_eq_text_iff] at htext
      unfold warnsOfFormat
      rcases htext with ⟨hnull, rfl⟩ | htext
      · rw [hnull]
        rfl
      · rw [htext]
        rcases hformat with rfl | rfl <;> decide
    simp [heq, hquiet]
  · have hfull : (field (sectionOf v "output") "format").isNull = false := by
      rw [Bool.eq_false_iff, ne_eq, isNull_iff]
      intro hnull
      rw [hnull] at hgiven
      exact hunknown jsonFormat (.inl rfl) hgiven
    have hsame : orStandard (.text jsonFormat) (field (sectionOf v "output") "format") =
        field (sectionOf v "output") "format" := by
      rw [orStandard, hfull]
      rfl
    rw [hgiven, hsame] at heq hunknown
    have hwarns : warnsOfFormat (sectionOf v "output") = true := by
      simp only [warnsOfFormat, hfull, Bool.not_false, Bool.true_and, Bool.not_eq_true',
        List.contains_eq_mem, List.mem_cons, List.not_mem_nil, or_false, decide_eq_false_iff_not,
        not_or, text?_eq_some_iff]
      exact ⟨hunknown _ (.inl rfl), hunknown _ (.inr rfl)⟩
    simp [heq, hwarns]

end

/-- **What takes effect.** Where the settings file holds a value, both kinds of settings are read. The
path is the text that the catalog section has for it, seen from the root, or the standard catalog;
the two choices are what the section says, or the standards where it says nothing or null; the format
is `yaml` if the output section says so and `json` in all other cases. All other entries of a section
stay as they are. There is one warning for a section that is something but no mapping, one for a path
that is something but no text, and one for a format that is something but none of the two, and no
other. -/
theorem settings_take_effect {files : Tree} {base : Location} {root : Path} {v : Value}
    (h : SettingsHold files base root v) :
    ∃ c o, loadCatalogSettings files base root = .ok c ∧
      loadOutputSettings files base root = .ok o ∧
      CatalogTakesEffect root (sectionOf v "catalog") c.value ∧
      OutputTakesEffect (sectionOf v "output") o.value ∧
      c.log =
        (if warnsOfSection v "catalog" then
          [warn ("Ignoring non-mapping 'catalog' section in config")] else []) ++
        (if warnsOfPath (sectionOf v "catalog") then
          [warn (aboutSetting (fieldsOf v) "catalog" catalogDefaults
            "Ignoring non-string catalog path " (field (sectionOf v "catalog") "path") "")]
        else []) ∧
      o.log =
        (if warnsOfSection v "output" then
          [warn ("Ignoring non-mapping 'output' section in config")] else []) ++
        (if warnsOfFormat (sectionOf v "output") then
          [warn (aboutSetting (fieldsOf v) "output" outputDefaults
            "Unknown output format " (field (sectionOf v "output") "format") ", using json")]
        else []) := by
  have hcatalog : loadCatalogSettings files base root = .ok (catalogSettings root (fieldsOf v)) := by
    rw [loadCatalogSettings, h.loadSettings_eq]
    rfl
  have houtput : loadOutputSettings files base root = .ok (outputSettings (fieldsOf v)) := by
    rw [loadOutputSettings, h.loadSettings_eq]
    rfl
  refine ⟨_, _, hcatalog, houtput, catalogTakesEffect root v, outputTakesEffect v, ?_, ?_⟩
  · rw [log_catalogSettings, log_takeSection]
    rfl
  · rw [log_outputSettings, log_takeSection]
    rfl

/-- A project with these settings and nothing else. -/
def settingsSite (text : ByteArray) : Tree :=
  ⟨[([markerName], .directory), ([markerName, "config.yaml"], .file text)]⟩

/-- The path is a number and the output section a list. -/
def oddSettings : ByteArray := "catalog: {path: 7, xml_context: no}\noutput: [yaml]\n".toUTF8

/-- Both give way to the standards, with a warning each; the choice that is made stays. -/
theorem oddSettings_take_effect :
    ∃ v, SettingsHold (settingsSite oddSettings) [] (.ofString ".") v ∧
      ∃ c o, loadCatalogSettings (settingsSite oddSettings) [] (.ofString ".") = .ok c ∧
        loadOutputSettings (settingsSite oddSettings) [] (.ofString ".") = .ok o ∧
        c.value.path = .ofString standardCatalog ∧ c.value.inTemplate.truthy = false ∧
        c.log.length = 1 ∧ o.value.format = jsonFormat ∧ o.log.length = 1 := by
  have hread : (Yaml.read (.ofBytes oddSettings)).toOption.any fun v =>
      !warnsOfSection v "catalog" && warnsOfPath (sectionOf v "catalog") &&
      !(field (sectionOf v "catalog") "xml_context").isNull &&
      !(field (sectionOf v "catalog") "xml_context").truthy &&
      warnsOfSection v "output" && (field (sectionOf v "output") "format").isNull := by
    decide +kernel
  cases hvalue : Yaml.read (.ofBytes oddSettings) with
  | error e =>
    rw [hvalue] at hread
    cases hread
  | ok v =>
    rw [hvalue] at hread
    simp only [Except.toOption, Option.any_some, Bool.and_eq_true, Bool.not_eq_true'] at hread
    obtain ⟨⟨⟨⟨⟨hcatalog, hpath⟩, hfull⟩, hchoice⟩, houtput⟩, hformat⟩ := hread
    have hholds : SettingsHold (settingsSite oddSettings) [] (.ofString ".") v :=
      ⟨by decide +kernel, oddSettings, rfl, hvalue⟩
    obtain ⟨c, o, hc, ho, hc', ho', hclog, holog⟩ := settings_take_effect hholds
    refine ⟨v, hholds, c, o, hc, ho, ?_, ?_, by simp [hclog, hcatalog, hpath], ?_, ?_⟩
    · simp only [warnsOfPath, Bool.and_eq_true, Option.isNone_iff_eq_none] at hpath
      rw [hc'.path, hpath.2]
      rfl
    · rw [hc'.inTemplate, orStandard, hfull]
      exact hchoice
    · rw [ho'.format, isNull_iff.mp hformat]
      rfl
    · have hquiet : warnsOfFormat (sectionOf v "output") = false := by simp [warnsOfFormat, hformat]
      simp [holog, houtput, hquiet]

end Project

end ComponentAttrs
