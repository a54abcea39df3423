import ComponentAttrs.Proofs.Project.Settings
import ComponentAttrs.Proofs.Yaml.Building

/-!
What a settings file may hold. Text of any kind is harmless: malformed text and documents of another
shape count as no settings. Bytes that are no text are not.

* `length_decode_le`: no more characters than bytes, so a small file is decoded as a whole or not at
  all (`ofBytes_eq`);
* `loads_of_decodable`, `breaksOff_of_undecodable`: what becomes of a file, by what reading it gives;
* `settings_load_from_any_text`: the same by what the file holds.
-/
namespace ComponentAttrs

open ComponentAttrs.Files ComponentAttrs.Document

namespace Files

/-! ## Bytes that are no text -/

theorem length_foldLineEnds_le (cs : List Char) : (foldLineEnds cs).length ≤ cs.length := by
  fun_induction foldLineEnds cs with
  | case1 => exact Nat.le_refl _
  | case2 => exact Nat.le_refl _
  | case3 rest ih => exact Nat.le_succ_of_le ih
  | case4 d rest hd ih => exact Nat.succ_le_succ ih
  | case5 c d rest hc ih => exact Nat.succ_le_succ ih

theorem length_le_utf8Len (cs : List Char) : cs.length ≤ String.utf8Len cs := by
  induction cs with
  | nil => exact Nat.le_refl _
  | cons c cs ih =>
    have hpos := c.utf8Size_pos
    simp only [List.length_cons, String.utf8Len_cons]
    omega

/-- A text has at most as many characters as it takes bytes. -/
theorem length_fromUTF8?_le {bytes : ByteArray} {text : String}
    (h : String.fromUTF8? bytes = some text) : text.toList.length ≤ bytes.size := by
  unfold String.fromUTF8? at h
  split at h
  case isFalse => cases h
  case isTrue hvalid =>
    cases h
    exact (length_le_utf8Len _).trans_eq (String.utf8Len_toList _)

theorem length_openText?_le {bytes : ByteArray} {text : List Char}
    (h : openText? bytes = some text) : text.length ≤ bytes.size := by
  obtain ⟨n, -, hn⟩ := List.exists_of_findSome?_eq_some h
  dsimp only at hn
  split at hn
  case isFalse => cases hn
  case isTrue =>
    obtain ⟨s, hs, rfl⟩ := Option.map_eq_some_iff.mp hn
    have hlength := length_fromUTF8?_le hs
    rw [ByteArray.size_extract] at hlength
    refine (length_foldLineEnds_le _).trans ?_
    split
    · rw [List.length_dropLast]
      omega
    · omega

theorem length_leadingText_le {bytes : ByteArray} {text : List Char} (h : text.length ≤ bytes.size)
    (length place size fuel : Nat) :
    (leadingText bytes text length place size fuel).length ≤ bytes.size := by
  induction fuel generalizing text length place size with
  | zero => exact h
  | succ fuel ih =>
    rw [leadingText]
    split
    case h_1 => exact h
    case h_2 more hmore =>
      have hlength : more.length ≤ bytes.size :=
        (length_openText?_le hmore).trans (by simp [ByteArray.size_extract])
      split
      · exact hlength
      · exact ih hlength _ _ _

theorem length_decode_le (bytes : ByteArray) : (decode bytes).text.length ≤ bytes.size := by
  unfold decode
  split
  case h_1 text htext => exact (length_foldLineEnds_le _).trans (length_fromUTF8?_le htext)
  case h_2 => exact length_leadingText_le (Nat.zero_le _) _ _ _ _

end Files

namespace Yaml.Source

/-- Text of any kind does not end in undecodable bytes. -/
theorem stop_ofBytes {bytes : ByteArray} (h : (String.fromUTF8? bytes).isSome) :
    (ofBytes bytes).stop ≠ some .undecodable := by
  obtain ⟨text, htext⟩ := Option.isSome_iff_exists.mp h
  simp only [ofBytes, ofDecoded, decode, htext, if_true]
  split <;> nofun

/-- Of a small file that is no text nothing can be read. -/
theorem ofBytes_eq {bytes : ByteArray} (h : String.fromUTF8? bytes = none)
    (hsize : bytes.size < 2 * portionSize) : ofBytes bytes = ⟨[], some .undecodable⟩ := by
  have hlength := length_decode_le bytes
  have hcomplete : (decode bytes).complete = false := by simp [decode, h]
  have hstart : portionStart (decode bytes).text.length = 0 := if_pos (by omega)
  simp [ofBytes, ofDecoded, hcomplete, upTo, hstart]

end Yaml.Source

namespace Project

/-! ## Settings or none -/

/-- The entries of a document; a text that is no document has none. -/
def settingsIn (bytes : ByteArray) : Entries :=
  match Yaml.read (.ofBytes bytes) with
  | .ok v => fieldsOf v
  | .error _ => []

/-- No scalar is without the value that its tag promises. -/
def ScalarsHold (bytes : ByteArray) : Prop :=
  ∀ problem, Yaml.read (.ofBytes bytes) ≠ .error (.scalar problem)

section

variable (files : Tree) (base : Location) (root : Path)

/-- The settings are these, and both sections come out of them. -/
structure Loads (settings : Entries) : Prop where
  settings : ∃ log, loadSettings files base root = .ok ⟨settings, log⟩
  catalog : ∃ c, loadCatalogSettings files base root = .ok c
  output : ∃ o, loadOutputSettings files base root = .ok o

/-- There are no settings at all, and neither section. -/
structure BreaksOff (b : Breakdown) : Prop where
  settings : loadSettings files base root = .error b
  catalog : loadCatalogSettings files base root = .error b
  output : loadOutputSettings files base root = .error b

end

section

variable {files : Tree} {base : Location} {root : Path}

theorem loads_of_ok {loaded : Logged Entries} (h : loadSettings files base root = .ok loaded) :
    Loads files base root loaded.value :=
  ⟨⟨_, h⟩, ⟨_, by rw [loadCatalogSettings, h]; rfl⟩, ⟨_, by rw [loadOutputSettings, h]; rfl⟩⟩

theorem breaksOff_of_error {b : Breakdown} (h : loadSettings files base root = .error b) :
    BreaksOff files base root b :=
  ⟨h, by rw [loadCatalogSettings, h]; rfl, by rw [loadOutputSettings, h]; rfl⟩

theorem breaksOff_of_tooLong (h : files.isTooLong base (settingsPath root)) :
    BreaksOff files base root (.path .tooLong) :=
  breaksOff_of_error (if_pos h)

/-- No file, or a directory in its place. -/
theorem loads_of_no_file (hlookable : files.isTooLong base (settingsPath root) = false)
    (h : ∀ bytes, files.look base (settingsPath root) ≠ some (.file bytes)) :
    Loads files base root [] := by
  have hload : ∃ log, loadSettings files base root = .ok ⟨[], log⟩ := by
    simp only [loadSettings, hlookable, Bool.false_eq_true, if_false]
    split
    case h_1 => exact ⟨_, rfl⟩
    case h_2 => exact ⟨_, rfl⟩
    case h_3 bytes hfile => exact absurd hfile (h bytes)
  obtain ⟨log, hlog⟩ := hload
  exact loads_of_ok hlog

variable {bytes : ByteArray}

theorem loadSettings_of_file (hlookable : files.isTooLong base (settingsPath root) = false)
    (h : files.look base (settingsPath root) = some (.file bytes)) :
    loadSettings files base root = readSettings (settingsPath root) (.ofBytes bytes) := by
  simp only [loadSettings, hlookable, h, Bool.false_eq_true, if_false]

/-- Only undecodable bytes and scalars without a value break a settings file off. -/
theorem readSettings_ofBytes (path : Path)
    (hdecodable : Yaml.read (.ofBytes bytes) ≠ .error .undecodable) (hscalars : ScalarsHold bytes) :
    ∃ log, readSettings path (.ofBytes bytes) = .ok ⟨settingsIn bytes, log⟩ := by
  unfold readSettings settingsIn
  cases hread : Yaml.read (.ofBytes bytes) with
  | ok v => exact ⟨_, rfl⟩
  | error failure =>
    cases failure with
    | malformed problem => exact ⟨_, rfl⟩
    | undecodable => exact absurd hread hdecodable
    | scalar problem => exact absurd hread (hscalars problem)

theorem loads_of_decodable (hlookable : files.isTooLong base (settingsPath root) = false)
    (h : files.look base (settingsPath root) = some (.file bytes))
    (hdecodable : Yaml.read (.ofBytes bytes) ≠ .error .undecodable) (hscalars : ScalarsHold bytes) :
    Loads files base root (settingsIn bytes) := by
  obtain ⟨log, hlog⟩ := readSettings_ofBytes (settingsPath root) hdecodable hscalars
  rw [← loadSettings_of_file hlookable h] at hlog
  exact loads_of_ok hlog

theorem breaksOff_of_undecodable (hlookable : files.isTooLong base (settingsPath root) = false)
    (h : files.look base (settingsPath root) = some (.file bytes))
    (hread : Yaml.read (.ofBytes bytes) = .error .undecodable) :
    BreaksOff files base root .undecodable := by
  refine breaksOff_of_error ?_
  rw [loadSettings_of_file hlookable h, readSettings, hread]

end

/-- Text is never undecodable, whatever stands in it. -/
theorem read_text_ne_undecodable {bytes : ByteArray} (h : (String.fromUTF8? bytes).isSome) :
    Yaml.read (.ofBytes bytes) ≠ .error .undecodable := by
  intro hread
  have hdecodes := Yaml.decodes_read (Yaml.Source.stop_ofBytes h)
  rw [hread] at hdecodes
  exact hdecodes.failure rfl

/-- Small files are undecodable unless they are text. -/
theorem read_eq_undecodable {bytes : ByteArray} (h : String.fromUTF8? bytes = none)
    (hsize : bytes.size < 2 * portionSize) :
    Yaml.read (.ofBytes bytes) = .error .undecodable := by
  rw [Yaml.Source.ofBytes_eq h hsize]
  rfl

/-- **Settings come out of any text.** A path that is too long cannot even be looked up. Else nothing
and a directory in its place are no settings, and any text is read without breaking off, as long as
its scalars hold: malformed text and a document of another shape are no settings either. Bytes that
are no text do break off, all small files and those larger ones where reading gets so far. -/
theorem settings_load_from_any_text (files : Tree) (base : Location) (root : Path) :
    (files.isTooLong base (settingsPath root) → BreaksOff files base root (.path .tooLong)) ∧
    (files.isTooLong base (settingsPath root) = false →
      ((∀ bytes, files.look base (settingsPath root) ≠ some (.file bytes)) →
        Loads files base root []) ∧
      ∀ bytes, files.look base (settingsPath root) = some (.file bytes) →
        ((String.fromUTF8? bytes).isSome → ScalarsHold bytes →
          Loads files base root (settingsIn bytes)) ∧
        (String.fromUTF8? bytes = none → bytes.size < 2 * portionSize →
          BreaksOff files base root .undecodable) ∧
        (String.fromUTF8? bytes = none → ScalarsHold bytes →
          Loads files base root (settingsIn bytes) ∨ BreaksOff files base root .undecodable)) := by
  refine ⟨breaksOff_of_tooLong, fun hlookable => ⟨loads_of_no_file hlookable, ?_⟩⟩
  intro bytes hfile
  refine ⟨fun htext => ?_, fun hbytes hsize => ?_, fun _ hscalars => ?_⟩
  · exact loads_of_decodable hlookable hfile (read_text_ne_undecodable htext)
  · exact breaksOff_of_undecodable hlookable hfile (read_eq_undecodable hbytes hsize)
  · by_cases hread : Yaml.read (.ofBytes bytes) = .error .undecodable
    · exact .inr (breaksOff_of_undecodable hlookable hfile hread)
    · exact .inl (loads_of_decodable hlookable hfile hread hscalars)

/-- A list that is closed before it is opened. -/
def malformedSettings : ByteArray := "]".toUTF8

/-- A byte that stands in no text. -/
def undecodableSettings : ByteArray := ⟨#[0xFF]⟩

/-- Malformed text is no settings, and a byte that is no text breaks off. -/
theorem malformedSettings_load :
    Loads (settingsSite malformedSettings) [] (.ofString ".") [] ∧
      BreaksOff (settingsSite undecodableSettings) [] (.ofString ".") .undecodable := by
  have hread : (match Yaml.read (.ofBytes malformedSettings) with
      | .error (.malformed _) => true
      | _ => false) = true := by
    decide +kernel
  have hempty : settingsIn malformedSettings = [] := by
    unfold settingsIn
    split
    next v hv => simp [hv] at hread
    next => rfl
  have hscalars : ScalarsHold malformedSettings := by
    intro problem hproblem
    simp [hproblem] at hread
  constructor
  · have hmalformed := settings_load_from_any_text (settingsSite malformedSettings) []
      (.ofString ".")
    rw [← hempty]
    exact ((hmalformed.2 (by decide +kernel)).2 malformedSettings rfl).1 (by decide +kernel) hscalars
  · have hundecodable := settings_load_from_any_text (settingsSite undecodableSettings) []
      (.ofString ".")
    exact ((hundecodable.2 (by decide +kernel)).2 undecodableSettings rfl).2.1
      (by decide +kernel) (by decide)

/-- Not every settings file is harmless: a single byte that is no text breaks all three off. -/
theorem undecodableSettings_break_off :
    ¬ ∀ text : ByteArray, ∃ settings, Loads (settingsSite text) [] (.ofString ".") settings := by
  intro h
  obtain ⟨settings, ⟨log, hload⟩, -, -⟩ := h undecodableSettings
  have hread : Yaml.read (.ofBytes undecodableSettings) = .error .undecodable :=
    read_eq_undecodable (by decide +kernel) (by decide)
  have hbreaks : BreaksOff (settingsSite undecodableSettings) [] (.ofString ".") .undecodable :=
    breaksOff_of_undecodable (by decide +kernel) rfl hread
  rw [hbreaks.settings] at hload
  cases hload

end Project

end ComponentAttrs
