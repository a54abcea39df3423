import ComponentAttrs.Catalog.File
import ComponentAttrs.Proofs.Catalog.Entries

/-!
Catalogs from files and catalogs from documents. A file is read as the document in it, and its path
stands in where the document names no file; but a document that is empty is put aside before anyone
looks at its kind.

* `ofValue_some`: what the path of a file does to the catalog in it;
* `load_eq_ofValue_iff`: for which documents the file and the document are read alike.
-/
namespace ComponentAttrs

open ComponentAttrs.Files ComponentAttrs.Document

/-- The entry as the file has it: the path of the file stands in for a path of its own. -/
def Entry.inFile (path : Path) (e : Entry) : Entry :=
  let own := e.definition
  { e with definition := { own with sourcePath := own.sourcePath.or (some path) } }

namespace Catalog

/-- The same names, declarations and lists, with the path of a file. -/
def inFile (path : Path) (c : Catalog) : Catalog where
  entries := c.entries.map (Entry.inFile path)
  globalMixins := c.globalMixins
  globalDirectives := c.globalDirectives
  sourcePath := some path
  names_nodup := by
    rw [List.map_map]
    exact c.names_nodup

/-- A file that declares nothing. -/
def empty (path : Path) : Catalog := ⟨[], [], [], some path, List.nodup_nil⟩

@[simp] theorem names_inFile (path : Path) (c : Catalog) : (c.inFile path).names = c.names := by
  rw [names, inFile, List.map_map]
  rfl

end Catalog

/-! ## Reading with a path -/

theorem mapM_eq_map_mapM {ε α β γ : Type} {f : α → Except ε β} {g : α → Except ε γ}
    {change : β → γ} (h : ∀ a, g a = change <$> f a) (as : List α) :
    as.mapM g = List.map change <$> as.mapM f := by
  induction as with
  | nil => rfl
  | cons a as ih =>
    simp only [List.mapM_cons, h, ih, map_bind, bind_map_left, map_pure, List.map_cons]

section

variable (path : Path)

theorem readSourcePath_some (v : Value) :
    readSourcePath (some path) v = (fun own => own.or (some path)) <$> readSourcePath none v := by
  unfold readSourcePath
  split
  · cases v.text? <;> rfl
  · rfl

/-- Nothing but the source path of an entry depends on the path of the file. -/
theorem readEntry_some (name : String) (v : Value) :
    readEntry (some path) name v = Entry.inFile path <$> readEntry none name v := by
  simp only [readEntry, readSourcePath_some, map_bind, bind_map_left]
  rfl

theorem readEntries_some (declarations : Entries) :
    readEntries (some path) declarations =
      List.map (Entry.inFile path) <$> readEntries none declarations := by
  refine mapM_eq_map_mapM (fun d => ?_) declarations
  simp only [readEntry_some, map_bind]

theorem map_inFile_gatherEntries (declared : List Entry) :
    (gatherEntries declared).map (Entry.inFile path) =
      gatherEntries (declared.map (Entry.inFile path)) :=
  map_gatherBy fun _ _ => rfl

/-- A document is the same catalog in a file and on its own, errors included, but for the path of
the file. -/
theorem ofValue_some (v : Value) :
    Catalog.ofValue (some path) v = Catalog.inFile path <$> Catalog.ofValue none v := by
  cases v with
  | map o root =>
    simp only [Catalog.ofValue, readEntries_some, map_bind, bind_map_left]
    refine congrArg (_ >>= ·) (funext fun declarations => ?_)
    refine congrArg (_ >>= ·) (funext fun declared => ?_)
    simp only [← map_inFile_gatherEntries]
    rfl
  | _ => rfl

end

/-! ## Files -/

/-- Empty and no mapping: null, an empty text or list, zero and the like. -/
def IsHollow (v : Value) : Prop := v.truthy = false ∧ v.entries? = none

instance (v : Value) : Decidable (IsHollow v) := inferInstanceAs (Decidable (_ ∧ _))

theorem ofValue_of_isHollow {v : Value} (h : IsHollow v) (source : Option Path) :
    Catalog.ofValue source v = .error (.refused .rootNotMapping) := by
  cases v with
  | map o root => exact absurd h.2 nofun
  | _ => rfl

section

variable {files : Tree} {base : Location} {path : Path} {bytes : ByteArray} {v : Value}

theorem load_eq_ofSource (hpath : files.isTooLong base path = false)
    (hfile : files.look base path = some (.file bytes)) :
    Catalog.load files base path = Catalog.ofSource path (.ofBytes bytes) := by
  simp only [Catalog.load, hpath, hfile, Bool.false_eq_true, ↓reduceIte]

theorem ofSource_of_isHollow (hread : Yaml.read (.ofBytes bytes) = .ok v) (h : IsHollow v) :
    Catalog.ofSource path (.ofBytes bytes) = .ok (.empty path) := by
  simp only [Catalog.ofSource, hread, h.1, Bool.false_eq_true, ↓reduceIte]
  rfl

/-- An empty mapping is put aside as well, but nothing is lost: it declares nothing. -/
theorem ofSource_of_not_isHollow (hread : Yaml.read (.ofBytes bytes) = .ok v) (h : ¬ IsHollow v) :
    Catalog.ofSource path (.ofBytes bytes) =
      (Catalog.inFile path <$> Catalog.ofValue none v).mapError .ofRead := by
  have hvalue : Catalog.ofValue (some path) (if v.truthy then v else .map none []) =
      Catalog.ofValue (some path) v := by
    cases htruthy : v.truthy with
    | true => rfl
    | false =>
      cases v with
      | map o root =>
        obtain rfl : root = [] := by simpa [Value.truthy] using htruthy
        rfl
      | _ => exact absurd ⟨htruthy, rfl⟩ h
  simp only [Catalog.ofSource, hread, hvalue, ofValue_some]
  cases Catalog.ofValue none v <;> rfl

/-- **A file and the document in it.** A file that can be read is the catalog that its document is,
with the same names, declarations and lists, or is refused for the same reason, unless the document
is empty and no mapping. Then the file is an empty catalog: so it should be where there is no
document at all, but an empty text or list is no catalog either, and on its own it is refused. -/
theorem load_eq_ofValue_iff (hpath : files.isTooLong base path = false)
    (hfile : files.look base path = some (.file bytes))
    (hread : Yaml.read (.ofBytes bytes) = .ok v) :
    let fromFile := Catalog.load files base path
    let fromDocument := (Catalog.inFile path <$> Catalog.ofValue none v).mapError LoadFailure.ofRead
    (fromFile = fromDocument ↔ ¬ IsHollow v) ∧
    (IsHollow v → fromFile = .ok (.empty path) ∧
      Catalog.ofValue none v = .error (.refused .rootNotMapping)) ∧
    (v = .null → fromFile = .ok (.empty path)) := by
  intro fromFile fromDocument
  have hsource : fromFile = Catalog.ofSource path (.ofBytes bytes) := load_eq_ofSource hpath hfile
  have hhollow : IsHollow v → fromFile = .ok (.empty path) :=
    fun h => hsource.trans (ofSource_of_isHollow hread h)
  refine ⟨⟨fun heq h => ?_, fun h => hsource.trans (ofSource_of_not_isHollow hread h)⟩,
    fun h => ⟨hhollow h, ofValue_of_isHollow h none⟩, ?_⟩
  · have hdocument : fromDocument = .error (.refused (.catalog .rootNotMapping)) := by
      simp only [fromDocument, ofValue_of_isHollow h]
      rfl
    rw [hhollow h, hdocument] at heq
    cases heq
  · rintro rfl
    exact hhollow ⟨rfl, rfl⟩

end

/-- A directory with nothing but a catalog. -/
def directoryWith (bytes : ByteArray) : Tree := ⟨[(["components.yaml"], .file bytes)]⟩

def catalogFile : Path := .ofString "components.yaml"

/-- A component that names no file. -/
def boxText : ByteArray := "components:\n  box:\n    props: [value]\n".toUTF8

/-- The file of the catalog is the file of the component. -/
theorem load_boxText_eq_ofValue :
    let files := directoryWith boxText
    (files.isTooLong [] catalogFile = false ∧ files.look [] catalogFile = some (.file boxText)) ∧
    ∃ v, Yaml.read (.ofBytes boxText) = .ok v ∧ ¬ IsHollow v ∧
      Catalog.load files [] catalogFile =
        (Catalog.inFile catalogFile <$> Catalog.ofValue none v).mapError .ofRead := by
  intro files
  have hpath : files.isTooLong [] catalogFile = false := by decide +kernel
  have hfile : files.look [] catalogFile = some (.file boxText) := rfl
  have hvalue : (Yaml.read (.ofBytes boxText)).toOption.any fun v => decide (¬ IsHollow v) := by
    decide +kernel
  refine ⟨⟨hpath, hfile⟩, ?_⟩
  cases hread : Yaml.read (.ofBytes boxText) with
  | error e =>
    rw [hread] at hvalue
    cases hvalue
  | ok v =>
    rw [hread] at hvalue
    have hfull : ¬ IsHollow v := of_decide_eq_true hvalue
    exact ⟨v, rfl, hfull, (load_eq_ofValue_iff hpath hfile hread).1.mpr hfull⟩

/-- An empty list is refused on its own, and in a file it is an empty catalog. -/
theorem empty_list_accepted_in_file :
    Yaml.read (.ofBytes "[]\n".toUTF8) = .ok (.list (some 0) []) ∧
      Catalog.ofValue none (.list (some 0) []) = .error (.refused .rootNotMapping) ∧
      Catalog.load (directoryWith "[]\n".toUTF8) [] catalogFile = .ok (.empty catalogFile) := by
  have hpath : (directoryWith "[]\n".toUTF8).isTooLong [] catalogFile = false := by decide +kernel
  have hread : Yaml.read (.ofBytes "[]\n".toUTF8) = .ok (.list (some 0) []) := by rfl
  exact ⟨hread, rfl, (load_eq_ofSource hpath rfl).trans (ofSource_of_isHollow hread ⟨rfl, rfl⟩)⟩

end ComponentAttrs
