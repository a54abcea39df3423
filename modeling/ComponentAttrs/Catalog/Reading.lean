import ComponentAttrs.Catalog.Basic
import ComponentAttrs.Document.Display

/-!
Catalogs from documents. A declaration that is missing or empty declares nothing; names may be given
as a list or as a single name.
-/
namespace ComponentAttrs

open ComponentAttrs.Files ComponentAttrs.Document

/-- Lists of names that a document may hold. -/
inductive NameList where
  | props
  | data
  | computed
  | methods
  | mixins
  | components
  | directives
  | globalMixins
  | globalDirectives
deriving DecidableEq

def NameList.key : NameList → String
  | .props => "props"
  | .data => "data"
  | .computed => "computed"
  | .methods => "methods"
  | .mixins => "mixins"
  | .components => "components"
  | .directives => "directives"
  | .globalMixins => "global_mixins"
  | .globalDirectives => "global_directives"

/-- Why a document is no catalog, or a catalog cannot be used. -/
inductive CatalogError where
  | rootNotMapping
  | componentsNotMapping
  | entryNotMapping (component : String)
  | extendsNotName (component : String)
  | notNames (owner : String) (list : NameList)
  /-- The prop as it is shown in a message. -/
  | optionsNotMapping (owner prop : String)
  | unknownComponent (name : String)

/-- What lists of the catalog itself belong to. -/
def catalogOwner : String := "<catalog>"

def CatalogError.message : CatalogError → String
  | .rootNotMapping => "Catalog root must be a mapping"
  | .componentsNotMapping => "'components' must be a mapping of name -> declaration"
  | .entryNotMapping component => "Component " ++ Text.quoted component ++ " must be a mapping"
  | .extendsNotName component =>
    "Component " ++ Text.quoted component ++ ": 'extends' must be a component name"
  | .notNames owner list =>
    "Component " ++ Text.quoted owner ++ ": '" ++ list.key ++ "' must be a list of names"
  | .optionsNotMapping owner prop =>
    "Component " ++ Text.quoted owner ++ ": options of prop " ++ prop ++ " must be a mapping"
  | .unknownComponent name => "Unknown component: " ++ name

/-- A document is refused with an error of its own, or breaks off because a path is no text or a
value cannot be put into words. -/
inductive ReadFailure where
  | refused (e : CatalogError)
  | pathNotText
  | unshown (obstacle : Obstacle)

/-- Any value can be a name. -/
def readName (v : Value) : Except ReadFailure String := v.display.mapError .unshown

/-- The entries of a mapping; null and everything else that is empty counts as none. -/
def mappingOr (error : CatalogError) (v : Value) : Except ReadFailure Entries :=
  if v.truthy then
    match v.entries? with
    | some entries => .ok entries
    | none => .error (.refused error)
  else .ok []

/-- A single name, a list of names, or nothing. -/
def readNames (owner : String) (list : NameList) (v : Value) : Except ReadFailure (List String) :=
  match v with
  | .null => .ok []
  | .text s => .ok [s]
  | .list _ items =>
    match items.mapM Value.text? with
    | some names => .ok names
    | none => .error (.refused (.notNames owner list))
  | _ => .error (.refused (.notNames owner list))

/-- A prop and its options. -/
def readProp (owner : String) (prop options : Value) : Except ReadFailure PropSpec := do
  let shown ← prop.inspected.mapError .unshown
  let entries ← mappingOr (.optionsNotMapping owner shown) options
  .ok ⟨← readName prop, (field entries "required").truthy⟩

/-- Names, or a mapping of names to options. -/
def readProps (owner : String) (v : Value) : Except ReadFailure (List PropSpec) :=
  match v with
  | .map _ entries => entries.mapM fun (prop, options) => readProp owner prop options
  | v => do
    let names ← readNames owner .props v
    .ok (names.map fun name => ⟨name, false⟩)

/-- Names that stand for themselves, or a mapping of local names to components. -/
def readComponents (owner : String) (v : Value) : Except ReadFailure (List (String × String)) :=
  match v with
  | .map _ entries => entries.mapM fun (name, target) => do
    return (← readName name, ← readName target)
  | v => do
    let names ← readNames owner .components v
    .ok (names.map fun name => (name, name))

/-- The file of a component; the catalog's own path where none is given. -/
def readSourcePath (source : Option Path) (v : Value) : Except ReadFailure (Option Path) :=
  if v.truthy then
    match v.text? with
    | some s => .ok (some (.ofString s))
    | none => .error .pathNotText
  else .ok source

def readExtends (component : String) (v : Value) : Except ReadFailure (Option String) :=
  match v with
  | .null => .ok none
  | .text s => .ok (some s)
  | _ => .error (.refused (.extendsNotName component))

/-- One declaration. -/
def readEntry (source : Option Path) (name : String) (v : Value) : Except ReadFailure Entry := do
  let spec ← mappingOr (.entryNotMapping name) v
  let sourcePath ← readSourcePath source (field spec "file")
  let extended ← readExtends name (field spec "extends")
  let props ← readProps name (field spec "props")
  let data ← readNames name .data (field spec "data")
  let computed ← readNames name .computed (field spec "computed")
  let methods ← readNames name .methods (field spec "methods")
  let mixins ← readNames name .mixins (field spec "mixins")
  let components ← readComponents name (field spec "components")
  let directives ← readNames name .directives (field spec "directives")
  .ok
    { definition := ⟨name, sourcePath, field spec "line"⟩
      props := props
      data := data
      computed := computed
      methods := methods
      mixins := mixins
      extended := extended
      components := components
      directives := directives }

/-- Names of components are texts, whatever kind of scalar the document writes them as. -/
def readEntries (source : Option Path) (declarations : Entries) :
    Except ReadFailure (List Entry) :=
  declarations.mapM fun (name, v) => do readEntry source (← readName name) v

/-- The catalog that a document describes. -/
def Catalog.ofValue (source : Option Path) (v : Value) : Except ReadFailure Catalog :=
  match v with
  | .map _ root => do
    let declarations ← mappingOr .componentsNotMapping (field root "components")
    let declared ← readEntries source declarations
    let mixins ← readNames catalogOwner .globalMixins (field root "global_mixins")
    let directives ← readNames catalogOwner .globalDirectives (field root "global_directives")
    .ok
      { entries := gatherEntries declared
        globalMixins := mixins
        globalDirectives := directives
        sourcePath := source
        names_nodup := nodup_gatherBy Entry.name declared }
  | _ => .error (.refused .rootNotMapping)

/-- The component registered under a name, or an error that names it. -/
def Catalog.require (c : Catalog) (name : String) : Except CatalogError Component :=
  match c.get? name with
  | some d => .ok d
  | none => .error (.unknownComponent name)

end ComponentAttrs
