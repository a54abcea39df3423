import ComponentAttrs.Project.Root
import ComponentAttrs.Catalog.File
import ComponentAttrs.Document.Display

/-!
Settings of a project. Whatever the settings file holds, settings come out: parts that cannot be
used are passed over with a warning. Only a file that is not text breaks the program off.
-/
namespace ComponentAttrs.Project

open ComponentAttrs.Files ComponentAttrs.Document

/-- A value and what was logged on the way to it. -/
structure Logged (α : Type) where
  value : α
  log : List LogRecord

def settingsPath (root : Path) : Path :=
  (root.join (.ofString markerName)).join (.ofString "config.yaml")

def warn (message : Wording) : LogRecord := ⟨.warning, .settings, message⟩

def unreadable (path : Path) (reason : String) : LogRecord :=
  warn ("Ignoring unreadable config " ++ path.text ++ ": " ++ reason)

/-- The settings in a text. -/
def readSettings (path : Path) (source : Yaml.Source) : Except Breakdown (Logged Entries) :=
  match Yaml.read source with
  | .ok v => .ok ⟨v.entries?.getD [], []⟩
  | .error .undecodable => .error .undecodable
  | .error (.malformed problem) => .ok ⟨[], [unreadable path problem.message]⟩
  | .error (.scalar problem) => .error (.scalar problem)

/-- The settings file of a project as a mapping, empty if there is none. -/
def loadSettings (files : Tree) (base : Location) (root : Path) :
    Except Breakdown (Logged Entries) :=
  let path := settingsPath root
  if files.isTooLong base path then .error (.path .tooLong)
  else
    match files.look base path with
    | none => .ok ⟨[], []⟩
    | some .directory =>
      .ok ⟨[], [unreadable path ("[Errno 21] Is a directory: " ++ Text.quoted path.text)]⟩
    | some (.file bytes) => readSettings path (.ofBytes bytes)

/-- Puts a value where there is none, or only null. -/
def fillIn (entries : Entries) (key : String) (value : Value) : Entries :=
  if (field entries key).isNull then put entries (.text key) value else entries

def fillAll (defaults : List (String × Value)) (entries : Entries) : Entries :=
  defaults.foldl (fun entries (key, value) => fillIn entries key value) entries

/-- One section, with what it leaves open filled in. -/
def takeSection (settings : Entries) (name : String) (defaults : List (String × Value)) :
    Logged Entries :=
  let v := field settings name
  let (entries, log) :=
    if v.truthy then
      match v.entries? with
      | some entries => (entries, [])
      | none => ([], [warn ("Ignoring non-mapping '" ++ name ++ "' section in config")])
    else ([], [])
  ⟨fillAll defaults entries, log⟩

/-- A message about a value of a section. One that holds the section itself shows what has been
filled in. The limit on recursion is left out here: a value that is too deep to be shown is passed
over like a number that is too long, though a program that runs into that limit breaks off. -/
def aboutSetting (settings : Entries) (name : String) (defaults : List (String × Value))
    (before : String) (v : Value) (after : String) : Wording :=
  let v := match (field settings name).origin with
    | some id => alter id (fillAll defaults) [] v
    | none => v
  match v.inspected with
  | .ok shown => before ++ shown ++ after
  | .error _ => .cut before

/-! ## Catalog settings -/

def standardCatalog : String := "components.yaml"

structure CatalogSettings where
  path : Path
  /-- The section, other keys included. -/
  entries : Entries

def CatalogSettings.publicOnly (s : CatalogSettings) : Value := field s.entries "only_public"

def CatalogSettings.inTemplate (s : CatalogSettings) : Value := field s.entries "xml_context"

def catalogDefaults : List (String × Value) :=
  [("path", .text standardCatalog), ("only_public", .bool false), ("xml_context", .bool true)]

/-- The path is seen from the root of the project. -/
def catalogSettings (root : Path) (settings : Entries) : Logged CatalogSettings :=
  let taken := takeSection settings "catalog" catalogDefaults
  let given := field taken.value "path"
  let (path, log) := match given.text? with
    | some s => (s, [])
    | none =>
      (standardCatalog, [warn (aboutSetting settings "catalog" catalogDefaults
        "Ignoring non-string catalog path " given "")])
  let joined := root.join (.ofString path)
  ⟨⟨joined, put taken.value (.text "path") (.text joined.text)⟩, taken.log ++ log⟩

def loadCatalogSettings (files : Tree) (base : Location) (root : Path) :
    Except Breakdown (Logged CatalogSettings) := do
  let settings ← loadSettings files base root
  let taken := catalogSettings root settings.value
  .ok ⟨taken.value, settings.log ++ taken.log⟩

/-! ## Output settings -/

def jsonFormat : String := "json"

def yamlFormat : String := "yaml"

def outputDefaults : List (String × Value) := [("format", .text jsonFormat)]

structure OutputSettings where
  format : String
  /-- The section, other keys included. -/
  entries : Entries

def knownFormat? (v : Value) : Option String :=
  v.text?.filter fun s => s = jsonFormat ∨ s = yamlFormat

def outputSettings (settings : Entries) : Logged OutputSettings :=
  let taken := takeSection settings "output" outputDefaults
  let given := field taken.value "format"
  match knownFormat? given with
  | some format => ⟨⟨format, taken.value⟩, taken.log⟩
  | none =>
    ⟨⟨jsonFormat, put taken.value (.text "format") (.text jsonFormat)⟩,
      taken.log ++ [warn (aboutSetting settings "output" outputDefaults
        "Unknown output format " given ", using json")]⟩

def loadOutputSettings (files : Tree) (base : Location) (root : Path) :
    Except Breakdown (Logged OutputSettings) := do
  let settings ← loadSettings files base root
  let taken := outputSettings settings.value
  .ok ⟨taken.value, settings.log ++ taken.log⟩

end ComponentAttrs.Project
