import ComponentAttrs.Catalog.Reading
import ComponentAttrs.Yaml.Reading
import ComponentAttrs.Files.Tree

/-!
Catalogs from files.
-/
namespace ComponentAttrs

open ComponentAttrs.Files ComponentAttrs.Document

/-- Why a file holds no catalog. -/
inductive FileError where
  | missing (path : Path)
  | malformed (path : Path) (problem : Yaml.Problem)
  | notText (path : Path)
  | directory (path : Path)
  | catalog (e : CatalogError)

def FileError.message : FileError → String
  | .missing path =>
    "Catalog not found: " ++ path.text
      ++ "\nPass --catalog or set catalog.path in .vueattrs/config.yaml"
  | .malformed path problem => "Invalid YAML in " ++ path.text ++ ": " ++ problem.message
  | .notText path => "Catalog is not valid UTF-8: " ++ path.text
  | .directory path => "Cannot read catalog " ++ path.text ++ ": Is a directory"
  | .catalog e => e.message

/-- Failures that no command turns into a message. -/
inductive Breakdown where
  /-- A file that must be text is not. -/
  | undecodable
  /-- A scalar does not have the value that its tag promises. -/
  | scalar (problem : Yaml.ScalarProblem)
  /-- A path cannot be followed. -/
  | path (fault : PathFault)
  /-- A value cannot be put into words. -/
  | unshown (obstacle : Obstacle)
  /-- The path of a file is not a text. -/
  | pathNotText
  /-- A value has no JSON form. -/
  | noJson
  /-- A value contains itself. -/
  | circular
  /-- There is no attribute to look at. -/
  | noAttribute
deriving DecidableEq

/-- A catalog is refused with a message, or the program breaks down. -/
inductive LoadFailure where
  | refused (e : FileError)
  | broken (b : Breakdown)

def LoadFailure.ofRead : ReadFailure → LoadFailure
  | .refused e => .refused (.catalog e)
  | .pathNotText => .broken .pathNotText
  | .unshown obstacle => .broken (.unshown obstacle)

/-- The catalog in a text. A text without value, and everything else that is empty, is an empty
catalog. -/
def Catalog.ofSource (path : Path) (source : Yaml.Source) : Except LoadFailure Catalog :=
  match Yaml.read source with
  | .error (.malformed problem) => .error (.refused (.malformed path problem))
  | .error .undecodable => .error (.refused (.notText path))
  | .error (.scalar problem) => .error (.broken (.scalar problem))
  | .ok v =>
    match Catalog.ofValue (some path) (if v.truthy then v else .map none []) with
    | .ok c => .ok c
    | .error e => .error (.ofRead e)

/-- The catalog in a file, seen from a directory. -/
def Catalog.load (files : Tree) (base : Location) (path : Path) : Except LoadFailure Catalog :=
  if files.isTooLong base path then .error (.broken (.path .tooLong))
  else
    match files.look base path with
    | none => .error (.refused (.missing path))
    | some .directory => .error (.refused (.directory path))
    | some (.file bytes) => Catalog.ofSource path (.ofBytes bytes)

/-- What is said about a catalog that has been loaded. -/
def Catalog.loadLog (c : Catalog) (path : Path) : List LogRecord :=
  c.danglingLog ++
    [⟨.info, .catalog, "Loaded " ++ toString c.size ++ " components from " ++ path.text⟩]

end ComponentAttrs
