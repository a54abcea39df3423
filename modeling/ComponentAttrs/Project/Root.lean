import ComponentAttrs.Files.Tree

/-!
The root of a project: the nearest directory, going up, that holds a marker directory. A search
breaks off at the first place where the marker cannot be looked for.
-/
namespace ComponentAttrs.Project

open ComponentAttrs.Files

/-- The directory that marks a project and holds its settings. -/
def markerName : String := ".vueattrs"

/-- A place and all places above it, nearest first. -/
def ancestors (place : Location) : List Location :=
  ((List.range (place.length + 1)).map place.take).reverse

/-- Does a place hold the marker? There is no answer where it cannot be looked for. -/
def isMarked (files : Tree) (marker : Path) (place : Location) : Except PathFault Bool :=
  let path := (Path.ofParts place).join marker
  if files.isTooLong [] path then .error .tooLong else .ok (files.isDirectory [] path)

/-- The nearest marked place; the start itself if none is marked. -/
def findRoot (files : Tree) (marker : Path) (start : Location) : Except PathFault Location :=
  ((ancestors start).findM? (isMarked files marker)).map (·.getD start)

/-- The root found from a path, as a path of its own. -/
def rootFrom (files : Tree) (base : Location) (marker start : Path) : Except PathFault Path :=
  match start.fault? with
  | some fault => .error fault
  | none => (findRoot files marker (resolve base start)).map .ofParts

/-- The search from the current directory. -/
def rootHere (files : Tree) (base : Location) : Except PathFault Path :=
  rootFrom files base (.ofString markerName) (.ofString ".")

/-- The root found from the current directory, or that directory where the search breaks off. -/
def currentRoot (files : Tree) (base : Location) : Path :=
  (rootHere files base).toOption.getD (.ofParts base)

end ComponentAttrs.Project
