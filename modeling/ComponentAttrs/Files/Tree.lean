import ComponentAttrs.Files.Path

/-!
A tree of files and directories as a value, without links. Looking a path up goes from directory to
directory, back as well as on: each part but the last must be a directory that is there.
-/
namespace ComponentAttrs.Files

inductive Node where
  | file (bytes : ByteArray)
  | directory

def Node.isDirectory : Node → Bool
  | .directory => true
  | .file _ => false

/-- A place in the tree, as the names from the root to it. -/
abbrev Location := List String

/-- Every place except the root is listed; where one is listed twice the first counts. -/
structure Tree where
  nodes : List (Location × Node)

namespace Tree

def empty : Tree := ⟨[]⟩

def node? (t : Tree) (place : Location) : Option Node :=
  if place = [] then some .directory else t.nodes.lookup place

def remove (t : Tree) (place : Location) : Tree := ⟨t.nodes.filter (·.1 ≠ place)⟩

/-- All places on the way to a place, the root and the place itself left out. -/
def parentsOf (place : Location) : List Location :=
  (List.range place.length).tail.map place.take

/-- Puts a node in its place, with the directories on the way to it. -/
def put (t : Tree) (place : Location) (node : Node) : Tree :=
  let missing := (parentsOf place).filter fun p => (t.node? p).isNone
  ⟨(place, node) :: missing.map (fun p => (p, .directory)) ++ (t.remove place).nodes⟩

/-- The place that the parts lead to from a directory. A pair of dots leads back. -/
def follow (t : Tree) : Location → List String → Option Location
  | place, [] => some place
  | place, part :: rest =>
    if part = ".." then follow t place.dropLast rest
    else
      let next := place ++ [part]
      match t.node? next with
      | none => none
      | some node => if node.isDirectory || rest.isEmpty then follow t next rest else none

/-- The parts of a path from the root, seen from a directory. -/
def partsFrom (base : Location) (p : Path) : List String :=
  if p.isAbsolute then p.parts else base ++ p.parts

/-- What a path names, seen from a directory. -/
def look (t : Tree) (base : Location) (p : Path) : Option Node :=
  (t.follow [] (partsFrom base p)).bind t.node?

def isDirectory (t : Tree) (base : Location) (p : Path) : Bool :=
  (t.look base p).any Node.isDirectory

/-- Longest name of a file and longest path, in bytes. -/
def nameLimit : Nat := 255

def pathLimit : Nat := 4095

/-- Does a way ask a directory for a name that no file can have? -/
def asksTooMuch (t : Tree) : Location → List String → Bool
  | _, [] => false
  | place, part :: rest =>
    if part = ".." then asksTooMuch t place.dropLast rest
    else if nameLimit < nameSize part then true
    else
      let next := place ++ [part]
      (t.node? next).any Node.isDirectory && asksTooMuch t next rest

/-- Is a path one that cannot even be looked up? One with a fault of its own never gets so far: it
names nothing, however long it is. -/
def isTooLong (t : Tree) (base : Location) (p : Path) : Bool :=
  p.fault?.isNone && (pathLimit < nameSize p.text || t.asksTooMuch [] (partsFrom base p))

end Tree

/-- The place that a path names if nothing on the way is looked at. -/
def resolve (base : Location) (p : Path) : Location :=
  p.parts.foldl (fun place part => if part = ".." then place.dropLast else place ++ [part])
    (if p.isAbsolute then [] else base)

end ComponentAttrs.Files
