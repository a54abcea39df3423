import ComponentAttrs.Walk.Basic

/-!
The part of the composition that is reached from one root: definitions in the order of visits, root
first, and edges in the order of discovery. Definitions are told apart by identity and shown by
name.
-/
namespace ComponentAttrs

open ComponentAttrs.Document

structure Graph (δ : Type) where
  root : Option δ
  nodes : List δ
  edges : List (Edge δ)

namespace Graph

variable {δ : Type}

def start (root : Option δ) : Graph δ := ⟨root, root.toList, []⟩

variable [DecidableEq δ]

/-- A definition that is there already is not added again. -/
def addNode (g : Graph δ) (d : δ) : Graph δ :=
  if d ∈ g.nodes then g else { g with nodes := g.nodes ++ [d] }

def addEdge (g : Graph δ) (e : Edge δ) : Graph δ := { g with edges := g.edges ++ [e] }

def outgoing (g : Graph δ) (source : Option δ) : List (Edge δ) :=
  g.edges.filter (·.source = source)

/-- What a step of a walk adds. -/
def record (g : Graph δ) : Step δ → Graph δ
  | .visited d => g.addNode d
  | .crossed e => g.addEdge e
  | _ => g

/-- What a walk from a root has passed through. -/
def ofTrace (root : Option δ) (trace : List (Step δ)) : Graph δ := trace.foldl record (start root)

def build (ix : Index δ) (links : List LinkKind) (root : Option δ) : Graph δ :=
  ofTrace root (walk ix links root watch ()).trace

omit [DecidableEq δ] in
def toValue (definition : δ → Definition) (g : Graph δ) : Value :=
  let name (d : δ) : String := (definition d).name
  .record [("root", .optionalText (g.root.map name)),
    ("nodes", .items (g.nodes.map fun d => (definition d).toValue)),
    ("edges", .items (g.edges.map (Edge.toValue name))),
    ("metadata", .record [("node_count", .int g.nodes.length), ("edge_count", .int g.edges.length)])]

end Graph

end ComponentAttrs
