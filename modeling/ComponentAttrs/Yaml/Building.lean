import ComponentAttrs.Yaml.Node
import ComponentAttrs.Yaml.Scalar

/-!
What the nodes of a document stand for. A scalar is built when it is met, a collection at first
without its parts; the parts follow in the order in which the collections were met, the outer ones
before those inside them. The first failure on this way is the one that counts. A mapping takes in
what its merge keys name when its turn comes, and its node keeps the entries for all that look at it
later.
-/
namespace ComponentAttrs.Yaml

open ComponentAttrs.Document

/-- What a node stands for; the parts of a collection are the numbers of their nodes. -/
inductive Object where
  /-- Scalars of one identity are one object, also where a value does not equal itself. -/
  | scalar (identity : Nat) (v : Value)
  | list (items : List Nat)
  | pairs (items : List (Nat × Nat))
  | map (entries : List (Nat × Nat))
  | set (members : List Nat)

structure Building where
  nodes : Array Node
  objects : Array (Option Object)
  /-- Collections in the order in which they were met. -/
  met : Array Nat

abbrev Build := StateT Building (Except Failure)

def nodeAt (nodes : Array Node) (id : Nat) : Node := nodes.getD id ⟨.unknown, .scalar ""⟩

def entriesAt (nodes : Array Node) (id : Nat) : List (Nat × Nat) :=
  match (nodeAt nodes id).body with
  | .mapping entries => entries
  | _ => []

/-- No way from node to node, along merge keys or equals signs, is followed further than this. -/
def chainLimit : Nat := 985

/-- The text of a scalar; a mapping stands for the entry under an equals sign. -/
def scalarText (nodes : Array Node) : Nat → Nat → Except Failure String
  | 0, _ => noValue .depth
  | fuel + 1, id =>
    match (nodeAt nodes id).body with
    | .scalar text => .ok text
    | .mapping entries =>
      match entries.find? fun (key, _) => (nodeAt nodes key).tag = .value with
      | some (_, value) => scalarText nodes fuel value
      | none => malformed .wrongKind
    | .sequence _ => malformed .wrongKind

/-- The scalar of a node. All floats that are no number by name are one object, beyond all nodes. -/
def scalarObject (nodes : Array Node) (id : Nat) : Except Failure Object := do
  let node := nodeAt nodes id
  let text := scalarText nodes chainLimit id
  match node.tag with
  | .null => return .scalar id (← text.map fun _ => Value.null)
  | .bool => return .scalar id (← boolValue (← text))
  | .int => return .scalar id (← intValue (← text))
  | .float => do
    let spelling := Decimal.skipSign (floatSpelling (← text))
    return .scalar (if spelling = ".nan".toList then nodes.size else id) (← floatValue (← text))
  | .binary => return .scalar id (← bytesValue (← text))
  | .timestamp => do
    let text ← text
    match node.body with
    | .scalar _ => return .scalar id (← timestampValue (some id) text)
    | _ => noValue .collection
  | .text => return .scalar id (.text (← text))
  | _ => malformed .unknownTag

/-- A collection before its parts are built. -/
def emptyObject? : Tag → Option Object
  | .list => some (.list [])
  | .orderedMap | .pairs => some (.pairs [])
  | .map => some (.map [])
  | .set => some (.set [])
  | _ => none

/-- Do two nodes stand for the same key? -/
def sameKeyAt (objects : Array (Option Object)) (a b : Nat) : Bool :=
  match objects.getD a none, objects.getD b none with
  | some (.scalar i v), some (.scalar j w) => i = j || sameKey v w
  | _, _ => false

/-- Only scalars can be keys. -/
def isKeyAt (objects : Array (Option Object)) (id : Nat) : Bool :=
  match objects.getD id none with
  | some (.scalar _ _) => true
  | _ => false

/-- A key that is present keeps its place and takes the new value. -/
def putAt (objects : Array (Option Object)) (key value : Nat) :
    List (Nat × Nat) → List (Nat × Nat)
  | [] => [(key, value)]
  | (k, v) :: rest =>
    if sameKeyAt objects k key then (k, value) :: rest else (k, v) :: putAt objects key value rest

namespace Build

def refuse {α : Type} (p : Problem) : Build α := fun _ => malformed p

def node (id : Nat) : Build Node := do return nodeAt (← get).nodes id

def entries (id : Nat) : Build (List (Nat × Nat)) := do return entriesAt (← get).nodes id

def setNode (id : Nat) (node : Node) : Build Unit :=
  modify fun s => { s with nodes := s.nodes.setIfInBounds id node }

def setEntries (id : Nat) (entries : List (Nat × Nat)) : Build Unit := do
  setNode id { ← node id with body := .mapping entries }

def setObject (id : Nat) (object : Object) : Build Unit :=
  modify fun s => { s with objects := s.objects.setIfInBounds id (some object) }

/-- Takes the merge keys out of a mapping and puts what they name in front of its own entries, and
makes its equals signs texts. A mapping that names itself finds the merge keys that are left. -/
def followMerges : Nat → Nat → Build Unit
  | 0, _ => fun _ => noValue .depth
  | fuel + 1, id => do
    let follow (source : Nat) : Build (List (Nat × Nat)) := do
      match (← node source).body with
      | .mapping _ => do
        followMerges fuel source
        entries source
      | _ => refuse .badMerge
    let look (state : Nat × List (Nat × Nat)) (_ : Nat) : Build (Nat × List (Nat × Nat)) := do
      let (index, merged) := state
      let now ← entries id
      match now[index]? with
      | none => return state
      | some (key, source) =>
        let keyNode ← node key
        match keyNode.tag with
        | .merge => do
          setEntries id (now.eraseIdx index)
          match (← node source).body with
          | .sequence sources =>
            return (index, merged ++ (← sources.mapM follow).reverse.flatten)
          | _ => return (index, merged ++ (← follow source))
        | .value => do
          setNode key { keyNode with tag := .text }
          return (index + 1, merged)
        | _ => return (index + 1, merged)
    let (_, merged) ← (List.range (← entries id).length).foldlM look (0, [])
    if !merged.isEmpty then setEntries id (merged ++ (← entries id))

/-- Builds a node unless that has been done. -/
def build (id : Nat) : Build Unit := do
  let s ← get
  if (s.objects.getD id none).isSome then return ()
  match emptyObject? (nodeAt s.nodes id).tag with
  | some object => do
    setObject id object
    modify fun s => { s with met := s.met.push id }
  | none => setObject id (← scalarObject s.nodes id)

/-- The entries of a mapping, merged ones included, each key once. -/
def buildEntries (id : Nat) : Build (List (Nat × Nat)) := do
  match (← node id).body with
  | .mapping _ => do
    followMerges chainLimit id
    (← entries id).foldlM (fun done (key, value) => do
      build key
      if !isKeyAt (← get).objects key then refuse .badKey
      build value
      return putAt (← get).objects key value done) []
  | _ => refuse .wrongKind

def buildItems (id : Nat) : Build (List Nat) := do
  match (← node id).body with
  | .sequence items => do
    items.forM build
    return items
  | _ => refuse .wrongKind

/-- A list of mappings with one entry each. -/
def buildPairs (id : Nat) : Build (List (Nat × Nat)) := do
  match (← node id).body with
  | .sequence items => items.mapM fun item => do
    match (← node item).body with
    | .mapping [(key, value)] => do
      build key
      build value
      return (key, value)
    | _ => refuse .wrongKind
  | _ => refuse .wrongKind

/-- Builds the parts of a collection. -/
def fill (id : Nat) : Build Unit := do
  match (← node id).tag with
  | .list => setObject id (.list (← buildItems id))
  | .orderedMap | .pairs => setObject id (.pairs (← buildPairs id))
  | .map => setObject id (.map (← buildEntries id))
  | .set => setObject id (.set ((← buildEntries id).map (·.1)))
  | _ => return ()

/-- Fills the collections from the one with this place in the order of meeting on. Each is met once,
so the number of nodes bounds the way. -/
def fillFrom (place : Nat) : Nat → Build Unit
  | 0 => return ()
  | fuel + 1 => do
    match (← get).met[place]? with
    | none => return ()
    | some id => do
      fill id
      fillFrom (place + 1) fuel

end Build

/-- The objects of a document with this outermost node. -/
def objects (nodes : Array Node) (root : Nat) : Except Failure (Array (Option Object)) := do
  let start : Building := ⟨nodes, Array.replicate nodes.size none, #[]⟩
  let ((), s) ← (do Build.build root; Build.fillFrom 0 nodes.size.succ : Build Unit) start
  return s.objects

end ComponentAttrs.Yaml
