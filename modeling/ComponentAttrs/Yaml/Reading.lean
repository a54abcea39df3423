import ComponentAttrs.Document.Members
import ComponentAttrs.Yaml.Building

/-!
From the text of a document to its value. A collection that contains itself is unrolled as far as
any question about it can look.
-/
namespace ComponentAttrs.Yaml

open ComponentAttrs.Document

/-- The value of an object, given the values of its parts. -/
def Object.value (valueOf : Nat → Value) (id : Nat) : Object → Value
  | .scalar _ v => v
  | .list items => .list (some id) (items.map valueOf)
  | .pairs items => .list (some id) (items.map fun (a, b) => .pair (valueOf a) (valueOf b))
  | .map entries => .map (some id) (entries.map fun (k, v) => (valueOf k, valueOf v))
  | .set members => .set (some id) (arrangeMembers (members.map valueOf))

/-- A collection that has not been unrolled. -/
def Object.stub (id : Nat) : Object → Value
  | .scalar _ v => v
  | .list _ | .pairs _ => .list (some id) []
  | .map _ => .map (some id) []
  | .set _ => .set (some id) []

/-- The parts of a collection. -/
def Object.parts : Object → List Nat
  | .scalar _ _ => []
  | .list items | .set items => items
  | .pairs items | .map items => items.flatMap fun (a, b) => [a, b]

def Object.isScalar : Object → Bool
  | .scalar _ _ => true
  | _ => false

/-- Values by the numbers of their nodes. -/
abbrev Values := Array Value

/-- Puts the values of its parts into every collection, into the parts first. -/
def unroll (objects : Array (Option Object)) (order : List Nat) (values : Values) : Values :=
  order.foldl (fun values id =>
    match objects.getD id none with
    | some object => values.setIfInBounds id (object.value (values.getD · .null) id)
    | none => values) values

/-- What a question about a document looks at beyond the collections that stand inside each other
without repetition. -/
def spareRounds : Nat := 8

/-- Collections that come after one that they are part of. -/
def lateParts (objects : Array (Option Object)) (order : List Nat) : List Nat :=
  let start : Array Bool := objects.map fun o => o.any Object.isScalar
  (order.foldl (fun (settled, late) id =>
    let parts := ((objects.getD id none).map Object.parts).getD []
    let more := parts.foldl
      (fun late part => if settled.getD part false then late else late.insert part) late
    (settled.setIfInBounds id true, more)) (start, [])).2

/-- One round is enough where parts come first. Otherwise a round takes every way through the
document on to the next late part, and before a way comes to one of them a second time it meets each
at most once. -/
def rounds (late : List Nat) : Nat :=
  if late.isEmpty then 1 else late.length + 1 + spareRounds

def valuesOf (objects : Array (Option Object)) (order : List Nat) : Values :=
  let stubs : Values := objects.mapIdx fun id o => (o.map (Object.stub id)).getD .null
  (List.range (rounds (lateParts objects order))).foldl
    (fun values _ => unroll objects order values) stubs

/-- The value of a document; a text without any is null. -/
def read (source : Source) : Except Failure Value := do
  match ← nodes? source with
  | none => return .null
  | some (root, ns) => do
    let objects ← objects ns.nodes root
    return (valuesOf objects ns.finished).getD root .null

end ComponentAttrs.Yaml
