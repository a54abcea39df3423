import ComponentAttrs.Files.Path
import ComponentAttrs.Document.Value
import ComponentAttrs.Text.Quoted

/-!
Components and how they are composed. A definition is known by its identity, a value of `δ`; several
definitions may share a name.
-/
namespace ComponentAttrs

open ComponentAttrs.Files ComponentAttrs.Document

/-- Ways in which a component takes in another. -/
inductive LinkKind where
  /-- Named in the component's own list of mixins. -/
  | localMixin
  /-- Registered for every component. -/
  | globalMixin
  /-- The one component it extends. -/
  | extension
deriving DecidableEq

def LinkKind.name : LinkKind → String
  | .localMixin => "local_mixin"
  | .globalMixin => "global_mixin"
  | .extension => "extends"

/-- Links in the order in which they are followed unless told otherwise. -/
def standardLinks : List LinkKind := [.localMixin, .globalMixin, .extension]

/-- Where a component is declared. The line is whatever the catalog says. -/
structure Definition where
  name : String
  sourcePath : Option Path
  line : Value

def Definition.named (name : String) : Definition := ⟨name, none, .null⟩

/-- The short form of a definition in messages. -/
def Definition.inspect (d : Definition) : String :=
  "ComponentDefinition(" ++ Text.quoted d.name ++ ")"

def Definition.toValue (d : Definition) : Value :=
  .record [("name", .text d.name), ("source_path", .optionalText (d.sourcePath.map Path.text)),
    ("line_number", d.line)]

/-- A name that stands for a definition; it may no longer stand for any. -/
structure Reference (δ : Type) where
  name : String
  kind : LinkKind
  source : Option δ
deriving DecidableEq

/-- One resolved step from a definition, or from no definition, to another. -/
structure Edge (δ : Type) where
  source : Option δ
  kind : LinkKind
  target : δ
deriving DecidableEq

/-- The identifier of an edge, from the names at its ends. -/
def edgeId (source : Option String) (kind : LinkKind) (target : String) : String :=
  source.getD "<root>" ++ "--" ++ kind.name ++ "-->" ++ target

def Edge.id {δ : Type} (name : δ → String) (e : Edge δ) : String :=
  edgeId (e.source.map name) e.kind (name e.target)

def Edge.toValue {δ : Type} (name : δ → String) (e : Edge δ) : Value :=
  .record [("source", .optionalText (e.source.map name)), ("target", .text (name e.target)),
    ("type", .text e.kind.name)]

end ComponentAttrs
