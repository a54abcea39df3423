import ComponentAttrs.Component.Basic

/-!
One attribute that a component accepts.
-/
namespace ComponentAttrs

open ComponentAttrs.Document

inductive AttributeKind where
  | prop
  | data
  | computed
  | method
  | directive
  | other (name : String)
deriving DecidableEq

def AttributeKind.name : AttributeKind → String
  | .prop => "prop"
  | .data => "data"
  | .computed => "computed"
  | .method => "method"
  | .directive => "directive"
  | .other name => name

def AttributeKind.ofName (name : String) : AttributeKind :=
  ([AttributeKind.prop, .data, .computed, .method, .directive].find? (·.name = name)).getD
    (.other name)

/-- The display name may be a spelling of the declared one. Attributes registered for every
component have no owner. -/
structure Descriptor (δ : Type) where
  name : String
  declaredName : String
  owner : Option δ
  kind : AttributeKind
  isPublic : Bool
  required : Bool
deriving DecidableEq

namespace Descriptor

variable {δ : Type}

def prop (owner : δ) (name : String) (required : Bool) : Descriptor δ :=
  ⟨name, name, some owner, .prop, true, required⟩

/-- State of a component that is not part of its interface. -/
def inner (owner : δ) (kind : AttributeKind) (name : String) : Descriptor δ :=
  ⟨name, name, some owner, kind, false, false⟩

/-- The same attribute under another display name. -/
def rename (d : Descriptor δ) (name : String) : Descriptor δ := { d with name := name }

def toValue (ownerName : δ → String) (d : Descriptor δ) : Value :=
  .record [("name", .text d.name), ("declared_name", .text d.declaredName),
    ("owner", .optionalText (d.owner.map ownerName)), ("kind", .text d.kind.name),
    ("public", .bool d.isPublic), ("required", .bool d.required)]

end Descriptor

end ComponentAttrs
