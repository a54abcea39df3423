import ComponentAttrs.Graph.Basic
import ComponentAttrs.Json.Writing

/-!
Graphs as JSON text.
-/
namespace ComponentAttrs.Graph

variable {δ : Type}

/-- Values that have no JSON form of their own, such as a date for a line number, are written as
their text. -/
def toJson (definition : δ → Definition) (indent : Option Nat) (g : Graph δ) :
    Except Json.Failure String :=
  (Json.Layout.mk indent true).render (g.toValue definition)

end ComponentAttrs.Graph
