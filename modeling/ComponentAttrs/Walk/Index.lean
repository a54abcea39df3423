import ComponentAttrs.Component.Basic

/-!
What a walk asks about components: which references they hold, and what a reference stands for.
-/
namespace ComponentAttrs

/-- An index over finitely many definitions. Rows may be missing; a reference may stand for
nothing. -/
structure Index (δ : Type) where
  definitions : List δ
  definition : δ → Definition
  localMixins : δ → Option (List (Reference δ))
  globalMixins : Option (List (Reference δ))
  extensions : δ → Option (List (Reference δ))
  find : Reference δ → Option δ
  find_mem : ∀ r d, find r = some d → d ∈ definitions

namespace Index

variable {δ : Type}

def name (ix : Index δ) (d : δ) : String := (ix.definition d).name

/-- The references that a definition holds under one link. Without a definition only what is
registered for every component remains. -/
def row (ix : Index δ) (kind : LinkKind) (source : Option δ) : List (Reference δ) :=
  match kind, source with
  | .localMixin, some d => (ix.localMixins d).getD []
  | .localMixin, none => []
  | .globalMixin, _ => ix.globalMixins.getD []
  | .extension, some d => (ix.extensions d).getD []
  | .extension, none => []

end Index

/-- Rows of references by name, for an index written out in full. -/
structure Tables where
  /-- Definitions, each known by its first part and shown by its second. -/
  names : List (String × String)
  localMixins : List (String × List String)
  globalMixins : Option (List String)
  extensions : List (String × List String)

/-- A reference stands for the definition that its name identifies. -/
def Tables.index (t : Tables) : Index String where
  definitions := t.names.map (·.1)
  definition d := .named ((t.names.lookup d).getD d)
  localMixins d := (t.localMixins.lookup d).map (·.map fun n => ⟨n, .localMixin, some d⟩)
  globalMixins := t.globalMixins.map (·.map fun n => ⟨n, .globalMixin, none⟩)
  extensions d := (t.extensions.lookup d).map (·.map fun n => ⟨n, .extension, some d⟩)
  find r := if r.name ∈ t.names.map (·.1) then some r.name else none
  find_mem r d h := by
    split at h
    · next hr => cases h; exact hr
    · cases h

end ComponentAttrs
