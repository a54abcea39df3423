import ComponentAttrs.Catalog.Basic
import ComponentAttrs.Scope.Basic

/-!
A catalog as an index of composition and as a source of attributes. Props are public; data, computed
values and methods are internal.
-/
namespace ComponentAttrs.Catalog

open ComponentAttrs.Attribute

/-! ## Composition -/

def references (kind : LinkKind) (source : Option Component) (names : List String) :
    List (Reference Component) :=
  names.map fun name => ⟨name, kind, source⟩

theorem mem_definitions_of_get? (c : Catalog) {name : String} {d : Component}
    (h : c.get? name = some d) : d ∈ c.names.map Component.declared := by
  unfold get? contains at h
  split at h
  · next hc =>
    cases h
    exact List.mem_map_of_mem (of_decide_eq_true hc)
  · cases h

/-- Composition as the catalog declares it. -/
def index (c : Catalog) : Index Component where
  definitions := c.names.map .declared
  definition := c.definition
  localMixins d :=
    some (references .localMixin (some d) (((c.entry? (some d)).map Entry.mixins).getD []))
  globalMixins := some (references .globalMixin none c.globalMixins)
  extensions d :=
    some (references .extension (some d) ((c.entry? (some d)).bind Entry.parent?).toList)
  find r := c.get? r.name
  find_mem _ _ h := c.mem_definitions_of_get? h

/-! ## Attributes -/

/-- Props first, then internal state unless only public attributes are wanted. -/
def candidates (d : Component) (e : Entry) (publicOnly : Bool) : List (Descriptor Component) :=
  let props := e.props.map fun p => Descriptor.prop d p.name p.required
  if publicOnly then props
  else
    props ++ e.data.map (.inner d .data) ++ e.computed.map (.inner d .computed)
      ++ e.methods.map (.inner d .method)

/-- All elements or only the first. -/
def limit {α : Type} (onlyFirst : Bool) (xs : List α) : List α :=
  if onlyFirst then xs.take 1 else xs

def ownAttributes (c : Catalog) (d : Component) (test : String → Bool)
    (publicOnly onlyFirst : Bool) : List (Descriptor Component) :=
  match c.entry? (some d) with
  | none => []
  | some e => limit onlyFirst ((candidates d e publicOnly).filter fun a => test a.name)

/-- Local components in the order of declaration; the target is unknown if its name is not
declared. -/
def ownLocals (c : Catalog) (d : Component) : List (LocalComponent Component) :=
  match c.entry? (some d) with
  | none => []
  | some e => e.components.map fun (name, target) => (name, c.get? target)

/-- Those local components that pass a test, only the first or all. -/
def selectLocals (c : Catalog) (d : Component) (test : LocalComponent Component → Bool)
    (onlyFirst : Bool) : List (LocalComponent Component) :=
  (Scope.select (fun _ l => (test l, ())) onlyFirst (c.ownLocals d) ()).1

def ownSource (c : Catalog) : OwnSource Component where
  attributes d test publicOnly onlyFirst := some (c.ownAttributes d test publicOnly onlyFirst)
  locals d := some (c.ownLocals d)

/-! ## Directives -/

def directiveLead : String := "v-"

/-- Directives of a component first, then global ones, which have no owner. -/
def directivesOf (c : Catalog) (d : Option Component) : List (String × Option Component) :=
  (((c.entry? d).map Entry.directives).getD []).map (fun name => (name, d))
    ++ c.globalDirectives.map fun name => (name, none)

def directiveDescriptor (name : String) (owner : Option Component) : Descriptor Component :=
  ⟨directiveLead ++ toKebab name, name, owner, .directive, true, false⟩

def directiveAttributes (c : Catalog) (d : Component) : List (Descriptor Component) :=
  (c.directivesOf (some d)).map fun (name, owner) => directiveDescriptor name owner

/-- The directive that a written attribute names: what stands behind the lead, up to an argument or
a modifier. -/
def directiveName? (written : String) : Option String :=
  (directiveLead.toList.isPrefixOf? written.toList).bind fun after =>
    let name := after.takeWhile fun c => c ≠ ':' && c ≠ '.'
    if name.isEmpty then none else some (String.ofList name)

def resolveDirective (c : Catalog) (d : Option Component) (written : String) :
    Option (Descriptor Component) :=
  (directiveName? written).bind fun wanted =>
    let spellings := variants wanted
    ((c.directivesOf d).find? fun (name, _) =>
      spellings.contains name || spellings.contains (toKebab name)).map fun (name, owner) =>
        directiveDescriptor name owner

def directiveSource (c : Catalog) : DirectiveSource Component where
  attributes d := some (c.directiveAttributes d)
  resolve := c.resolveDirective

/-- All sources of a catalog, with the usual links and grammar. -/
def scope (c : Catalog) : Scope Component where
  index := c.index
  own := c.ownSource
  directives := some c.directiveSource
  links := standardLinks
  grammar := .standard

end ComponentAttrs.Catalog
