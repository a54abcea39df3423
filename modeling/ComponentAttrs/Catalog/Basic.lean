import ComponentAttrs.Component.Basic
import ComponentAttrs.Report.Log

/-!
A catalog: what a project's components declare, one entry for each name, in the order of
declaration.
-/
namespace ComponentAttrs

open ComponentAttrs.Files

structure PropSpec where
  name : String
  required : Bool
deriving DecidableEq

/-- Everything a catalog declares about one component. -/
structure Entry where
  definition : Definition
  props : List PropSpec
  data : List String
  computed : List String
  methods : List String
  mixins : List String
  extended : Option String
  /-- Local names and the components they stand for. -/
  components : List (String × String)
  directives : List String

def Entry.name (e : Entry) : String := e.definition.name

/-- The component that an entry extends; an empty name extends nothing. -/
def Entry.parent? (e : Entry) : Option String := e.extended.filter (· ≠ "")

structure Catalog where
  entries : List Entry
  globalMixins : List String
  globalDirectives : List String
  sourcePath : Option Path
  names_nodup : (entries.map Entry.name).Nodup

/-- A component as a catalog meets it: one that some catalog declares, known by its name, or one
from elsewhere that happens to bear a name. Those from elsewhere are told apart by a number. -/
inductive Component where
  | declared (name : String)
  | foreign (name : String) (serial : Nat := 0)
deriving DecidableEq

def Component.name : Component → String
  | .declared name => name
  | .foreign name _ => name

/-! ## Entries by name -/

section

variable {α κ : Type} [DecidableEq κ] (key : α → κ)

/-- A later element takes the place of an earlier one with the same key; a new key goes to the
end. -/
def putBy (a : α) : List α → List α
  | [] => [a]
  | b :: rest => if key b = key a then a :: rest else b :: putBy a rest

theorem map_key_putBy (a : α) (as : List α) :
    (putBy key a as).map key =
      if key a ∈ as.map key then as.map key else as.map key ++ [key a] := by
  induction as with
  | nil => simp [putBy]
  | cons b rest ih =>
    unfold putBy
    by_cases h : key b = key a
    · simp [h]
    · simp only [h, if_false, List.map_cons, ih, List.mem_cons, Ne.symm h, false_or]
      split <;> simp

theorem nodup_putBy (a : α) {as : List α} (h : (as.map key).Nodup) :
    ((putBy key a as).map key).Nodup := by
  rw [map_key_putBy]
  split
  · exact h
  · next hn =>
    rw [List.nodup_append]
    refine ⟨h, by simp, ?_⟩
    intro b hb c hc hbc
    simp only [List.mem_singleton] at hc
    exact hn (hc ▸ hbc ▸ hb)

/-- The elements that are left when each key keeps its first place and its last element. -/
def gatherBy (as : List α) : List α := as.foldl (fun kept a => putBy key a kept) []

theorem nodup_gatherBy (as : List α) : ((gatherBy key as).map key).Nodup :=
  List.foldlRecOn (motive := fun kept : List α => (kept.map key).Nodup) as _ List.nodup_nil
    fun _ h a _ => nodup_putBy key a h

end

/-- The entries that are left of all that is declared: under each name the last. -/
def gatherEntries (declared : List Entry) : List Entry := gatherBy Entry.name declared

/-! ## Questions -/

namespace Catalog

def size (c : Catalog) : Nat := c.entries.length

def names (c : Catalog) : List String := c.entries.map Entry.name

def entryNamed? (c : Catalog) (name : String) : Option Entry :=
  c.entries.find? (·.name = name)

def contains (c : Catalog) (name : String) : Bool := name ∈ c.names

/-- The component registered under a name. -/
def get? (c : Catalog) (name : String) : Option Component :=
  if c.contains name then some (.declared name) else none

/-- Declarations of a component; none for a component from elsewhere, whatever its name. -/
def entry? (c : Catalog) : Option Component → Option Entry
  | some (.declared name) => c.entryNamed? name
  | _ => none

def definition (c : Catalog) (d : Component) : Definition :=
  match c.entry? (some d) with
  | some e => e.definition
  | none => .named d.name

/-- Names that an entry refers to. -/
def targets (e : Entry) : List String :=
  e.mixins ++ e.parent?.toList ++ e.components.map (·.2)

/-- Names that the catalog refers to and does not declare, each with the component that does. -/
def dangling (c : Catalog) : List (String × String) :=
  let unknown (owner : String) (targets : List String) : List (String × String) :=
    (targets.filter fun t => !c.contains t).map fun t => (owner, t)
  c.entries.flatMap (fun e => unknown e.name (targets e)) ++ unknown "<global>" c.globalMixins

/-- One warning for each dangling name. -/
def danglingLog (c : Catalog) : List LogRecord :=
  c.dangling.map fun (owner, name) =>
    ⟨.warning, .catalog, "Component " ++ Text.quoted owner ++ " refers to unknown component "
      ++ Text.quoted name⟩

end Catalog

end ComponentAttrs
