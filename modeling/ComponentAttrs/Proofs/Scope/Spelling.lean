import ComponentAttrs.Proofs.Attribute.WellFormed
import ComponentAttrs.Proofs.Scope.Retrieval

/-!
A lookup does not see how a well-formed name is spelled. Kebab or camel case, with a lead or
without: the names denote the same attributes, so two lookups ask the same definitions in the same
order and end at the same place.
-/
namespace ComponentAttrs

open ComponentAttrs.Attribute

namespace Scope

variable {δ : Type} [DecidableEq δ]

/-- Without directives a lookup depends on what a written name denotes, and on nothing else about
it. -/
theorem lookUp_congr {s : Scope δ} (hs : s.directives = none) {written other : String}
    (h : ∀ name, s.grammar.matchesName written name ↔ s.grammar.matchesName other name)
    (root : Option δ) (publicOnly : Bool) :
    s.lookUp root written publicOnly = s.lookUp root other publicOnly := by
  have hmatches : s.grammar.matchesName written = s.grammar.matchesName other := by
    funext name
    rw [Bool.eq_iff_iff]
    exact h name
  have hinquire : s.inquire written publicOnly = s.inquire other publicOnly := by
    unfold inquire
    rw [hmatches]
  simp only [lookUp, hinquire, hs]

end Scope

namespace Catalog

open ComponentAttrs.Scope

/-- **Spelling does not matter.** Well-formed names with the same kebab form find the same attribute
in every catalog, whatever leads they are written with, if there are no directives to fall back
to. -/
theorem resolve_eq_of_toKebab_eq (c : Catalog) (root : Option Component) (publicOnly : Bool)
    {x y p q : String} (hx : x.toList ∈ wellFormedNames) (hy : y.toList ∈ wellFormedNames)
    (hxy : toKebab x = toKebab y) (hp : p ∈ "" :: Grammar.standard.leads)
    (hq : q ∈ "" :: Grammar.standard.leads) :
    let s : Scope Component := { c.scope with directives := none }
    s.resolve root (p ++ x) publicOnly = s.resolve root (q ++ y) publicOnly := by
  intro s
  have hgrammar : s.grammar = Grammar.standard := rfl
  have hdenotes : ∀ name, s.grammar.matchesName (p ++ x) name ↔
      s.grammar.matchesName (q ++ y) name := by
    intro name
    rw [hgrammar, (recoverable_of_mem_wellFormedNames hx).matchesName_append_iff hp,
      (recoverable_of_mem_wellFormedNames hy).matchesName_append_iff hq, hxy]
  have hlookup : s.lookUp root (p ++ x) publicOnly = s.lookUp root (q ++ y) publicOnly :=
    lookUp_congr rfl hdenotes root publicOnly
  rw [resolve, resolve, hlookup]

/-- A prop in camel case, bound in kebab case and listened to in camel case. -/
theorem resolve_bound_eq_resolve_listened :
    let s : Scope Component := { (withProp "myProp").scope with directives := none }
    ("my-prop".toList ∈ wellFormedNames ∧ "myProp".toList ∈ wellFormedNames ∧
      toKebab "my-prop" = toKebab "myProp" ∧ ":" ∈ "" :: Grammar.standard.leads ∧
      "v-on:" ∈ "" :: Grammar.standard.leads) ∧
    s.resolve (some box) (":" ++ "my-prop") false = some (.prop box "myProp" false) ∧
    s.resolve (some box) (":" ++ "my-prop") false =
      s.resolve (some box) ("v-on:" ++ "myProp") false := by
  intro s
  have hkebab : "my-prop".toList ∈ wellFormedNames := by decide
  have hcamel : "myProp".toList ∈ wellFormedNames := by decide
  have hsame : toKebab "my-prop" = toKebab "myProp" := by decide
  have hbind : ":" ∈ "" :: Grammar.standard.leads := by decide
  have hlisten : "v-on:" ∈ "" :: Grammar.standard.leads := by decide
  have hmembers : s.members (some box) = [box] := members_withProp "myProp"
  have hfirst : s.firstMatch (":" ++ "my-prop") false box = some (.prop box "myProp" false) := by
    decide
  refine ⟨⟨hkebab, hcamel, hsame, hbind, hlisten⟩, ?_, ?_⟩
  · rw [Scope.resolve_eq (":" ++ "my-prop") false ((withProp "myProp").selects_of_own_eq rfl),
      hmembers, List.findSome?_singleton, hfirst, Option.some_or]
  · exact resolve_eq_of_toKebab_eq (withProp "myProp") (some box) false hkebab hcamel hsame hbind
      hlisten

end Catalog

end ComponentAttrs
