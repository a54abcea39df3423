import ComponentAttrs.Catalog.Reading
import ComponentAttrs.Proofs.Attribute.Recovery
import ComponentAttrs.Proofs.Scope.Members

/-!
Looking up what is listed. An attribute that is declared under a recoverable name is found under
every spelling it is listed by, and what is found has the same kebab form. Under any other name it
is not: a listing spells a name in ways that the lookup does not read back.

* `found_iff_recoverable`: exactly the recoverable names are found in all catalogs;
* `capitalised_prop_not_found`: a prop with a capital first letter is not found as templates spell
  it.
-/
namespace ComponentAttrs

open ComponentAttrs.Attribute

namespace Catalog

open ComponentAttrs.Scope

variable (c : Catalog)

theorem declaredName_of_mem_ownAttributes {d : Component} {publicOnly : Bool}
    {a : Descriptor Component} (h : a ∈ c.ownAttributes d anyName publicOnly false) :
    a.declaredName = a.name := by
  rcases form_of_mem_ownAttributes h with ⟨_, _, rfl⟩ | ⟨_, _, _, rfl⟩ <;> rfl

/-- What is listed besides directives is a spelling of an attribute that some member declares. -/
theorem exists_own_of_mem_attributes {root : Option Component} {publicOnly inTemplate : Bool}
    {a : Descriptor Component} (ha : a ∈ (c.scope.attributes root publicOnly inTemplate).value)
    (hkind : a.kind ≠ .directive) :
    ∃ d ∈ c.scope.members root, ∃ b ∈ c.ownAttributes d anyName publicOnly false,
      b.name = a.declaredName ∧ a.name ∈ displayNames inTemplate a.declaredName := by
  obtain ⟨b, hspelled, hb⟩ := c.exists_of_mem_attributes ha
  obtain ⟨name, hname, rfl⟩ := mem_displayVariants_iff.mp hspelled
  rcases hb with ⟨d, hd, hown⟩ | ⟨d, _, hdirective⟩
  · have hsame : b.declaredName = b.name := c.declaredName_of_mem_ownAttributes hown
    refine ⟨d, hd, b, hown, hsame.symm, ?_⟩
    change name ∈ displayNames inTemplate b.declaredName
    rwa [hsame]
  · exact absurd (c.kind_of_mem_directiveAttributes hdirective) hkind

theorem resolve_of_recoverable {root : Option Component} {publicOnly inTemplate : Bool}
    {a : Descriptor Component} (ha : a ∈ (c.scope.attributes root publicOnly inTemplate).value)
    (hkind : a.kind ≠ .directive) (hname : Recoverable a.declaredName) :
    ∃ b, c.scope.resolve root a.name publicOnly = some b ∧
      toKebab b.declaredName = toKebab a.declaredName := by
  obtain ⟨d, hd, b, hb, hdeclared, hlisted⟩ := c.exists_own_of_mem_attributes ha hkind
  have haccepts := hname.matchesName_iff_of_mem hlisted
  have hmatches : Grammar.standard.matchesName a.name b.name := by
    rw [hdeclared, haccepts]
    exact hname.spelled
  obtain ⟨_, _, f, hf, hresolve, hfound⟩ :=
    exists_resolve_of_mem a.name publicOnly (c.selects_of_own_eq rfl) hd hb hmatches
  refine ⟨f, hresolve, ?_⟩
  rw [c.declaredName_of_mem_ownAttributes hf]
  exact hname.toKebab_eq ((haccepts f.name).mp hfound)

/-! ## A component with one prop -/

/-- A catalog of one component that declares one prop. -/
def withProp (name : String) : Catalog where
  entries := [{ Entry.blank "box" with props := [⟨name, false⟩] }]
  globalMixins := []
  globalDirectives := []
  sourcePath := none
  names_nodup := by simp

/-- The component that such a catalog declares. -/
def box : Component := .declared "box"

theorem members_withProp (name : String) : (withProp name).scope.members (some box) = [box] := by
  have hnone : reachable (withProp name).index standardLinks (some box) = [] :=
    reachable_eq_nil rfl
  exact congrArg (box :: ·) hnone

theorem ownAttributes_withProp (name : String) :
    (withProp name).ownAttributes box anyName false false = [.prop box name false] := rfl

/-- What the lookup answers about the prop: nothing but the prop itself is there to be found. -/
theorem resolve_withProp_eq (name written : String) :
    (withProp name).scope.resolve (some box) written false =
      [Descriptor.prop box name false].find? fun a =>
        Grammar.standard.matchesName written a.name := by
  have hfirst : (withProp name).scope.firstMatch written false box =
      [Descriptor.prop box name false].find? fun a =>
        Grammar.standard.matchesName written a.name := rfl
  have hdirective : (withProp name).resolveDirective (some box) written = none := by
    rw [resolveDirective, Option.bind_eq_none_iff]
    intro _ _
    rfl
  have hsource : ((withProp name).scope.directives.bind fun source =>
      source.resolve (some box) written) = none := hdirective
  rw [resolve_eq written false ((withProp name).selects_of_own_eq rfl), members_withProp,
    List.findSome?_singleton, hfirst, hsource, Option.or_none]

theorem resolve_withProp {name written : String}
    (h : ¬ Grammar.standard.matchesName written name) :
    (withProp name).scope.resolve (some box) written false = none := by
  rw [resolve_withProp_eq]
  simpa [Descriptor.prop] using h

theorem resolve_withProp_of_matchesName {name written : String}
    (h : Grammar.standard.matchesName written name) :
    (withProp name).scope.resolve (some box) written false = some (.prop box name false) := by
  rw [resolve_withProp_eq]
  exact List.find?_cons_of_pos h

theorem mem_attributes_withProp {name written : String} {inTemplate : Bool}
    (h : written ∈ displayNames inTemplate name) :
    (Descriptor.prop box name false).rename written ∈
      ((withProp name).scope.attributes (some box) false inTemplate).value := by
  have hdeclared : (Descriptor.prop box name false).rename written ∈
      (withProp name).declared (some box) false inTemplate := by
    rw [declared_eq, members_withProp, List.flatMap_singleton, ownAttributes_withProp,
      List.flatMap_singleton, mem_displayVariants_iff]
    exact ⟨written, h, rfl⟩
  exact (List.mem_filter.mp hdeclared).1

/-- **What is listed can be looked up**, if it is declared under a recoverable name: then every
spelling that it is listed under finds an attribute of the same kebab form. Names that are not
recoverable are listed under a spelling that finds nothing of the kind. -/
theorem found_iff_recoverable (name : String) :
    Recoverable name ↔ ∀ (c : Catalog) (root : Option Component) (publicOnly inTemplate : Bool),
      ∀ a ∈ (c.scope.attributes root publicOnly inTemplate).value,
        a.kind ≠ .directive → a.declaredName = name →
          ∃ b, c.scope.resolve root a.name publicOnly = some b ∧
            toKebab b.declaredName = toKebab a.declaredName := by
  constructor
  · rintro hname c root publicOnly inTemplate a ha hkind rfl
    exact c.resolve_of_recoverable ha hkind hname
  · intro hfound
    apply recoverable_of_matchesName
    intro inTemplate written hwritten
    obtain ⟨b, hb, _⟩ := hfound (withProp name) (some box) false inTemplate _
      (mem_attributes_withProp hwritten) nofun rfl
    apply Decidable.byContradiction
    intro hno
    have hnone : (withProp name).scope.resolve (some box) written false = none :=
      resolve_withProp hno
    have hsome : (withProp name).scope.resolve (some box) written false = some b := hb
    rw [hnone] at hsome
    cases hsome

/-- A prop with a capital first letter is listed in kebab case, and nothing is found under that. -/
theorem capitalised_prop_not_found :
    (∃ document, Catalog.ofValue none document = .ok (withProp "MyProp")) ∧
    ∃ a ∈ ((withProp "MyProp").scope.attributes (some box) false true).value,
      a.kind = .prop ∧ a.name = "my-prop" ∧
        (withProp "MyProp").scope.resolve (some box) a.name false = none := by
  have hdocument : Catalog.ofValue none (.record [("components", .record
      [("box", .record [("props", .list none [.text "MyProp"])])])]) =
      .ok (withProp "MyProp") := rfl
  have hlisted : "my-prop" ∈ displayNames true "MyProp" := by decide
  exact ⟨⟨_, hdocument⟩, _, mem_attributes_withProp hlisted, rfl, rfl, resolve_withProp (by decide)⟩

end Catalog

end ComponentAttrs
