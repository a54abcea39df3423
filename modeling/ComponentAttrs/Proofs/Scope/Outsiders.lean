import ComponentAttrs.Proofs.Catalog.Entries
import ComponentAttrs.Proofs.Scope.Locals

/-!
Components from elsewhere. To a catalog one of them is like no component: it has no declarations, no
reference stands for it, and only what is registered for every component is left. A listing alone
tells the two apart: global directives are listed for a component, whatever it is.

* `reachable_of_not_mem`: walks from an outsider and from an absent root;
* `outsider_answers_as_absent`: everything a catalog answers about it.
-/
namespace ComponentAttrs

/-- A root that no reference stands for and that refers to nothing of its own is expanded like an
absent one. -/
theorem reachable_of_not_mem {δ : Type} [DecidableEq δ] {ix : Index δ} {links : List LinkKind}
    {root : δ} (hroot : root ∉ ix.definitions)
    (htargets : ix.targets links (some root) = ix.targets links none) :
    reachable ix links (some root) = reachable ix links none := by
  have hinitial : Frontier.initial ix (some root) () = Frontier.initial ix none () := by
    have hkeep : ∀ d ∈ ix.definitions, decide (some d ≠ some root) = decide (some d ≠ none) := by
      intro d hd
      have hne : d ≠ root := by
        rintro rfl
        exact hroot hd
      simp [hne]
    simp only [Frontier.initial, List.filter_congr hkeep]
  have hsome := visitsOf_walkThen_watch ix ix links (some root)
  have hnone := visitsOf_walkThen_watch ix ix links none
  simp only [hinitial, htargets] at hsome
  exact hsome.trans hnone.symm

namespace Catalog

open ComponentAttrs.Attribute ComponentAttrs.Scope

section

variable {c : Catalog} {d : Component} (hd : d ∉ c.index.definitions)

include hd

theorem entry?_of_not_mem : c.entry? (some d) = none := by
  cases d with
  | foreign => rfl
  | declared name =>
    cases he : c.entryNamed? name with
    | none => exact he
    | some e =>
      obtain ⟨hmem, hname⟩ := entryNamed?_eq_some_iff.mp he
      exact absurd (List.mem_map_of_mem (List.mem_map.mpr ⟨e, hmem, hname⟩)) hd

theorem row_of_not_mem (kind : LinkKind) : c.index.row kind (some d) = c.index.row kind none := by
  have hentry := entry?_of_not_mem hd
  cases kind with
  | globalMixin => rfl
  | localMixin | extension => simp [Index.row, index, hentry, references]

theorem ownAttributes_of_not_mem (test : String → Bool) (publicOnly onlyFirst : Bool) :
    c.ownAttributes d test publicOnly onlyFirst = [] := by
  unfold ownAttributes
  rw [entry?_of_not_mem hd]

theorem ownLocals_of_not_mem : c.ownLocals d = [] := by
  unfold ownLocals
  rw [entry?_of_not_mem hd]

theorem directivesOf_of_not_mem : c.directivesOf (some d) = c.directivesOf none := by
  unfold directivesOf
  rw [entry?_of_not_mem hd]
  rfl

/-- The directives listed for an outsider are the global ones. -/
theorem directiveAttributes_of_not_mem :
    c.directiveAttributes d = c.globalDirectives.map fun name => directiveDescriptor name none := by
  have hglobal : c.directivesOf none = c.globalDirectives.map fun name => (name, none) := rfl
  rw [directiveAttributes, directivesOf_of_not_mem hd, hglobal, List.map_map]
  rfl

end

/-- **An outsider is like no component.** A catalog reaches the same from it, finds the same for
every name and offers every processor the same local components; its listing is that of no component
behind the global directives. -/
theorem outsider_answers_as_absent (c : Catalog) (links : List LinkKind) (g : Grammar)
    (d : Component) (hd : d ∉ c.index.definitions) :
    let s : Scope Component := ⟨c.index, c.ownSource, some c.directiveSource, links, g⟩
    reachable c.index links (some d) = reachable c.index links none ∧
    (∀ written publicOnly,
      s.resolve (some d) written publicOnly = s.resolve none written publicOnly) ∧
    (∀ (σ : Type) (process : Processor σ Component) (memory : σ),
      let w := s.offerLocals (some d) process memory
      let absent := s.offerLocals none process memory
      w.outcome = absent.outcome ∧ w.memory = absent.memory) ∧
    ∀ publicOnly inTemplate,
      (s.attributes (some d) publicOnly inTemplate).value =
        (c.globalDirectives.map fun name => directiveDescriptor name none).flatMap
            (displayVariants inTemplate) ++
          (s.attributes none publicOnly inTemplate).value := by
  intro s
  have hreachable : reachable c.index links (some d) = reachable c.index links none := by
    apply reachable_of_not_mem hd
    simp only [Index.targets, row_of_not_mem hd]
  have hmembers : s.members (some d) = d :: s.members none := congrArg (d :: ·) hreachable
  refine ⟨hreachable, fun written publicOnly => ?_, fun σ process memory => ?_,
    fun publicOnly inTemplate => ?_⟩
  · have hs : s.Selects := c.selects_of_own_eq rfl
    have hown : s.firstMatch written publicOnly d = none :=
      congrArg (List.find? _) (ownAttributes_of_not_mem hd anyName publicOnly false)
    have hdirective : c.resolveDirective (some d) written = c.resolveDirective none written := by
      simp only [resolveDirective, directivesOf_of_not_mem hd]
    rw [resolve_eq written publicOnly hs, resolve_eq written publicOnly hs, hmembers,
      List.findSome?_cons, hown]
    exact congrArg (Option.or _) hdirective
  · have hown : s.ownLocals d = [] := ownLocals_of_not_mem hd
    have hoffer := s.offerLocals_eq_offer process (some d) memory
    rw [hmembers, List.flatMap_cons, hown, List.nil_append] at hoffer
    exact Prod.ext_iff.mp (hoffer.trans (s.offerLocals_eq_offer process none memory).symm)
  · have hown : s.ownAttributes d anyName publicOnly false = [] :=
      ownAttributes_of_not_mem hd anyName publicOnly false
    have hdirectives : s.directiveAttributes d = _ := directiveAttributes_of_not_mem hd
    have hcomposed : reachable s.index s.links (some d) = reachable s.index s.links none :=
      hreachable
    rw [attributes_value, attributes_value, hcomposed]
    simp only [Option.toList_some, Option.toList_none, List.flatMap_cons, List.flatMap_nil,
      List.append_nil, List.nil_append, hown, hdirectives, List.flatMap_append]

/-- A page that is composed into what is registered for every component. -/
def namesakeSite : Catalog where
  entries := [{ Entry.blank "page" with
      props := [⟨"title", true⟩]
      components := [("Row", "row")]
      directives := ["drag"] },
    { Entry.blank "row" with mixins := ["page"] }]
  globalMixins := ["row"]
  globalDirectives := ["focus"]
  sourcePath := none
  names_nodup := by decide

/-- Another page from elsewhere leads to the page of the catalog and has nothing of it by itself. -/
theorem namesake_answers_as_absent :
    let namesake := Component.foreign "page"
    let s := namesakeSite.scope
    let process : Processor (List String) Component := fun given l => (.stop, given ++ [l.1])
    namesake ∉ namesakeSite.index.definitions ∧
    .declared "page" ∈ reachable s.index s.links (some namesake) ∧
    reachable s.index s.links (some namesake) = reachable s.index s.links none ∧
    s.resolve (some namesake) ":title" true = s.resolve none ":title" true ∧
    (s.offerLocals (some namesake) process []).memory = (s.offerLocals none process []).memory ∧
    (s.attributes (some namesake) false false).value =
      (directiveDescriptor "focus" none).rename "vFocus" ::
        (s.attributes none false false).value := by
  intro namesake s process
  have hnamesake : namesake ∉ namesakeSite.index.definitions := by decide
  obtain ⟨hreachable, hresolve, hlocals, hattributes⟩ :=
    outsider_answers_as_absent namesakeSite standardLinks .standard namesake hnamesake
  have hpage : .declared "page" ∈ reachable s.index s.links (some namesake) :=
    mem_reachable_iff.mpr
      ⟨by decide, .onward (c := .declared "row") (.direct (by decide)) (by decide)⟩
  have hglobal :
      (namesakeSite.globalDirectives.map fun name => directiveDescriptor name none).flatMap
        (displayVariants false) = [(directiveDescriptor "focus" none).rename "vFocus"] := by
    decide
  have hlisted := hattributes false false
  rw [hglobal] at hlisted
  exact ⟨hnamesake, hpage, hreachable, hresolve ":title" true, (hlocals _ process []).2, hlisted⟩

end Catalog

end ComponentAttrs
