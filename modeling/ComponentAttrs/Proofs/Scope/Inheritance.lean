import Mathlib.Data.List.Flatten
import Mathlib.Data.List.Perm.Basic
import ComponentAttrs.Proofs.Scope.Members

/-!
Inheritance is transitive: whatever a component has through composition, everything composed of it
has too, as often and in whatever order. Directives are not inherited and are left out.
-/
namespace ComponentAttrs.Catalog

open ComponentAttrs.Scope

variable (c : Catalog)

/-- More members list more attributes, each as often as before. -/
theorem declared_subperm {d root : Option Component} (h : c.scope.members d ⊆ c.scope.members root)
    (publicOnly inTemplate : Bool) :
    (c.declared d publicOnly inTemplate).Subperm (c.declared root publicOnly inTemplate) := by
  obtain ⟨ds, hperm, hsub⟩ := List.subperm_of_subset (c.scope.nodup_members d) h
  rw [declared_eq, declared_eq, List.flatMap_assoc, List.flatMap_assoc]
  exact ⟨_, hperm.flatMap_right _, hsub.flatMap _⟩

theorem resolve_of_mem_members {root : Option Component} {e : Component}
    {a : Descriptor Component} {written : String} {publicOnly : Bool}
    (he : e ∈ c.scope.members root) (ha : a ∈ c.ownAttributes e anyName publicOnly false)
    (hname : Attribute.Grammar.standard.matchesName written a.name) :
    ∃ b, c.scope.resolve root written publicOnly = some b ∧ b.kind ≠ .directive := by
  obtain ⟨e, _, b, hb, hresolve, _⟩ :=
    exists_resolve_of_mem written publicOnly (c.selects_of_own_eq rfl) he ha hname
  exact ⟨b, hresolve, c.kind_of_mem_ownAttributes hb⟩

/-- **Inheritance is transitive.** A component lists everything that a component lists which it is
composed of, directives apart, and finds every name that this one finds among its own attributes and
those it inherits. Components that are composed of each other list the same. -/
theorem inherits_from_reachable (r d : Component)
    (hd : d ∈ reachable c.index standardLinks (some r)) (publicOnly inTemplate : Bool) :
    (c.declared (some d) publicOnly inTemplate).Subperm
      (c.declared (some r) publicOnly inTemplate) ∧
    (∀ written, (∃ e ∈ d :: reachable c.index standardLinks (some d),
        ∃ a ∈ c.ownAttributes e anyName publicOnly false,
          Attribute.Grammar.standard.matchesName written a.name) →
      ∃ b, c.scope.resolve (some r) written publicOnly = some b ∧ b.kind ≠ .directive) ∧
    (r ∈ reachable c.index standardLinks (some d) →
      (c.declared (some d) publicOnly inTemplate).Perm
        (c.declared (some r) publicOnly inTemplate)) := by
  have hsub : c.scope.members (some d) ⊆ c.scope.members (some r) :=
    c.scope.members_subset (mem_members_of_reachable c.scope hd)
  refine ⟨c.declared_subperm hsub publicOnly inTemplate, ?_, ?_⟩
  · rintro written ⟨e, he, a, ha, hname⟩
    exact c.resolve_of_mem_members (hsub he) ha hname
  · intro hr
    have hback := c.scope.members_subset (mem_members_of_reachable c.scope hr)
    exact (c.declared_subperm hsub publicOnly inTemplate).antisymm
      (c.declared_subperm hback publicOnly inTemplate)

/-- Two components that take in each other; one of them declares a prop. -/
def mutualPair : Catalog where
  entries := [{ Entry.blank "left" with mixins := ["right"] },
    { Entry.blank "right" with props := [⟨"inputValue", false⟩], extended := some "left" }]
  globalMixins := []
  globalDirectives := []
  sourcePath := none
  names_nodup := by decide

theorem mutualPair_inherits :
    let left := Component.declared "left"
    let right := Component.declared "right"
    (right ∈ reachable mutualPair.index standardLinks (some left) ∧
      left ∈ reachable mutualPair.index standardLinks (some right)) ∧
    (mutualPair.declared (some right) false true).Perm
      (mutualPair.declared (some left) false true) ∧
    ∃ b, mutualPair.scope.resolve (some left) ":input-value" false = some b ∧
      b.kind ≠ .directive := by
  intro left right
  have hright : right ∈ reachable mutualPair.index standardLinks (some left) :=
    mem_reachable_iff.mpr ⟨by decide, .direct (by decide)⟩
  have hleft : left ∈ reachable mutualPair.index standardLinks (some right) :=
    mem_reachable_iff.mpr ⟨by decide, .direct (by decide)⟩
  obtain ⟨_, hresolve, hperm⟩ := inherits_from_reachable mutualPair left right hright false true
  refine ⟨⟨hright, hleft⟩, hperm hleft, hresolve ":input-value" ⟨right, by simp, ?_⟩⟩
  exact ⟨.prop right "inputValue" false, by decide, by decide⟩

end ComponentAttrs.Catalog
