import ComponentAttrs.Proofs.Attribute.Marks
import ComponentAttrs.Proofs.Scope.Retrieval

/-!
Modifiers in a lookup. The parts of a written name come out one by one where it is taken apart, but
a lookup cuts off the lead alone and takes the modifier for part of the name. A modifier has a dot
and no spelling changes dots, so with and without it a name denotes different attributes.

* `not_mem_variants_append`: nothing is denoted both with and without a modifier;
* `resolve_modified_eq_iff`: when the lookup makes no difference;
* `modified_prop_not_found`: a prop is found under its name and not under the name with a modifier.
-/
namespace ComponentAttrs

open ComponentAttrs.Attribute

namespace Attribute

/-- The modifiers that may follow a base name under a rule: those of its table, or any segment
without a further dot. -/
def Rule.admits (r : Rule) (modifier : String) : Bool :=
  if r.modifiers.contains anyModifier then
    match modifier.toList with
    | '.' :: segment => !segment.isEmpty && !segment.contains '.'
    | _ => false
  else r.modifiers.contains modifier

theorem dot_mem_of_admits {r : Rule} (hr : r ∈ Grammar.standard.bindings) {modifier : String}
    (h : r.admits modifier) : '.' ∈ modifier.toList := by
  have hbind : modifier ∈ bindModifiers → '.' ∈ modifier.toList := by
    intro hm
    simp only [bindModifiers, List.mem_cons, List.not_mem_nil, or_false] at hm
    rcases hm with rfl | rfl | rfl <;> decide
  have hany : ∀ lead, (Rule.mk lead [anyModifier]).admits modifier → '.' ∈ modifier.toList := by
    intro lead hm
    unfold Rule.admits at hm
    split at hm
    · split at hm
      · next segment hsegment =>
        rw [hsegment]
        exact List.mem_cons_self
      · cases hm
    · next hno => exact absurd rfl hno
  simp only [Grammar.standard, List.mem_cons, List.not_mem_nil, or_false] at hr
  rcases hr with rfl | rfl | rfl | rfl
  · exact hbind (by simpa [Rule.admits, bindModifiers, anyModifier] using h)
  · exact hbind (by simpa [Rule.admits, bindModifiers, anyModifier] using h)
  · exact hany _ h
  · exact hany _ h

/-- A spelling of a name with a modifier is no spelling of the name without it. -/
theorem not_mem_variants_append {base modifier name : String} (hbase : '.' ∉ base.toList)
    (hm : '.' ∈ modifier.toList) (h : name ∈ variants (base ++ modifier)) :
    name ∉ variants base := by
  intro hplain
  have hdot : '.' ∈ (base ++ modifier).toList := by
    rw [String.toList_append]
    exact List.mem_append_right _ hm
  rw [← mem_toList_of_mem_variants (by decide) h, mem_toList_of_mem_variants (by decide) hplain]
    at hdot
  exact hbase hdot

end Attribute

namespace Catalog

open ComponentAttrs.Scope

variable (c : Catalog)

/-- Behind a lead directives are not told apart. -/
theorem directiveName?_append {lead : String} (h : lead ∈ Grammar.standard.leads)
    (after other : String) : directiveName? (lead ++ after) = directiveName? (lead ++ other) := by
  rw [directiveName?, directiveName?, String.toList_append, String.toList_append]
  rcases eq_of_mem_leads h with rfl | rfl | rfl | rfl <;> rfl

section

variable {c} {root : Option Component} {publicOnly : Bool} {written : String}

theorem resolve_of_not_matchesName
    (h : ∀ d ∈ c.scope.members root, ∀ a ∈ c.ownAttributes d anyName publicOnly false,
      ¬ Grammar.standard.matchesName written a.name) :
    c.scope.resolve root written publicOnly = c.resolveDirective root written := by
  have hnone : (c.scope.members root).findSome? (c.scope.firstMatch written publicOnly) = none := by
    rw [List.findSome?_eq_none_iff]
    intro d hd
    rw [firstMatch, List.find?_eq_none]
    exact h d hd
  rw [resolve_eq written publicOnly (c.selects_of_own_eq rfl), hnone, Option.none_or]
  rfl

/-- What is found, directives apart, has a name that was written. -/
theorem matchesName_of_resolve {a : Descriptor Component}
    (h : c.scope.resolve root written publicOnly = some a) (hkind : a.kind ≠ .directive) :
    Grammar.standard.matchesName written a.name := by
  rw [resolve_eq written publicOnly (c.selects_of_own_eq rfl), Option.or_eq_some_iff] at h
  rcases h with h | ⟨_, h⟩
  · obtain ⟨d, _, hd⟩ := List.exists_of_findSome?_eq_some h
    exact (List.find?_eq_some_iff_append.mp hd).1
  · have hdirective : c.resolveDirective root written = some a := h
    obtain ⟨_, _, hfound⟩ := Option.bind_eq_some_iff.mp hdirective
    obtain ⟨_, _, rfl⟩ := Option.map_eq_some_iff.mp hfound
    exact absurd rfl hkind

/-- Two names that denote nothing in common find the same only if the first denotes nothing that is
declared. -/
theorem not_matchesName_of_resolve_eq {other : String}
    (hapart : ∀ name, Grammar.standard.matchesName written name →
      ¬ Grammar.standard.matchesName other name)
    (h : c.scope.resolve root written publicOnly = c.scope.resolve root other publicOnly)
    {d : Component} (hd : d ∈ c.scope.members root) {a : Descriptor Component}
    (ha : a ∈ c.ownAttributes d anyName publicOnly false) :
    ¬ Grammar.standard.matchesName written a.name := by
  intro hname
  obtain ⟨_, _, b, hb, hresolve, hfound⟩ :=
    exists_resolve_of_mem written publicOnly (c.selects_of_own_eq rfl) hd ha hname
  have hother := matchesName_of_resolve (h ▸ hresolve) (c.kind_of_mem_ownAttributes hb)
  exact hapart b.name hfound hother

end

/-- **A modifier makes a difference.** A lookup answers the same with and without a modifier that
the lead admits if no attribute of the component, own or inherited, is declared under a spelling of
the base name or of the base name with the modifier, and only then. What is left to directives does
not depend on modifiers. -/
theorem resolve_modified_eq_iff (root : Option Component) (publicOnly : Bool) {r : Rule}
    (hr : r ∈ Grammar.standard.bindings) {base modifier : String} (hbase : '.' ∉ base.toList)
    (hm : r.admits modifier) :
    c.scope.resolve root (r.lead ++ base ++ modifier) publicOnly =
        c.scope.resolve root (r.lead ++ base) publicOnly ↔
      ∀ d ∈ c.scope.members root, ∀ a ∈ c.ownAttributes d anyName publicOnly false,
        a.name ∉ variants base ∧ a.name ∉ variants (base ++ modifier) := by
  have hlead : r.lead ∈ Grammar.standard.leads := List.mem_map_of_mem hr
  have hplain : ∀ name, Grammar.standard.matchesName (r.lead ++ base) name ↔
      name ∈ variants base := by
    intro name
    rw [matchesName_iff, withoutLead_append hlead]
  have hmodified : ∀ name, Grammar.standard.matchesName (r.lead ++ base ++ modifier) name ↔
      name ∈ variants (base ++ modifier) := by
    intro name
    rw [matchesName_iff, String.append_assoc, withoutLead_append hlead]
  have hapart : ∀ name, name ∈ variants (base ++ modifier) → name ∉ variants base :=
    fun _ => not_mem_variants_append hbase (dot_mem_of_admits hr hm)
  constructor
  · -- a declared name would be found by one of the two lookups and be none of the other's
    intro h d hd a ha
    constructor
    · rw [← hplain]
      refine not_matchesName_of_resolve_eq ?_ h.symm hd ha
      intro name hname hboth
      exact hapart name ((hmodified name).mp hboth) ((hplain name).mp hname)
    · rw [← hmodified]
      refine not_matchesName_of_resolve_eq ?_ h hd ha
      intro name hname hboth
      exact hapart name ((hmodified name).mp hname) ((hplain name).mp hboth)
  · intro h
    have hdirective : c.resolveDirective root (r.lead ++ base ++ modifier) =
        c.resolveDirective root (r.lead ++ base) := by
      rw [resolveDirective, resolveDirective, String.append_assoc, directiveName?_append hlead]
    rw [resolve_of_not_matchesName, resolve_of_not_matchesName, hdirective]
    · intro d hd a ha
      rw [hplain]
      exact (h d hd a ha).1
    · intro d hd a ha
      rw [hmodified]
      exact (h d hd a ha).2

/-- An event handler is another one with a modifier. -/
theorem modified_event_found_apart :
    let handler : Rule := ⟨"@", [anyModifier]⟩
    (handler ∈ Grammar.standard.bindings ∧ '.' ∉ "click".toList ∧ handler.admits ".native") ∧
    (withProp "click").scope.resolve (some box) (handler.lead ++ "click" ++ ".native") false ≠
      (withProp "click").scope.resolve (some box) (handler.lead ++ "click") false := by
  intro handler
  have hrule : handler ∈ Grammar.standard.bindings := by decide
  refine ⟨⟨hrule, by decide, by decide⟩, ?_⟩
  intro heq
  have hnone := (resolve_modified_eq_iff (withProp "click") (some box) false hrule (by decide)
    (by decide)).mp heq
  have hdeclared := hnone box (by simp [members_withProp]) (.prop box "click" false)
    (by simp [ownAttributes_withProp])
  exact hdeclared.1 (by decide)

/-- A prop is found under its name behind a colon; with a modifier that may stand there nothing is
found. -/
theorem modified_prop_not_found :
    (∃ document, Catalog.ofValue none document = .ok (withProp "value")) ∧
    (∃ r ∈ Grammar.standard.bindings, r.lead = ":" ∧ r.admits ".sync") ∧
    (withProp "value").scope.resolve (some box) (":" ++ "value") false =
      some (.prop box "value" false) ∧
    (withProp "value").scope.resolve (some box) (":" ++ "value" ++ ".sync") false = none := by
  have hdocument : Catalog.ofValue none (.record [("components", .record
      [("box", .record [("props", .list none [.text "value"])])])]) =
      .ok (withProp "value") := rfl
  exact ⟨⟨_, hdocument⟩, ⟨⟨":", bindModifiers⟩, by decide, rfl, by decide⟩,
    resolve_withProp_of_matchesName (by decide), resolve_withProp (by decide)⟩

end Catalog

end ComponentAttrs
