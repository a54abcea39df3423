import ComponentAttrs.Proofs.Scope.Members

/-!
The interface of a component: what it lists if only public attributes are wanted. Each of its members
is then asked for fewer; the listing is the full one without internal state.
-/
namespace ComponentAttrs.Catalog

open ComponentAttrs.Scope

theorem filter_isPublic_candidates (d : Component) (e : Entry) :
    (candidates d e false).filter (·.isPublic) = candidates d e true := by
  have hprops : (e.props.map fun p => Descriptor.prop d p.name p.required).filter (·.isPublic) =
      e.props.map fun p => Descriptor.prop d p.name p.required := by
    rw [List.filter_eq_self]
    intro a ha
    obtain ⟨p, _, rfl⟩ := List.mem_map.mp ha
    rfl
  have hinner : ∀ kind (names : List String),
      (names.map (Descriptor.inner d kind)).filter (·.isPublic) = [] := by
    intro kind names
    rw [List.filter_eq_nil_iff]
    intro a ha
    obtain ⟨name, _, rfl⟩ := List.mem_map.mp ha
    exact Bool.false_ne_true
  simp only [candidates, Bool.false_eq_true, ↓reduceIte, List.filter_append, hprops, hinner,
    List.append_nil]

theorem filter_isPublic_ownAttributes (c : Catalog) (d : Component) :
    (c.ownAttributes d anyName false false).filter (·.isPublic) =
      c.ownAttributes d anyName true false := by
  unfold ownAttributes
  cases c.entry? (some d) with
  | none => rfl
  | some e =>
    have hall : ∀ as : List (Descriptor Component), (as.filter fun a => anyName a.name) = as :=
      fun _ => List.filter_eq_self.mpr fun _ _ => rfl
    simp only [limit, Bool.false_eq_true, ↓reduceIte, hall, filter_isPublic_candidates]

theorem isPublic_of_mem_directiveAttributes {c : Catalog} {d : Component} {a : Descriptor Component}
    (h : a ∈ c.directiveAttributes d) : a.isPublic := by
  obtain ⟨_, _, rfl⟩ := List.mem_map.mp h
  rfl

/-- Props and directives are the interface, everything else is internal. -/
theorem isPublic_iff_of_mem_attributes {c : Catalog} {root : Option Component}
    {publicOnly inTemplate : Bool} {a : Descriptor Component}
    (h : a ∈ (c.scope.attributes root publicOnly inTemplate).value) :
    a.isPublic ↔ a.kind = .prop ∨ a.kind = .directive := by
  obtain ⟨b, hspelled, hb⟩ := c.exists_of_mem_attributes h
  obtain ⟨name, _, rfl⟩ := mem_displayVariants_iff.mp hspelled
  rcases hb with ⟨d, _, hown⟩ | ⟨d, _, hdirective⟩
  · rcases form_of_mem_ownAttributes hown with ⟨_, _, rfl⟩ | ⟨kind, hkind, _, rfl⟩
    · simp [Descriptor.rename, Descriptor.prop]
    · have hprop : kind ≠ .prop := by
        rintro rfl
        simp at hkind
      have hdirective : kind ≠ .directive := c.kind_of_mem_ownAttributes hown
      simp [Descriptor.rename, Descriptor.inner, hprop, hdirective]
  · simp [Descriptor.rename, isPublic_of_mem_directiveAttributes hdirective,
      kind_of_mem_directiveAttributes c hdirective]

/-- **Public listings.** Asked for public attributes only, every definition gives fewer; what is
listed in the end is the full listing, in its order, without what is not public. That is internal
state, so directives are always there. -/
theorem attributes_publicOnly (c : Catalog) (root : Option Component) (inTemplate : Bool) :
    let everything := (c.scope.attributes root false inTemplate).value
    let shown := (c.scope.attributes root true inTemplate).value
    shown = everything.filter (·.isPublic) ∧
    (∀ a ∈ everything, a.isPublic ↔ a.kind = .prop ∨ a.kind = .directive) ∧
    shown.filter (·.kind = .directive) = everything.filter (·.kind = .directive) := by
  intro everything shown
  have hown : ∀ d, (c.scope.ownAttributes d anyName false false).filter (·.isPublic) =
      c.scope.ownAttributes d anyName true false := c.filter_isPublic_ownAttributes
  have hdirectives : (root.toList.flatMap c.scope.directiveAttributes).filter (·.isPublic) =
      root.toList.flatMap c.scope.directiveAttributes := by
    rw [List.filter_eq_self]
    intro a ha
    obtain ⟨d, _, ha⟩ := List.mem_flatMap.mp ha
    exact isPublic_of_mem_directiveAttributes ha
  have hshown : shown = everything.filter (·.isPublic) := by
    simp only [shown, everything, attributes_value]
    rw [filter_flatMap_displayVariants fun _ _ => rfl, List.filter_append, List.filter_append,
      hdirectives]
    simp only [List.filter_flatMap, hown]
  have hkinds : ∀ a ∈ everything, a.isPublic ↔ a.kind = .prop ∨ a.kind = .directive :=
    fun a ha => isPublic_iff_of_mem_attributes ha
  refine ⟨hshown, hkinds, ?_⟩
  rw [hshown, List.filter_filter]
  apply List.filter_congr
  intro a ha
  by_cases hkind : a.kind = .directive
  · have hpublic : a.isPublic := (hkinds a ha).mpr (.inr hkind)
    simp [hkind, hpublic]
  · simp [hkind]

end ComponentAttrs.Catalog
