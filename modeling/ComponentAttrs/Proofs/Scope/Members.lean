import ComponentAttrs.Proofs.Attribute.Spelling
import ComponentAttrs.Proofs.Scope.Listing
import ComponentAttrs.Proofs.Scope.Lookup

/-!
A component and everything it is composed of. Listings and lookups go through these members in the
same order: a listing takes all attributes of each, a lookup the first one that a written name
denotes.

* `members_subset`: a member of a member is a member;
* `resolve_eq`: a lookup as a search through the members;
* `Catalog.exists_of_mem_attributes`: what a listed attribute spells;
* `Catalog.declared_eq`: a catalog's listing without directives, member by member.
-/
namespace ComponentAttrs

namespace Scope

open ComponentAttrs.Attribute

variable {δ : Type} [DecidableEq δ]

/-- A component and what it is composed of, nearest first. -/
def members (s : Scope δ) (root : Option δ) : List δ :=
  root.toList ++ reachable s.index s.links root

section

variable (s : Scope δ) {root : Option δ} {d : δ}

theorem nodup_members (root : Option δ) : (s.members root).Nodup :=
  nodup_root_append_reachable s.index s.links root

theorem mem_members_iff : d ∈ s.members root ↔ some d = root ∨ Reaches s.index s.links root d :=
  mem_root_append_reachable s.index s.links root

theorem mem_members_of_reachable (h : d ∈ reachable s.index s.links root) : d ∈ s.members root :=
  List.mem_append_right _ h

theorem members_subset (h : d ∈ s.members root) : s.members (some d) ⊆ s.members root := by
  intro e he
  rw [mem_members_iff] at h he ⊢
  rcases he with heq | he
  · cases heq
    exact h
  · rcases h with rfl | hd
    · exact .inr he
    · exact .inr (hd.trans he)

end

/-! ## Lookups -/

section

variable {s : Scope δ} (written : String) (publicOnly : Bool)

omit [DecidableEq δ] in
theorem answer_offer_inquire (hs : s.Selects) (ds : List δ) :
    (offer (s.inquire written publicOnly) ds ⟨[], none⟩).2.answer =
      ds.findSome? (s.firstMatch written publicOnly) := by
  cases hm : ds.findSome? (s.firstMatch written publicOnly) with
  | none =>
    rw [offer_inquire_of_none written publicOnly hs (List.findSome?_eq_none_iff.mp hm)]
  | some a =>
    obtain ⟨before, d, after, rfl, hd, hbefore⟩ := List.findSome?_eq_some_iff.mp hm
    rw [offer_inquire_of_some written publicOnly hs hbefore hd after]

/-- The first match among the members, or what directives answer. -/
theorem resolve_eq (hs : s.Selects) (root : Option δ) :
    s.resolve root written publicOnly =
      ((s.members root).findSome? (s.firstMatch written publicOnly)).or
        (s.directives.bind fun source => source.resolve root written) := by
  rw [← answer_offer_inquire written publicOnly hs]
  exact (lookUp_eq_offer s written publicOnly root).2

/-- Whatever attribute of a member has a fitting name, the lookup finds one of these. -/
theorem exists_resolve_of_mem (hs : s.Selects) {root : Option δ} {d : δ} {a : Descriptor δ}
    (hd : d ∈ s.members root) (ha : a ∈ s.ownAttributes d anyName publicOnly false)
    (hname : s.grammar.matchesName written a.name) :
    ∃ e ∈ s.members root, ∃ b ∈ s.ownAttributes e anyName publicOnly false,
      s.resolve root written publicOnly = some b ∧ s.grammar.matchesName written b.name := by
  have hsome : ((s.members root).findSome? (s.firstMatch written publicOnly)).isSome := by
    rw [List.findSome?_isSome_iff]
    exact ⟨d, hd, List.find?_isSome.mpr ⟨a, ha, hname⟩⟩
  obtain ⟨b, hb⟩ := Option.isSome_iff_exists.mp hsome
  obtain ⟨e, he, hfirst⟩ := List.exists_of_findSome?_eq_some hb
  refine ⟨e, he, b, List.mem_of_find?_eq_some hfirst, ?_,
    (List.find?_eq_some_iff_append.mp hfirst).1⟩
  rw [resolve_eq written publicOnly hs, hb, Option.some_or]

end

/-! ## Spellings of one attribute -/

omit [DecidableEq δ] in
/-- They differ in the name and in nothing else. -/
theorem displayVariants_eq (inTemplate : Bool) (a : Descriptor δ) :
    displayVariants inTemplate a = (displayNames inTemplate a.name).map a.rename := by
  unfold displayVariants displayNames
  cases inTemplate with
  | true => rfl
  | false =>
    simp only [Bool.false_eq_true, ↓reduceIte]
    split <;> rfl

omit [DecidableEq δ] in
theorem mem_displayVariants_iff {inTemplate : Bool} {a b : Descriptor δ} :
    b ∈ displayVariants inTemplate a ↔ ∃ name ∈ displayNames inTemplate a.name, a.rename name = b := by
  rw [displayVariants_eq, List.mem_map]

omit [DecidableEq δ] in
/-- A choice that does not look at names may be made before attributes are spelled out. -/
theorem filter_flatMap_displayVariants {p : Descriptor δ → Bool}
    (hp : ∀ a name, p (a.rename name) = p a) (inTemplate : Bool) (as : List (Descriptor δ)) :
    (as.flatMap (displayVariants inTemplate)).filter p =
      (as.filter p).flatMap (displayVariants inTemplate) := by
  have hsame : ∀ {a b}, b ∈ displayVariants inTemplate a → p b = p a := by
    intro a b hb
    obtain ⟨name, _, rfl⟩ := mem_displayVariants_iff.mp hb
    exact hp a name
  induction as with
  | nil => rfl
  | cons a as ih =>
    rw [List.flatMap_cons, List.filter_append, ih, List.filter_cons]
    split
    · next ha =>
      have hkept : (displayVariants inTemplate a).filter p = displayVariants inTemplate a :=
        List.filter_eq_self.mpr fun b hb => (hsame hb).trans ha
      rw [hkept, List.flatMap_cons]
    · next ha =>
      have hdropped : (displayVariants inTemplate a).filter p = [] :=
        List.filter_eq_nil_iff.mpr fun b hb => (hsame hb).symm ▸ ha
      rw [hdropped, List.nil_append]

end Scope

/-! ## Catalogs -/

/-- An entry that declares nothing but a name. -/
def Entry.blank (name : String) : Entry where
  definition := .named name
  props := []
  data := []
  computed := []
  methods := []
  mixins := []
  extended := none
  components := []
  directives := []

namespace Catalog

open ComponentAttrs.Scope

variable (c : Catalog)

theorem kind_of_mem_ownAttributes {d : Component} {publicOnly : Bool} {a : Descriptor Component}
    (h : a ∈ c.ownAttributes d anyName publicOnly false) : a.kind ≠ .directive := by
  rcases form_of_mem_ownAttributes h with ⟨_, _, rfl⟩ | ⟨kind, hkind, _, rfl⟩
  · exact nofun
  · rintro rfl
    simp at hkind

theorem kind_of_mem_directiveAttributes {d : Component} {a : Descriptor Component}
    (h : a ∈ c.directiveAttributes d) : a.kind = .directive := by
  obtain ⟨_, _, rfl⟩ := List.mem_map.mp h
  rfl

/-- Whatever is listed spells an attribute of a member or a directive of the component itself. -/
theorem exists_of_mem_attributes {root : Option Component} {publicOnly inTemplate : Bool}
    {a : Descriptor Component}
    (h : a ∈ (c.scope.attributes root publicOnly inTemplate).value) :
    ∃ b, a ∈ displayVariants inTemplate b ∧
      ((∃ d ∈ c.scope.members root, b ∈ c.ownAttributes d anyName publicOnly false) ∨
        ∃ d ∈ root, b ∈ c.directiveAttributes d) := by
  rw [attributes_value] at h
  obtain ⟨b, hb, hspelled⟩ := List.mem_flatMap.mp h
  refine ⟨b, hspelled, ?_⟩
  simp only [List.mem_append, List.mem_flatMap, Option.mem_toList] at hb
  rcases hb with (⟨d, hd, hown⟩ | ⟨d, hd, hdirective⟩) | ⟨d, hd, hown⟩
  · exact .inl ⟨d, List.mem_append_left _ (Option.mem_toList.mpr hd), hown⟩
  · exact .inr ⟨d, hd, hdirective⟩
  · exact .inl ⟨d, c.scope.mem_members_of_reachable hd, hown⟩

/-- What a component lists apart from directives. -/
def declared (root : Option Component) (publicOnly inTemplate : Bool) :
    List (Descriptor Component) :=
  (c.scope.attributes root publicOnly inTemplate).value.filter (·.kind ≠ .directive)

theorem declared_eq (root : Option Component) (publicOnly inTemplate : Bool) :
    c.declared root publicOnly inTemplate =
      ((c.scope.members root).flatMap fun d => c.ownAttributes d anyName publicOnly false).flatMap
        (displayVariants inTemplate) := by
  have hown : ∀ d, (c.scope.ownAttributes d anyName publicOnly false).filter
      (·.kind ≠ .directive) = c.ownAttributes d anyName publicOnly false := by
    intro d
    exact List.filter_eq_self.mpr fun a ha => decide_eq_true (c.kind_of_mem_ownAttributes ha)
  have hdirectives : (root.toList.flatMap c.scope.directiveAttributes).filter
      (·.kind ≠ .directive) = [] := by
    rw [List.filter_eq_nil_iff]
    intro a ha
    obtain ⟨d, _, ha⟩ := List.mem_flatMap.mp ha
    simp [c.kind_of_mem_directiveAttributes ha]
  rw [declared, attributes_value, filter_flatMap_displayVariants fun _ _ => rfl,
    List.filter_append, List.filter_append, hdirectives, List.append_nil]
  simp only [List.filter_flatMap, hown, members, List.flatMap_append]

end Catalog

end ComponentAttrs
