import Mathlib.Data.List.Infix
import ComponentAttrs.Catalog.Reading
import ComponentAttrs.Proofs.Graph.Composition
import ComponentAttrs.Proofs.Scope.Outsiders

/-!
Identifiers of edges. One is written from the names at both ends with an arrow between them. Names
are written as they are, and an absent root like a component of a certain name, so that an
identifier may be read in more than one way.

* `append_arrow_append_eq_iff`: how two divisions of one text lie to each other;
* `Edge.id_eq_iff`: when two edges have the same identifier;
* `Catalog.edgeIds_unique_iff`: in which compositions no two of them do.
-/
namespace ComponentAttrs

/-- What stands between the names in an identifier. -/
def LinkKind.arrow (kind : LinkKind) : String := "--" ++ kind.name ++ "-->"

/-! ## One text, divided at arrows -/

/-- An end of an arrow is no beginning of an arrow, nor the other way round: arrows do not overlap,
and none begins another. -/
theorem LinkKind.arrows_apart : ∀ kind kind' : LinkKind, ∀ cut ∈ kind.arrow.toList.tails,
    cut <+: kind'.arrow.toList ∨ kind'.arrow.toList <+: cut →
      cut = [] ∨ cut = kind.arrow.toList ∧ kind = kind' := by
  intro kind kind'
  cases kind <;> cases kind' <;> decide

section

variable {kind kind' : LinkKind} {s s' t t' : List Char}

/-- Where a text begins with an arrow, an arrow in it is that one or stands behind it. -/
theorem arrow_append_eq_iff :
    kind.arrow.toList ++ t = s' ++ (kind'.arrow.toList ++ t') ↔
      (s' = [] ∧ kind = kind' ∧ t = t') ∨
        ∃ between, s' = kind.arrow.toList ++ between ∧
          t = between ++ (kind'.arrow.toList ++ t') := by
  constructor
  · intro h
    rcases List.append_eq_append_iff.mp h with hbehind | ⟨cut, harrow, hrest⟩
    · exact .inr hbehind
    · have hcut : cut ∈ kind.arrow.toList.tails := (List.mem_tails _ _).mpr ⟨s', harrow.symm⟩
      have hcomparable : cut <+: kind'.arrow.toList ∨ kind'.arrow.toList <+: cut :=
        List.prefix_or_prefix_of_prefix ⟨t, hrest.symm⟩ (List.prefix_append _ _)
      rcases LinkKind.arrows_apart kind kind' cut hcut hcomparable with rfl | ⟨rfl, rfl⟩
      · exact .inr ⟨[], by simpa using harrow.symm, by simpa using hrest.symm⟩
      · have hnone : s' = [] := by simpa using harrow.symm
        exact .inl ⟨hnone, rfl, (List.append_cancel_left hrest).symm⟩
  · rintro (⟨rfl, rfl, rfl⟩ | ⟨between, rfl, rfl⟩)
    · rfl
    · simp only [List.append_assoc]

/-- The two arrows are one, or one of them stands in what the other division takes for a name. -/
theorem append_arrow_append_eq_iff :
    s ++ (kind.arrow.toList ++ t) = s' ++ (kind'.arrow.toList ++ t') ↔
      (s = s' ∧ kind = kind' ∧ t = t') ∨
      (∃ between, s' = s ++ (kind.arrow.toList ++ between) ∧
        t = between ++ (kind'.arrow.toList ++ t')) ∨
      ∃ between, s = s' ++ (kind'.arrow.toList ++ between) ∧
        t' = between ++ (kind.arrow.toList ++ t) := by
  constructor
  · intro h
    rcases List.append_eq_append_iff.mp h with ⟨more, rfl, hrest⟩ | ⟨more, rfl, hrest⟩
    · rcases arrow_append_eq_iff.mp hrest with ⟨rfl, rfl, rfl⟩ | ⟨between, rfl, rfl⟩
      · exact .inl ⟨(List.append_nil _).symm, rfl, rfl⟩
      · exact .inr (.inl ⟨between, rfl, rfl⟩)
    · rcases arrow_append_eq_iff.mp hrest with ⟨rfl, rfl, rfl⟩ | ⟨between, rfl, rfl⟩
      · exact .inl ⟨List.append_nil _, rfl, rfl⟩
      · exact .inr (.inr ⟨between, rfl, rfl⟩)
  · rintro (⟨rfl, rfl, rfl⟩ | ⟨between, rfl, rfl⟩ | ⟨between, rfl, rfl⟩)
    · rfl
    · simp only [List.append_assoc]
    · simp only [List.append_assoc]

end

/-! ## Two edges -/

/-- How an entry of a walk is written in identifiers. -/
def writtenSource {δ : Type} (name : δ → String) (source : Option δ) : String :=
  (source.map name).getD "<root>"

namespace Edge

variable {δ : Type} (name : δ → String)

/-- The identifier of an edge, divided at a later arrow, is that of another: the arrow stands in the
name of its target, and what is in front of it there goes to the name of the other source. -/
def ReadsAs (e f : Edge δ) : Prop :=
  ∃ between : String,
    writtenSource name f.source = writtenSource name e.source ++ e.kind.arrow ++ between ∧
    name e.target = between ++ f.kind.arrow ++ name f.target

theorem toList_id (e : Edge δ) :
    (e.id name).toList =
      (writtenSource name e.source).toList ++ (e.kind.arrow.toList ++ (name e.target).toList) := by
  simp only [id, edgeId, writtenSource, LinkKind.arrow, String.toList_append, List.append_assoc]

theorem readsAs_iff {e f : Edge δ} :
    e.ReadsAs name f ↔ ∃ between,
      (writtenSource name f.source).toList =
        (writtenSource name e.source).toList ++ (e.kind.arrow.toList ++ between) ∧
      (name e.target).toList = between ++ (f.kind.arrow.toList ++ (name f.target).toList) := by
  constructor
  · rintro ⟨between, hsource, htarget⟩
    refine ⟨between.toList, ?_, ?_⟩
    · rw [hsource, String.toList_append, String.toList_append, List.append_assoc]
    · rw [htarget, String.toList_append, String.toList_append, List.append_assoc]
  · rintro ⟨between, hsource, htarget⟩
    refine ⟨String.ofList between, ?_, ?_⟩
    · apply String.toList_inj.mp
      rw [hsource, String.toList_append, String.toList_append, String.toList_ofList,
        List.append_assoc]
    · apply String.toList_inj.mp
      rw [htarget, String.toList_append, String.toList_append, String.toList_ofList,
        List.append_assoc]

/-- Two edges have the same identifier if all their parts are written alike, or if one of them reads
as the other. -/
theorem id_eq_iff {e f : Edge δ} :
    e.id name = f.id name ↔
      (writtenSource name e.source = writtenSource name f.source ∧ e.kind = f.kind ∧
        name e.target = name f.target) ∨
      e.ReadsAs name f ∨ f.ReadsAs name e := by
  rw [← String.toList_inj, toList_id, toList_id, append_arrow_append_eq_iff, readsAs_iff,
    readsAs_iff, String.toList_inj, String.toList_inj]

theorem not_readsAs_self (e : Edge δ) : ¬ e.ReadsAs name e := by
  rw [readsAs_iff]
  rintro ⟨between, hsource, _⟩
  have hlength := congrArg List.length hsource
  have harrow : e.kind.arrow.toList.length ≠ 0 := by cases e.kind <;> decide
  simp only [List.length_append] at hlength
  omega

end Edge

/-! ## Compositions -/

namespace Catalog

variable {c : Catalog} {links : List LinkKind} {root : Option Component}

/-- Where something that is reached bears the name that the root is written by, the root is absent
or from elsewhere, so that it leads to what is registered for every component. -/
theorem exists_global_of_name_eq {d : Component} (hd : d ∈ reachable c.index links root)
    (hname : writtenSource c.index.name root = c.index.name d) :
    ∃ t, ∀ source, ⟨source, .globalMixin, t⟩ ∈ c.index.edges links source := by
  have hrow : ∀ kind, c.index.row kind root = c.index.row kind none := by
    intro kind
    cases hroot : root with
    | none => rfl
    | some r =>
      subst hroot
      refine row_of_not_mem (fun hr => ?_) kind
      exact (mem_reachable_iff.mp hd).1 (congrArg some
        (eq_of_name_eq (mem_definitions_of_mem_reachable hd) hr hname.symm))
  have htargets : c.index.targets links root = c.index.targets links none := by
    simp only [Index.targets, hrow]
  have hsome : c.index.targets links root ≠ [] := by
    intro hnil
    rw [reachable_eq_nil hnil] at hd
    cases hd
  obtain ⟨t, ht⟩ := List.exists_mem_of_ne_nil _ hsome
  obtain ⟨hglobal, r, hr, hfind⟩ := Index.mem_targets_none.mp (htargets ▸ ht)
  refine ⟨t, fun source => List.mem_flatMap.mpr ⟨.globalMixin, hglobal, ?_⟩⟩
  exact List.mem_filterMap.mpr ⟨r, hr, by rw [hfind]; rfl⟩

/-- Entries of a walk are told apart by how they are written, unless something that is reached is
written like the root. -/
theorem source_eq_of_written
    (h : ∀ d ∈ reachable c.index links root, c.index.name d ≠ writtenSource c.index.name root)
    {a b : Option Component} (ha : a ∈ root :: (reachable c.index links root).map some)
    (hb : b ∈ root :: (reachable c.index links root).map some)
    (hwritten : writtenSource c.index.name a = writtenSource c.index.name b) : a = b := by
  rcases List.mem_cons.mp ha with rfl | ha <;> rcases List.mem_cons.mp hb with rfl | hb
  · rfl
  · obtain ⟨d, hd, rfl⟩ := List.mem_map.mp hb
    exact absurd hwritten.symm (h d hd)
  · obtain ⟨d, hd, rfl⟩ := List.mem_map.mp ha
    exact absurd hwritten (h d hd)
  · obtain ⟨d, hd, rfl⟩ := List.mem_map.mp ha
    obtain ⟨d', hd', rfl⟩ := List.mem_map.mp hb
    exact congrArg some (eq_of_name_eq (mem_definitions_of_mem_reachable hd)
      (mem_definitions_of_mem_reachable hd') hwritten)

/-- **When identifiers are unique.** The edges of a composition have identifiers of their own if and
only if nothing that is reached bears the name that the root is written by (an absent root is
written as `<root>`) and no edge reads as another, for which the name of its target needs an
arrow. -/
theorem edgeIds_unique_iff (c : Catalog) (links : List LinkKind) (root : Option Component) :
    let name := c.index.name
    let edges := (Graph.build c.index links root).edges
    ((∀ e ∈ edges, ∀ f ∈ edges, e.id name = f.id name → e = f) ↔
      (∀ d ∈ reachable c.index links root, name d ≠ writtenSource name root) ∧
      ∀ e ∈ edges, ∀ f ∈ edges, ¬ e.ReadsAs name f) ∧
    ∀ e f : Edge Component, e.ReadsAs name f →
      f.kind.arrow.toList <:+: (name e.target).toList := by
  intro name edges
  refine ⟨⟨fun hunique => ⟨fun d hd hname => ?_, fun e he f hf hreads => ?_⟩, ?_⟩, ?_⟩
  · obtain ⟨t, ht⟩ := exists_global_of_name_eq hd hname.symm
    have hroot : (⟨root, .globalMixin, t⟩ : Edge Component) ∈ edges :=
      (Graph.mem_edges_build_iff c.index links root).mpr ⟨List.mem_cons_self, ht root⟩
    have hreached : (⟨some d, .globalMixin, t⟩ : Edge Component) ∈ edges :=
      (Graph.mem_edges_build_iff c.index links root).mpr
        ⟨List.mem_cons_of_mem _ (List.mem_map_of_mem hd), ht (some d)⟩
    have heq := hunique _ hreached _ hroot ((Edge.id_eq_iff name).mpr (.inl ⟨hname, rfl, rfl⟩))
    exact (mem_reachable_iff.mp hd).1 (congrArg Edge.source heq)
  · have heq := hunique e he f hf ((Edge.id_eq_iff name).mpr (.inr (.inl hreads)))
    exact e.not_readsAs_self name (heq ▸ hreads)
  · rintro ⟨hnames, hreads⟩ e he f hf hid
    obtain ⟨hsource, he'⟩ := (Graph.mem_edges_build_iff c.index links root).mp he
    obtain ⟨hsource', hf'⟩ := (Graph.mem_edges_build_iff c.index links root).mp hf
    rcases (Edge.id_eq_iff name).mp hid with ⟨hwritten, hkind, htarget⟩ | hread | hread
    · have hsources : e.source = f.source := source_eq_of_written hnames hsource hsource' hwritten
      have htargets : e.target = f.target := by
        refine eq_of_name_eq (c := c) ?_ ?_ htarget
        · exact Index.mem_definitions_of_mem_edges he'
        · exact Index.mem_definitions_of_mem_edges hf'
      cases e
      cases f
      cases hsources
      cases hkind
      cases htargets
      rfl
    · exact absurd hread (hreads e he f hf)
    · exact absurd hread (hreads f hf e he)
  · rintro e f ⟨between, _, htarget⟩
    refine ⟨between.toList, (name f.target).toList, ?_⟩
    rw [htarget, String.toList_append, String.toList_append]

example : edgeId none .globalMixin "log" = edgeId (some "<root>") .globalMixin "log" := rfl

/-- A component and its mixin, the names of which make the name of what the component extends. -/
def arrowSite : Catalog where
  entries := [{ Entry.blank "a" with
      mixins := ["a--extends-->b"]
      extended := some "b--extends-->c" },
    { Entry.blank "a--extends-->b" with extended := some "c" },
    Entry.blank "b--extends-->c",
    Entry.blank "c"]
  globalMixins := []
  globalDirectives := []
  sourcePath := none
  names_nodup := by decide

/-- The component and its mixin each extend another component, by edges of one identifier. -/
theorem two_extensions_of_one_id :
    let root := Component.declared "a"
    let edges := (Graph.build arrowSite.index standardLinks (some root)).edges
    (∃ document, Catalog.ofValue none document = .ok arrowSite) ∧
    ∃ e ∈ edges, ∃ f ∈ edges,
      e.id arrowSite.index.name = "a--extends-->b--extends-->c" ∧
      f.id arrowSite.index.name = "a--extends-->b--extends-->c" ∧
      e.source ≠ f.source ∧ e.target ≠ f.target := by
  intro root edges
  have hmixin : .declared "a--extends-->b" ∈ reachable arrowSite.index standardLinks (some root) :=
    mem_reachable_iff.mpr ⟨by decide, .direct (by decide)⟩
  have hfirst : ⟨some root, .extension, .declared "b--extends-->c"⟩ ∈ edges :=
    (Graph.mem_edges_build_iff _ _ _).mpr ⟨List.mem_cons_self, by decide⟩
  have hsecond : ⟨some (.declared "a--extends-->b"), .extension, .declared "c"⟩ ∈ edges :=
    (Graph.mem_edges_build_iff _ _ _).mpr
      ⟨List.mem_cons_of_mem _ (List.mem_map_of_mem hmixin), by decide⟩
  have hdocument : Catalog.ofValue none (.record [("components", .record
      [("a", .record [("mixins", .text "a--extends-->b"), ("extends", .text "b--extends-->c")]),
        ("a--extends-->b", .record [("extends", .text "c")]),
        ("b--extends-->c", .null), ("c", .null)])]) = .ok arrowSite := rfl
  exact ⟨⟨_, hdocument⟩, _, hfirst, _, hsecond, by decide, by decide, by decide, by decide⟩

end Catalog

end ComponentAttrs
