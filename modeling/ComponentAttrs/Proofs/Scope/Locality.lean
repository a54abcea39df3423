import ComponentAttrs.Proofs.Catalog.Entries
import ComponentAttrs.Proofs.Scope.Members

/-!
What a component answers depends on nothing but what it is composed of. Two catalogs may differ in
everything else: other components, their order, where they are declared, and the local components
and directives of what is only composed in.

* `Meets`: the names that composition leads to, declared or not;
* `reachable_eq`, `ownAttributes_eq`: catalogs that declare the same under these names;
* `sameAnswers_of_sameComposition`: they answer the same.
-/
namespace ComponentAttrs

/-- What an entry declares for itself and for everything composed of it. -/
structure Declaration where
  props : List PropSpec
  data : List String
  computed : List String
  methods : List String
  mixins : List String
  extended : Option String
deriving DecidableEq

def Entry.declaration (e : Entry) : Declaration :=
  ⟨e.props, e.data, e.computed, e.methods, e.mixins, e.extended⟩

namespace Catalog

open ComponentAttrs.Scope

/-- Names that mixins, extended components and global mixins lead to from a component, itself
among them. -/
inductive Meets (c : Catalog) (start : String) : String → Prop
  | start : Meets c start start
  | mixin {name target : String} {e : Entry} : Meets c start name →
      c.entryNamed? name = some e → target ∈ e.mixins → Meets c start target
  | parent {name target : String} {e : Entry} : Meets c start name →
      c.entryNamed? name = some e → e.parent? = some target → Meets c start target
  | globalMixin {target : String} : target ∈ c.globalMixins → Meets c start target

/-- Two catalogs tell the same about a component, in names. -/
structure SameAnswers (a b : Catalog) (name : String) : Prop where
  reachable :
    (reachable a.index standardLinks (some (.declared name))).map a.index.name =
      (reachable b.index standardLinks (some (.declared name))).map b.index.name
  attributes : ∀ publicOnly inTemplate,
    (a.scope.attributes (some (.declared name)) publicOnly inTemplate).value.map
        (Descriptor.toValue a.index.name) =
      (b.scope.attributes (some (.declared name)) publicOnly inTemplate).value.map
        (Descriptor.toValue b.index.name)
  resolve : ∀ written publicOnly,
    (a.scope.resolve (some (.declared name)) written publicOnly).map
        (Descriptor.toValue a.index.name) =
      (b.scope.resolve (some (.declared name)) written publicOnly).map
        (Descriptor.toValue b.index.name)

/-! ## What composition leads to -/

/-- Every reference of a met component names a met component. -/
theorem Meets.of_mem_row {c : Catalog} {start name : String} (h : c.Meets start name)
    {kind : LinkKind} {r : Reference Component}
    (hr : r ∈ c.index.row kind (some (.declared name))) : c.Meets start r.name := by
  cases kind with
  | localMixin =>
    obtain ⟨target, htarget, rfl⟩ := List.mem_map.mp hr
    obtain ⟨e, he, ht⟩ : ∃ e, c.entryNamed? name = some e ∧ target ∈ e.mixins := by
      cases he : c.entryNamed? name with
      | none => simp [he, entry?] at htarget
      | some e => exact ⟨e, rfl, by simpa [he, entry?] using htarget⟩
    exact .mixin h he ht
  | globalMixin =>
    obtain ⟨target, htarget, rfl⟩ := List.mem_map.mp hr
    exact .globalMixin htarget
  | extension =>
    obtain ⟨target, htarget, rfl⟩ := List.mem_map.mp hr
    rw [Option.mem_toList] at htarget
    obtain ⟨e, he, ht⟩ := Option.bind_eq_some_iff.mp htarget
    exact .parent h he ht

theorem Meets.of_reachedBy {c : Catalog} {start : String} {n : Nat} {e : Option Component}
    (h : ReachedBy c.index standardLinks (some (.declared start)) n e) :
    ∃ name, e = some (.declared name) ∧ c.Meets start name := by
  induction h with
  | start => exact ⟨start, rfl, .start⟩
  | onward _ hd ih =>
    obtain ⟨name, rfl, hname⟩ := ih
    obtain ⟨kind, _, r, hr, hfind⟩ := Index.mem_targets.mp hd
    refine ⟨r.name, ?_, hname.of_mem_row hr⟩
    have hget : c.get? r.name = some _ := hfind
    rw [get?_eq] at hget
    obtain ⟨_, _, hdeclared⟩ := Option.map_eq_some_iff.mp hget
    rw [hdeclared]

/-- Names that contain everything they refer to contain everything that is met. -/
theorem Meets.mem_of_closed {c : Catalog} {start name : String} {names : List String}
    (hstart : start ∈ names) (hglobal : ∀ target ∈ c.globalMixins, target ∈ names)
    (hclosed : ∀ name ∈ names, ∀ e ∈ c.entryNamed? name,
      ∀ target ∈ e.mixins ++ e.parent?.toList, target ∈ names)
    (h : c.Meets start name) : name ∈ names := by
  induction h with
  | start => exact hstart
  | mixin _ he ht ih => exact hclosed _ ih _ he _ (List.mem_append_left _ ht)
  | parent _ he ht ih =>
    exact hclosed _ ih _ he _ (List.mem_append_right _ (Option.mem_toList.mpr ht))
  | globalMixin ht => exact hglobal _ ht

/-! ## Catalogs that declare the same -/

theorem candidates_congr {e f : Entry} (h : e.declaration = f.declaration) (d : Component)
    (publicOnly : Bool) : candidates d e publicOnly = candidates d f publicOnly := by
  simp only [Entry.declaration, Declaration.mk.injEq] at h
  obtain ⟨hprops, hdata, hcomputed, hmethods, _, _⟩ := h
  simp only [candidates, hprops, hdata, hcomputed, hmethods]

section

variable {a b : Catalog} {name : String}

theorem ownAttributes_eq
    (h : (a.entryNamed? name).map Entry.declaration = (b.entryNamed? name).map Entry.declaration)
    (test : String → Bool) (publicOnly onlyFirst : Bool) :
    a.ownAttributes (.declared name) test publicOnly onlyFirst =
      b.ownAttributes (.declared name) test publicOnly onlyFirst := by
  simp only [ownAttributes, entry?]
  cases ha : a.entryNamed? name with
  | none =>
    rw [ha, Option.map_none, eq_comm, Option.map_eq_none_iff] at h
    rw [h]
  | some e =>
    rw [ha, Option.map_some, eq_comm] at h
    obtain ⟨f, hf, hdeclaration⟩ := Option.map_eq_some_iff.mp h
    simp only [hf, candidates_congr hdeclaration]

theorem row_eq (hglobal : a.globalMixins = b.globalMixins)
    (h : (a.entryNamed? name).map Entry.declaration = (b.entryNamed? name).map Entry.declaration)
    (kind : LinkKind) :
    a.index.row kind (some (.declared name)) = b.index.row kind (some (.declared name)) := by
  have hmixins := congrArg (Option.map Declaration.mixins) h
  have hextended := congrArg (Option.map Declaration.extended) h
  rw [Option.map_map, Option.map_map] at hmixins hextended
  have hparent : (a.entryNamed? name).bind Entry.parent? =
      (b.entryNamed? name).bind Entry.parent? := by
    have hjoin := congrArg (Option.bind · (Option.filter (· ≠ ""))) hextended
    simp only [Option.bind_map] at hjoin
    exact hjoin
  cases kind with
  | localMixin => exact congrArg (references .localMixin _ <| Option.getD · []) hmixins
  | globalMixin => exact congrArg (references .globalMixin none) hglobal
  | extension => exact congrArg (references .extension _ <| Option.toList ·) hparent

theorem get?_congr
    (h : (a.entryNamed? name).map Entry.declaration = (b.entryNamed? name).map Entry.declaration) :
    a.get? name = b.get? name := by
  have hmap := congrArg (Option.map fun _ => Component.declared name) h
  rw [Option.map_map, Option.map_map] at hmap
  rw [get?_eq, get?_eq]
  exact hmap

end

/-- Two catalogs declare the same for a component and for whatever composition leads to from it.
Of directives only its own and the global ones matter. -/
structure SameComposition (a b : Catalog) (start : String) : Prop where
  globalMixins : a.globalMixins = b.globalMixins
  globalDirectives : a.globalDirectives = b.globalDirectives
  declarations : ∀ name, a.Meets start name →
    (a.entryNamed? name).map Entry.declaration = (b.entryNamed? name).map Entry.declaration
  directives :
    (a.entryNamed? start).map Entry.directives = (b.entryNamed? start).map Entry.directives

section

variable {a b : Catalog} {start : String}

theorem SameComposition.targets_eq (h : SameComposition a b start) {name : String}
    (hname : a.Meets start name) :
    a.index.targets standardLinks (some (.declared name)) =
      b.index.targets standardLinks (some (.declared name)) := by
  have hfind : ∀ kind, ∀ r ∈ a.index.row kind (some (.declared name)),
      a.index.find r = b.index.find r :=
    fun kind r hr => get?_congr (h.declarations r.name (hname.of_mem_row hr))
  unfold Index.targets
  rw [List.flatMap_def, List.flatMap_def]
  congr 1
  apply List.map_congr_left
  intro kind _
  rw [← row_eq h.globalMixins (h.declarations name hname)]
  exact List.filterMap_congr (hfind kind)

theorem SameComposition.reachable_eq (h : SameComposition a b start) :
    reachable a.index standardLinks (some (.declared start)) =
      reachable b.index standardLinks (some (.declared start)) := by
  apply reachable_congr
  intro n e he
  obtain ⟨name, rfl, hname⟩ := Meets.of_reachedBy he
  exact h.targets_eq hname

theorem meets_of_mem_members {c : Catalog} {d : Component}
    (h : d ∈ c.scope.members (some (.declared start))) :
    ∃ name, d = .declared name ∧ c.Meets start name := by
  rcases (c.scope.mem_members_iff).mp h with heq | hd
  · cases heq
    exact ⟨start, rfl, .start⟩
  · obtain ⟨n, hn⟩ := hd.reachedBy
    obtain ⟨name, heq, hname⟩ := Meets.of_reachedBy hn
    exact ⟨name, Option.some.inj heq, hname⟩

theorem SameComposition.ownAttributes_eq_of_mem (h : SameComposition a b start) {d : Component}
    (hd : d ∈ a.scope.members (some (.declared start))) (test : String → Bool)
    (publicOnly onlyFirst : Bool) :
    a.ownAttributes d test publicOnly onlyFirst = b.ownAttributes d test publicOnly onlyFirst := by
  obtain ⟨name, rfl, hname⟩ := meets_of_mem_members hd
  exact ownAttributes_eq (h.declarations name hname) test publicOnly onlyFirst

theorem SameComposition.members_eq (h : SameComposition a b start) :
    a.scope.members (some (.declared start)) = b.scope.members (some (.declared start)) :=
  congrArg (Component.declared start :: ·) h.reachable_eq

theorem SameComposition.directivesOf_eq (h : SameComposition a b start) :
    a.directivesOf (some (.declared start)) = b.directivesOf (some (.declared start)) := by
  have hown : (a.entry? (some (.declared start))).map Entry.directives =
      (b.entry? (some (.declared start))).map Entry.directives := h.directives
  rw [directivesOf, directivesOf, hown, h.globalDirectives]

theorem SameComposition.attributes_eq (h : SameComposition a b start)
    (publicOnly inTemplate : Bool) :
    (a.scope.attributes (some (.declared start)) publicOnly inTemplate).value =
      (b.scope.attributes (some (.declared start)) publicOnly inTemplate).value := by
  have hown : ∀ d ∈ a.scope.members (some (.declared start)),
      a.scope.ownAttributes d anyName publicOnly false =
        b.scope.ownAttributes d anyName publicOnly false :=
    fun d hd => h.ownAttributes_eq_of_mem hd anyName publicOnly false
  have hstart := hown (.declared start) ((a.scope.mem_members_iff).mpr (.inl rfl))
  have hcomposed : (reachable a.index standardLinks (some (.declared start))).flatMap
        (fun d => a.scope.ownAttributes d anyName publicOnly false) =
      (reachable b.index standardLinks (some (.declared start))).flatMap
        (fun d => b.scope.ownAttributes d anyName publicOnly false) := by
    rw [← h.reachable_eq]
    exact List.flatMap_congr fun d hd => hown d (mem_members_of_reachable a.scope hd)
  have hdirectives : a.scope.directiveAttributes (.declared start) =
      b.scope.directiveAttributes (.declared start) := by
    change a.directiveAttributes _ = b.directiveAttributes _
    rw [directiveAttributes, directiveAttributes, h.directivesOf_eq]
  rw [attributes_value, attributes_value]
  simp only [Option.toList_some, List.flatMap_singleton, hstart, hdirectives]
  exact congrArg (fun composed => List.flatMap _ (_ ++ composed)) hcomposed

theorem SameComposition.resolve_eq (h : SameComposition a b start) (written : String)
    (publicOnly : Bool) :
    a.scope.resolve (some (.declared start)) written publicOnly =
      b.scope.resolve (some (.declared start)) written publicOnly := by
  have hfirst : ∀ d ∈ a.scope.members (some (.declared start)),
      a.scope.firstMatch written publicOnly d = b.scope.firstMatch written publicOnly d := by
    intro d hd
    exact congrArg (List.find? _) (h.ownAttributes_eq_of_mem hd anyName publicOnly false)
  have hsearch : (a.scope.members (some (.declared start))).findSome?
        (a.scope.firstMatch written publicOnly) =
      (b.scope.members (some (.declared start))).findSome?
        (b.scope.firstMatch written publicOnly) := by
    rw [← h.members_eq, ← List.head?_filterMap, ← List.head?_filterMap,
      List.filterMap_congr hfirst]
  have hdirective : a.resolveDirective (some (.declared start)) written =
      b.resolveDirective (some (.declared start)) written := by
    simp only [resolveDirective, h.directivesOf_eq]
  rw [Scope.resolve_eq written publicOnly (a.selects_of_own_eq rfl),
    Scope.resolve_eq written publicOnly (b.selects_of_own_eq rfl), hsearch]
  exact congrArg (Option.or _) hdirective

theorem SameComposition.sameAnswers (h : SameComposition a b start) : SameAnswers a b start := by
  have hname : a.index.name = b.index.name := by
    funext d
    rw [index_name, index_name]
  refine ⟨?_, ?_, ?_⟩
  · rw [h.reachable_eq, hname]
  · intro publicOnly inTemplate
    rw [h.attributes_eq, hname]
  · intro written publicOnly
    rw [h.resolve_eq, hname]

end

/-- **Answers depend on composition only.** Catalogs with the same global mixins and directives
answer the same about a component, if they declare the same under every name that composition leads
to from it. So they do if one has the entries of the other in a different order, or one more, under
a name that is not met. -/
theorem sameAnswers_of_sameComposition (a b : Catalog) (start : String)
    (hmixins : a.globalMixins = b.globalMixins)
    (hdirectives : a.globalDirectives = b.globalDirectives) :
    ((∀ name, a.Meets start name →
        (a.entryNamed? name).map Entry.declaration = (b.entryNamed? name).map Entry.declaration) →
      (a.entryNamed? start).map Entry.directives = (b.entryNamed? start).map Entry.directives →
      SameAnswers a b start) ∧
    (a.entries.Perm b.entries → SameAnswers a b start) ∧
    ∀ before e after, a.entries = before ++ after → b.entries = before ++ e :: after →
      ¬ a.Meets start e.name → SameAnswers a b start := by
  have hsame : (∀ name, a.Meets start name → a.entryNamed? name = b.entryNamed? name) →
      SameAnswers a b start := by
    intro h
    apply SameComposition.sameAnswers
    refine ⟨hmixins, hdirectives, ?_, ?_⟩
    · intro name hname
      rw [h name hname]
    · rw [h start .start]
  refine ⟨?_, ?_, ?_⟩
  · intro hdeclarations hown
    exact SameComposition.sameAnswers ⟨hmixins, hdirectives, hdeclarations, hown⟩
  · intro hperm
    apply hsame
    intro name _
    exact entryNamed?_congr fun e _ => hperm.mem_iff
  · intro before e after ha hb hnew
    apply hsame
    intro name hname
    apply entryNamed?_congr
    rintro f rfl
    have hne : f ≠ e := by
      rintro rfl
      exact hnew hname
    simp [ha, hb, hne]

/-- A page with a base, and with mixins that are not declared. -/
def smallSite : Catalog where
  entries := [{ Entry.blank "page" with mixins := ["gone"], extended := some "base" },
    { Entry.blank "base" with props := [⟨"size", true⟩] }]
  globalMixins := ["log"]
  globalDirectives := ["focus"]
  sourcePath := none
  names_nodup := by decide

/-- The same page among other components, its base declared somewhere else and with a directive. -/
def largeSite : Catalog where
  entries := [{ Entry.blank "shell" with mixins := ["page"] },
    { Entry.blank "base" with
      definition := ⟨"base", some (.ofString "base.vue"), .int 3⟩
      props := [⟨"size", true⟩]
      directives := ["drag"] },
    { Entry.blank "page" with mixins := ["gone"], extended := some "base" }]
  globalMixins := ["log"]
  globalDirectives := ["focus"]
  sourcePath := none
  names_nodup := by decide

theorem sameAnswers_smallSite_largeSite :
    smallSite.globalMixins = largeSite.globalMixins ∧
    smallSite.globalDirectives = largeSite.globalDirectives ∧
    SameAnswers smallSite largeSite "page" := by
  have hmet : ∀ name, smallSite.Meets "page" name → name ∈ ["page", "gone", "base", "log"] :=
    fun name => Meets.mem_of_closed (by decide) (by decide) (by decide)
  have hdeclarations : ∀ name ∈ ["page", "gone", "base", "log"],
      (smallSite.entryNamed? name).map Entry.declaration =
        (largeSite.entryNamed? name).map Entry.declaration := by decide
  exact ⟨rfl, rfl, (sameAnswers_of_sameComposition smallSite largeSite "page" rfl rfl).1
    (fun name hname => hdeclarations name (hmet name hname)) (by decide)⟩

end Catalog

end ComponentAttrs
