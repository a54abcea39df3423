import ComponentAttrs.Proofs.Walk.Flattening
import ComponentAttrs.Proofs.Walk.Reachability

/-!
Mixins registered for every component. Each entry refers to them, but they are all reached once the
root has been expanded; later on they lead to nothing new.

* `root_or_mem_visitsOf_of_crossed`: where an edge to one of them leads later on;
* `visitsOf_walkThen_withoutGlobals`: a walk that forgets them behind the root visits the same;
* `reaches_iff_exists_start`: they count as further roots for the links that are left.
-/
namespace ComponentAttrs

variable {σ δ : Type}

/-! ## What is registered -/

namespace Index

/-- What the mixins registered for every component stand for. -/
def globals (ix : Index δ) : List δ := (ix.globalMixins.getD []).filterMap ix.find

/-- The same index with nothing registered for every component. -/
def withoutGlobals (ix : Index δ) : Index δ := { ix with globalMixins := some [] }

variable {ix : Index δ} {links : List LinkKind} {source : Option δ} {d : δ}

theorem mem_targets_of_mem_globals (hlinks : .globalMixin ∈ links) (h : d ∈ ix.globals) :
    d ∈ ix.targets links source :=
  List.mem_flatMap.mpr ⟨.globalMixin, hlinks, h⟩

/-- Without the global link only what an entry refers to by itself is left. -/
theorem mem_targets_iff_of_mem (hlinks : .globalMixin ∈ links) :
    d ∈ ix.targets links source ↔
      d ∈ ix.targets (links.filter (· ≠ .globalMixin)) source ∨ d ∈ ix.globals := by
  constructor
  · intro h
    obtain ⟨kind, hkind, hd⟩ := List.mem_flatMap.mp h
    by_cases hglobal : kind = .globalMixin
    · subst hglobal
      exact .inr hd
    · exact .inl (List.mem_flatMap.mpr
        ⟨kind, List.mem_filter.mpr ⟨hkind, decide_eq_true hglobal⟩, hd⟩)
  · rintro (h | h)
    · obtain ⟨kind, hkind, hd⟩ := List.mem_flatMap.mp h
      exact List.mem_flatMap.mpr ⟨kind, (List.mem_filter.mp hkind).1, hd⟩
    · exact mem_targets_of_mem_globals hlinks h

theorem targets_withoutGlobals (ix : Index δ) (links : List LinkKind) (source : Option δ) :
    ix.withoutGlobals.targets links source =
      ix.targets (links.filter (· ≠ .globalMixin)) source := by
  induction links with
  | nil => rfl
  | cons kind links ih =>
    rw [targets_cons, ih]
    cases kind with
    | globalMixin => rfl
    | localMixin | extension => cases source <;> rfl

theorem mem_globals_of_mem_edges {e : Edge δ} (h : e ∈ ix.edges links source)
    (hkind : e.kind = .globalMixin) : .globalMixin ∈ links ∧ e.target ∈ ix.globals := by
  obtain ⟨kind, hlinks, h⟩ := List.mem_flatMap.mp h
  obtain ⟨r, hr, h⟩ := List.mem_filterMap.mp h
  obtain ⟨d, hd, rfl⟩ := Option.map_eq_some_iff.mp h
  obtain rfl : kind = .globalMixin := hkind
  exact ⟨hlinks, List.mem_filterMap.mpr ⟨r, hr, hd⟩⟩

end Index

variable [DecidableEq δ] {ix : Index δ} {links : List LinkKind} {root : Option δ}

/-! ## After the first expansion -/

/-- Whatever the root refers to is visited when the root is expanded, the root itself apart. -/
theorem root_or_mem_visitsOf_expand {d : δ} (h : d ∈ ix.targets links root) :
    some d = root ∨
      d ∈ visitsOf (expand ix watch root links (.initial ix root ())).trace := by
  by_cases hroot : some d = root
  · exact .inl hroot
  · have hinitial : d ∈ (Frontier.initial ix root ()).unreached :=
      List.mem_filter.mpr ⟨Index.mem_definitions_of_mem_targets h, decide_eq_true hroot⟩
    rw [(expand_finds ix root links _).visits]
    exact .inr (mem_fresh_iff.mpr ⟨h, hinitial⟩)

/-- An edge from another entry is not crossed before the root has been expanded. -/
theorem isPrefix_of_crossed {before : List (Step δ)} {e : Edge δ}
    (h : before ++ [.crossed e] <+: (walk ix links root watch ()).trace) (he : e.source ≠ root) :
    (expand ix watch root links (.initial ix root ())).trace <+: before := by
  have hfirst : (expand ix watch root links (.initial ix root ())).trace <+:
      (walk ix links root watch ()).trace := ⟨_, (trace_walk_watch ix links root).symm⟩
  have hnot : Step.crossed e ∉ (expand ix watch root links (.initial ix root ())).trace := by
    rw [← mem_edgesOf_iff, edgesOf, filterMap_expand ix links fun _ => rfl, ← edgesOf,
      edgesOf_steps]
    exact fun hmem => he (Index.source_of_mem_edges hmem)
  -- both are beginnings of one trace, so one of them begins the other
  rcases List.prefix_or_prefix_of_prefix hfirst h with hshort | hlong
  · rcases List.prefix_concat_iff.mp hshort with heq | hshort
    · exact absurd (by simp [heq]) hnot
    · exact hshort
  · exact absurd (hlong.subset (by simp)) hnot

theorem root_or_mem_visitsOf_of_crossed {visit : Visitor σ δ} {memory : σ}
    {before after : List (Step δ)} {e : Edge δ}
    (h : (walk ix links root visit memory).trace = before ++ .crossed e :: after)
    (hkind : e.kind = .globalMixin) (hsource : e.source ≠ root) :
    some e.target = root ∨ e.target ∈ visitsOf before := by
  rw [walk_eq_replay] at h
  have hbegin := isPrefix_of_replay h fun _ => nofun
  have hfirst := isPrefix_of_crossed hbegin hsource
  have hedge : e ∈ edgesOf (walk ix links root watch ()).trace :=
    mem_edgesOf_iff.mpr (hbegin.subset (by simp))
  rw [edgesOf_walk, List.mem_flatMap] at hedge
  obtain ⟨source, _, hedge⟩ := hedge
  obtain ⟨hlinks, hglobal⟩ := Index.mem_globals_of_mem_edges hedge hkind
  have htarget : e.target ∈ ix.targets links root :=
    Index.mem_targets_of_mem_globals hlinks hglobal
  rcases root_or_mem_visitsOf_expand htarget with hroot | hvisited
  · exact .inl hroot
  · exact .inr ((hfirst.filterMap Step.visit?).subset hvisited)

/-! ## Walks that forget -/

theorem visitsOf_walkThen_withoutGlobals (hlinks : .globalMixin ∈ links) :
    visitsOf (walkThen ix ix.withoutGlobals links root watch ()).trace =
      visitsOf (walk ix links root watch ()).trace := by
  rw [← walkThen_self, visitsOf_walkThen_watch, visitsOf_walkThen_watch]
  congr 1
  symm
  apply visitsOf_drain_congr
  intro unreached hunreached d
  -- nothing that is registered is left to be reached
  have hreached : ∀ g ∈ ix.globals, g ∉ unreached := by
    intro g hg hmem
    obtain ⟨hinitial, hnew⟩ := List.mem_filter.mp (hunreached hmem)
    have htarget : g ∈ ix.targets links root := Index.mem_targets_of_mem_globals hlinks hg
    exact of_decide_eq_true hnew (mem_fresh_iff.mpr ⟨htarget, hinitial⟩)
  rw [Index.targets_withoutGlobals]
  exact (fresh_targets_filter_ne hreached links).symm

omit [DecidableEq δ] in
/-- What is registered for every component is a further root for the links of each component. -/
theorem reaches_iff_exists_start (hlinks : .globalMixin ∈ links) {d : δ} (hd : some d ≠ root) :
    Reaches ix links root d ↔ ∃ start ∈ root :: ix.globals.map some,
      some d = start ∨ Reaches ix (links.filter (· ≠ .globalMixin)) start d := by
  have hregistered : ∀ g ∈ ix.globals, some g ∈ root :: ix.globals.map some :=
    fun g hg => List.mem_cons_of_mem _ (List.mem_map_of_mem hg)
  constructor
  · intro h
    clear hd
    induction h with
    | direct hd =>
      rcases (Index.mem_targets_iff_of_mem hlinks).mp hd with hown | hglobal
      · exact ⟨root, List.mem_cons_self, .inr (.direct hown)⟩
      · exact ⟨_, hregistered _ hglobal, .inl rfl⟩
    | onward _ hd ih =>
      rcases (Index.mem_targets_iff_of_mem hlinks).mp hd with hown | hglobal
      · obtain ⟨start, hstart, rfl | hc⟩ := ih
        · exact ⟨_, hstart, .inr (.direct hown)⟩
        · exact ⟨start, hstart, .inr (.onward hc hown)⟩
      · exact ⟨_, hregistered _ hglobal, .inl rfl⟩
  · rintro ⟨start, hstart, h⟩
    have hmono : ∀ {source}, Reaches ix (links.filter (· ≠ .globalMixin)) source d →
        Reaches ix links source d := fun h => h.mono List.filter_sublist.subset
    rcases List.mem_cons.mp hstart with rfl | hstart
    · exact hmono (h.resolve_left hd)
    · obtain ⟨g, hg, rfl⟩ := List.mem_map.mp hstart
      have hdirect : Reaches ix links root g := .direct (Index.mem_targets_of_mem_globals hlinks hg)
      rcases h with heq | h
      · rwa [Option.some.inj heq]
      · exact hdirect.trans (hmono h)

/-- **Global mixins join at the first expansion.** An edge to one of them from any entry but the root
leads to the root or to what was visited before. So a walk whose index forgets them once the root is
expanded visits the same and ends the same; and what is reachable is what the other links lead to
from the root and from each of them. -/
theorem globals_join_at_first_expansion (ix : Index δ) {links : List LinkKind}
    (hlinks : .globalMixin ∈ links) (root : Option δ) (visit : Visitor σ δ) (memory : σ) :
    let w := walk ix links root visit memory
    (∀ before e after, w.trace = before ++ .crossed e :: after → e.kind = .globalMixin →
      e.source ≠ root → some e.target = root ∨ e.target ∈ visitsOf before) ∧
    (walkThen ix ix.withoutGlobals links root visit memory).SameVisits w ∧
    ∀ d, d ∈ reachable ix links root ↔
      some d ≠ root ∧ ∃ start ∈ root :: ix.globals.map some,
        some d = start ∨ Reaches ix (links.filter (· ≠ .globalMixin)) start d := by
  intro w
  refine ⟨fun _ _ _ => root_or_mem_visitsOf_of_crossed, ?_, ?_⟩
  · rw [walkThen_eq_replay, show w = _ from walk_eq_replay ..]
    exact .of_replay (visitsOf_walkThen_withoutGlobals hlinks) visit memory
  · intro d
    rw [mem_reachable_iff]
    exact and_congr_right (reaches_iff_exists_start hlinks)

/-- A page whose mixin takes in what is registered for every component, the page itself included. -/
def loggedSite : Index String := Tables.index
  { names := [("page", "page"), ("list", "list"), ("log", "log"), ("clock", "clock")]
    localMixins := [("page", ["list"]), ("list", ["log", "gone"])]
    globalMixins := some ["log", "gone", "page"]
    extensions := [("log", ["clock"])] }

/-- The mixin of the page leads on to `log`, which was visited before; `clock` is reached from there,
also if nothing is registered any more. -/
theorem log_visited_before_list_is_expanded :
    let links := [LinkKind.localMixin, .extension, .globalMixin]
    let w := walk loggedSite links (some "page") watch ()
    .globalMixin ∈ links ∧
    (∃ before after, w.trace = before ++ .crossed ⟨some "list", .globalMixin, "log"⟩ :: after ∧
      "log" ∈ visitsOf before) ∧
    (walkThen loggedSite loggedSite.withoutGlobals links (some "page") watch ()).SameVisits w ∧
    "clock" ∈ reachable loggedSite links (some "page") := by
  intro links w
  have hlinks : .globalMixin ∈ links := by decide
  obtain ⟨hedges, hforgets, hreachable⟩ :=
    globals_join_at_first_expansion loggedSite hlinks (some "page") watch ()
  have hlist : "list" ∈ reachable loggedSite links (some "page") :=
    mem_reachable_iff.mpr ⟨by decide, .direct (by decide)⟩
  have hcrossed : .crossed ⟨some "list", .globalMixin, "log"⟩ ∈ w.trace :=
    (mem_trace_walk_iff loggedSite links (some "page") rfl).mpr
      ⟨some "list", List.mem_cons_of_mem _ (List.mem_map_of_mem hlist), by decide⟩
  obtain ⟨before, after, hsplit⟩ := List.append_of_mem hcrossed
  refine ⟨hlinks, ⟨before, after, hsplit, ?_⟩, hforgets, ?_⟩
  · exact (hedges before _ after hsplit rfl (by decide)).resolve_left (by decide)
  · exact (hreachable "clock").mpr
      ⟨by decide, some "log", by decide, .inr (.direct (by decide))⟩

end ComponentAttrs
