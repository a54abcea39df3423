import ComponentAttrs.Command.Session
import ComponentAttrs.Proofs.Catalog.Entries
import ComponentAttrs.Proofs.Scope.Locals
import ComponentAttrs.Proofs.Walk.Flattening

/-!
Dangling names. A catalog tells them when it is loaded, from the names that it declares; that a
reference stands for nothing or a local component has no target comes out when it is asked for. These
are the same names.

* `dangling_eq`: the list of a catalog from what it answers later on;
* `exists_dangling_of_skipped`: whatever a walk skips has been told;
* `dangling_names_are_stale`: the list, the warnings and the walks.
-/
namespace ComponentAttrs

variable {σ δ : Type}

/-! ## Stale references -/

/-- Names of the references in a row that stand for nothing. -/
def Index.staleNames (ix : Index δ) (kind : LinkKind) (source : Option δ) : List String :=
  ((ix.row kind source).filter fun r => (ix.find r).isNone).map (·.name)

/-- What a walk skips is stale in a row that it has read, whatever its visitor. -/
theorem exists_stale_of_skipped [DecidableEq δ] {ix : Index δ} {links : List LinkKind}
    {root : Option δ} {visit : Visitor σ δ} {memory : σ} {kind : LinkKind} {name : String}
    (h : .skipped kind name ∈ (walk ix links root visit memory).trace) :
    ∃ source, name ∈ ix.staleNames kind source := by
  obtain ⟨before, after, hsplit⟩ := List.append_of_mem h
  rw [walk_eq_replay] at hsplit
  have hbegin := isPrefix_of_replay hsplit fun _ => nofun
  have hlooking : .skipped kind name ∈ (walk ix links root watch ()).trace :=
    hbegin.subset (by simp)
  obtain ⟨source, _, hstep⟩ := (mem_trace_walk_iff ix links root rfl).mp hlooking
  obtain ⟨_, r, hr, hfind, rfl⟩ := skipped_mem_steps_iff.mp hstep
  have hstale : (ix.find r).isNone := Option.isNone_iff_eq_none.mpr hfind
  exact ⟨source, List.mem_map_of_mem (List.mem_filter.mpr ⟨hr, hstale⟩)⟩

namespace Catalog

open ComponentAttrs.Scope ComponentAttrs.Command ComponentAttrs.Files

/-- Names that a component declares its local components to stand for, where it answers no target. -/
def lostTargets (c : Catalog) (d : Component) : List String :=
  let declared := ((c.entry? (some d)).map Entry.components).getD []
  ((declared.zip (c.ownLocals d)).filter fun (_, answer) => answer.2.isNone).map
    fun (component, _) => component.2

variable (c : Catalog)

theorem isNone_get? (name : String) : (c.get? name).isNone = !c.contains name := by
  unfold get?
  cases c.contains name <;> rfl

theorem stale_references (kind : LinkKind) (source : Option Component) (names : List String) :
    ((references kind source names).filter fun r => (c.index.find r).isNone).map (·.name) =
      names.filter fun name => !c.contains name := by
  have hfind : ∀ name, (c.index.find ⟨name, kind, source⟩).isNone = !c.contains name :=
    c.isNone_get?
  rw [references, List.filter_map, List.map_map]
  simp only [Function.comp_def, hfind, List.map_id']

theorem staleNames_globalMixin (source : Option Component) :
    c.index.staleNames .globalMixin source = c.globalMixins.filter fun name => !c.contains name :=
  c.stale_references .globalMixin none c.globalMixins

theorem staleNames_localMixin (d : Component) :
    c.index.staleNames .localMixin (some d) =
      (((c.entry? (some d)).map Entry.mixins).getD []).filter fun name => !c.contains name :=
  c.stale_references .localMixin (some d) _

theorem staleNames_extension (d : Component) :
    c.index.staleNames .extension (some d) =
      ((c.entry? (some d)).bind Entry.parent?).toList.filter fun name => !c.contains name :=
  c.stale_references .extension (some d) _

theorem lostTargets_eq (d : Component) :
    c.lostTargets d =
      ((((c.entry? (some d)).map Entry.components).getD []).map (·.2)).filter
        fun name => !c.contains name := by
  simp only [lostTargets, c.ownLocals_eq, ← List.map_prod_left_eq_zip, List.filter_map,
    List.map_map, Function.comp_def, isNone_get?]

/-! ## The list of a catalog -/

theorem mem_dangling_iff {owner name : String} :
    (owner, name) ∈ c.dangling ↔ (!c.contains name) ∧
      ((∃ e ∈ c.entries, e.name = owner ∧ name ∈ targets e) ∨
        owner = "<global>" ∧ name ∈ c.globalMixins) := by
  simp only [dangling, List.mem_append, List.mem_flatMap, List.mem_map, List.mem_filter,
    Prod.mk.injEq]
  constructor
  · rintro (⟨e, he, _, ⟨hname, hunknown⟩, rfl, rfl⟩ | ⟨_, ⟨hname, hunknown⟩, rfl, rfl⟩)
    · exact ⟨hunknown, .inl ⟨e, he, rfl, hname⟩⟩
    · exact ⟨hunknown, .inr ⟨rfl, hname⟩⟩
  · rintro ⟨hunknown, ⟨e, he, rfl, hname⟩ | ⟨rfl, hname⟩⟩
    · exact .inl ⟨e, he, name, ⟨hname, hunknown⟩, rfl, rfl⟩
    · exact .inr ⟨name, ⟨hname, hunknown⟩, rfl, rfl⟩

/-- The names that an entry refers to in vain are stale under its links or lost as targets. -/
theorem filter_targets {e : Entry} (he : e ∈ c.entries) :
    ((targets e).filter fun name => !c.contains name) =
      c.index.staleNames .localMixin (some (.declared e.name)) ++
        c.index.staleNames .extension (some (.declared e.name)) ++
        c.lostTargets (.declared e.name) := by
  have hentry : c.entry? (some (.declared e.name)) = some e := entryNamed?_eq_some_iff.mpr ⟨he, rfl⟩
  rw [staleNames_localMixin, staleNames_extension, lostTargets_eq, hentry, targets,
    List.filter_append, List.filter_append]
  rfl

theorem dangling_eq :
    c.dangling =
      (c.names.flatMap fun n =>
        (c.index.staleNames .localMixin (some (.declared n)) ++
          c.index.staleNames .extension (some (.declared n)) ++
          c.lostTargets (.declared n)).map fun name => (n, name)) ++
        (c.index.staleNames .globalMixin none).map fun name => ("<global>", name) := by
  rw [names, List.flatMap_map, staleNames_globalMixin]
  refine congrArg (· ++ _) (List.flatMap_congr fun e he => ?_)
  exact congrArg (List.map fun name => (e.name, name)) (c.filter_targets he)

/-! ## Walks -/

theorem exists_dangling_of_mem_filter {d : Component} {name : String} {used : Entry → List String}
    (hused : ∀ e, used e ⊆ targets e)
    (h : name ∈ (((c.entry? (some d)).map used).getD []).filter fun name => !c.contains name) :
    ∃ owner, (owner, name) ∈ c.dangling := by
  obtain ⟨hname, hunknown⟩ := List.mem_filter.mp h
  cases d with
  | foreign => cases hname
  | declared n =>
    cases he : c.entry? (some (.declared n)) with
    | none =>
      rw [he] at hname
      cases hname
    | some e =>
      rw [he] at hname
      have hmem := (entryNamed?_eq_some_iff.mp he).1
      exact ⟨e.name, c.mem_dangling_iff.mpr ⟨hunknown, .inl ⟨e, hmem, rfl, hused e hname⟩⟩⟩

theorem exists_dangling_of_stale {kind : LinkKind} {source : Option Component} {name : String}
    (h : name ∈ c.index.staleNames kind source) : ∃ owner, (owner, name) ∈ c.dangling := by
  match kind, source with
  | .globalMixin, source =>
    rw [staleNames_globalMixin] at h
    obtain ⟨hname, hunknown⟩ := List.mem_filter.mp h
    exact ⟨"<global>", c.mem_dangling_iff.mpr ⟨hunknown, .inr ⟨rfl, hname⟩⟩⟩
  | .localMixin, none | .extension, none => cases h
  | .localMixin, some d =>
    rw [staleNames_localMixin] at h
    refine c.exists_dangling_of_mem_filter (fun e => ?_) h
    exact List.subset_append_of_subset_left _ (List.subset_append_left _ _)
  | .extension, some d =>
    have hparent : ((c.entry? (some d)).bind Entry.parent?).toList =
        ((c.entry? (some d)).map fun e => e.parent?.toList).getD [] := by
      cases c.entry? (some d) <;> rfl
    rw [staleNames_extension, hparent] at h
    refine c.exists_dangling_of_mem_filter (fun e => ?_) h
    exact List.subset_append_of_subset_left _ (List.subset_append_right _ _)

theorem exists_dangling_of_skipped {links : List LinkKind} {root : Option Component}
    {visit : Visitor σ Component} {memory : σ} {kind : LinkKind} {name : String}
    (h : .skipped kind name ∈ (walk c.index links root visit memory).trace) :
    ∃ owner, (owner, name) ∈ c.dangling := by
  obtain ⟨source, hstale⟩ := exists_stale_of_skipped h
  exact c.exists_dangling_of_stale hstale

/-! ## Warnings -/

/-- The warning about one dangling name. -/
def warningAbout (owner name : String) : LogRecord :=
  ⟨.warning, .catalog, "Component " ++ Text.quoted owner ++ " refers to unknown component "
    ++ Text.quoted name⟩

theorem filter_loadLog (path : Path) :
    (c.loadLog path).filter (·.level = .warning) =
      c.dangling.map fun (owner, name) => warningAbout owner name := by
  have hall : c.danglingLog.filter (·.level = .warning) = c.danglingLog := by
    rw [List.filter_eq_self]
    intro r hr
    obtain ⟨_, _, rfl⟩ := List.mem_map.mp hr
    rfl
  rw [loadLog, List.filter_append, hall]
  exact List.append_nil _

/-- **Dangling names are stale references.** Entry by entry in the order of declaration they are the
mixins, the parent and the targets of local components for which the catalog has no answer later on;
then come those among the mixins registered for every component. Each is warned of when a session
loads the catalog. A walk that skips a reference skips one of them, so without any no walk does. -/
theorem dangling_names_are_stale (c : Catalog) :
    (c.dangling =
      (c.names.flatMap fun n =>
        (c.index.staleNames .localMixin (some (.declared n)) ++
          c.index.staleNames .extension (some (.declared n)) ++
          c.lostTargets (.declared n)).map fun name => (n, name)) ++
        (c.index.staleNames .globalMixin none).map fun name => ("<global>", name)) ∧
    (∀ (s later : Session) (files : Tree) (log : List LogRecord), s.catalog = none →
      s.loaded files = .ok (c, later, log) →
        log.filter (·.level = .warning) =
          c.dangling.map fun (owner, name) => warningAbout owner name) ∧
    ∀ (σ : Type) (links : List LinkKind) (root : Option Component) (visit : Visitor σ Component)
      (memory : σ) (kind : LinkKind) (name : String),
      .skipped kind name ∈ (walk c.index links root visit memory).trace →
        ∃ owner, (owner, name) ∈ c.dangling := by
  refine ⟨c.dangling_eq, ?_, fun _ _ _ _ _ _ _ => c.exists_dangling_of_skipped⟩
  intro s later files log hnone hloaded
  simp only [Session.loaded, hnone] at hloaded
  cases hload : Catalog.load files s.base s.catalogPath with
  | error e =>
    rw [hload] at hloaded
    cases hloaded
  | ok loaded =>
    rw [hload] at hloaded
    cases hloaded
    exact c.filter_loadLog s.catalogPath

/-- A mixin named twice, an empty parent and a local component without target. -/
def patchySite : Catalog where
  entries := [{ Entry.blank "page" with
      mixins := ["gone", "list", "gone"]
      extended := some ""
      components := [("Row", "row"), ("List", "list")] },
    Entry.blank "list"]
  globalMixins := ["ghost", "list"]
  globalDirectives := []
  sourcePath := none
  names_nodup := by decide

example : patchySite.dangling =
    [("page", "gone"), ("page", "gone"), ("page", "row"), ("<global>", "ghost")] := by
  decide

end Catalog

end ComponentAttrs
