import Mathlib.Data.List.Basic
import ComponentAttrs.Proofs.Walk.Layers

/-!
The trace of a walk that only looks, entry by entry. The root entry and then each visited definition
is expanded once, in the order of visits, whatever was reached before. Visits apart, the trace is put
together from what each expansion does.

* `filterMap_walk`: a view of the trace that does not show visits, from these expansions;
* `edgesOf_walk`, `queriesOf_walk`: the edges and the queries of a walk in closed form;
* `mem_trace_walk_iff`: in which expansion a step is taken.
-/
namespace ComponentAttrs

variable {δ : Type}

/-! ## One expansion -/

/-- The steps that one reference leads to, visits apart. -/
def Index.stepsTo (ix : Index δ) (source : Option δ) (kind : LinkKind) (r : Reference δ) :
    List (Step δ) :=
  match ix.find r with
  | none => [.asked (.find r), .skipped kind r.name]
  | some d => [.asked (.find r), .crossed ⟨source, kind, d⟩]

/-- The steps of an expansion, visits apart. -/
def Index.steps (ix : Index δ) (links : List LinkKind) (source : Option δ) : List (Step δ) :=
  links.flatMap fun kind =>
    (rowQuery kind source).toList.map Step.asked ++
      (ix.row kind source).flatMap (ix.stepsTo source kind)

/-- The edges that leave an entry, link by link, without references that stand for nothing. -/
def Index.edges (ix : Index δ) (links : List LinkKind) (source : Option δ) : List (Edge δ) :=
  links.flatMap fun kind => (ix.row kind source).filterMap fun r =>
    (ix.find r).map fun d => ⟨source, kind, d⟩

/-- The queries that expanding an entry makes: one for each row that it has, and one for each
reference in it. -/
def Index.queries (ix : Index δ) (links : List LinkKind) (source : Option δ) : List (Query δ) :=
  links.flatMap fun kind =>
    (rowQuery kind source).toList ++ (ix.row kind source).map Query.find

theorem edgesOf_steps (ix : Index δ) (links : List LinkKind) (source : Option δ) :
    edgesOf (ix.steps links source) = ix.edges links source := by
  have hrow : ∀ kind, ((rowQuery kind source).toList.map Step.asked).filterMap Step.edge? = [] := by
    intro kind
    cases rowQuery kind source <;> rfl
  have hreferences : ∀ kind,
      ((ix.row kind source).flatMap (ix.stepsTo source kind)).filterMap Step.edge? =
        (ix.row kind source).filterMap fun r => (ix.find r).map fun d => ⟨source, kind, d⟩ := by
    intro kind
    rw [List.filterMap_flatMap, List.filterMap_eq_flatMap_toList]
    congr 1
    funext r
    unfold Index.stepsTo
    cases ix.find r <;> rfl
  rw [edgesOf, Index.steps, Index.edges, List.filterMap_flatMap]
  congr 1
  funext kind
  rw [List.filterMap_append, hrow, hreferences, List.nil_append]

theorem queriesOf_steps (ix : Index δ) (links : List LinkKind) (source : Option δ) :
    queriesOf (ix.steps links source) = ix.queries links source := by
  have hrow : ∀ kind, ((rowQuery kind source).toList.map Step.asked).filterMap Step.query? =
      (rowQuery kind source).toList := by
    intro kind
    cases rowQuery kind source <;> rfl
  have hreferences : ∀ kind,
      ((ix.row kind source).flatMap (ix.stepsTo source kind)).filterMap Step.query? =
        (ix.row kind source).map Query.find := by
    intro kind
    rw [List.filterMap_flatMap, List.map_eq_flatMap]
    congr 1
    funext r
    unfold Index.stepsTo
    cases ix.find r <;> rfl
  rw [queriesOf, Index.steps, Index.queries, List.filterMap_flatMap]
  congr 1
  funext kind
  rw [List.filterMap_append, hrow, hreferences]

theorem mem_edgesOf_iff {e : Edge δ} {t : List (Step δ)} : e ∈ edgesOf t ↔ .crossed e ∈ t := by
  have hedge : ∀ step : Step δ, step.edge? = some e ↔ step = .crossed e := by
    intro step
    cases step <;> simp [Step.edge?]
  simp [edgesOf, hedge]

/-- What an expansion skips are references that stand for nothing. -/
theorem skipped_mem_steps_iff {ix : Index δ} {links : List LinkKind} {source : Option δ}
    {kind : LinkKind} {name : String} :
    Step.skipped kind name ∈ ix.steps links source ↔
      kind ∈ links ∧ ∃ r ∈ ix.row kind source, ix.find r = none ∧ r.name = name := by
  have hreference : ∀ k r, Step.skipped kind name ∈ ix.stepsTo source k r ↔
      k = kind ∧ ix.find r = none ∧ r.name = name := by
    intro k r
    unfold Index.stepsTo
    cases ix.find r <;> simp [eq_comm]
  simp only [Index.steps, List.mem_flatMap, List.mem_append, List.mem_map, reduceCtorEq, and_false,
    exists_false, false_or, hreference]
  constructor
  · rintro ⟨_, hkind, r, hr, rfl, hfind, hname⟩
    exact ⟨hkind, r, hr, hfind, hname⟩
  · rintro ⟨hkind, r, hr, hfind, hname⟩
    exact ⟨kind, hkind, r, hr, rfl, hfind, hname⟩

theorem Index.source_of_mem_edges {ix : Index δ} {links : List LinkKind} {source : Option δ}
    {e : Edge δ} (h : e ∈ ix.edges links source) : e.source = source := by
  obtain ⟨kind, _, h⟩ := List.mem_flatMap.mp h
  obtain ⟨r, _, h⟩ := List.mem_filterMap.mp h
  obtain ⟨d, _, rfl⟩ := Option.map_eq_some_iff.mp h
  rfl

theorem Index.map_target_edges (ix : Index δ) (links : List LinkKind) (source : Option δ) :
    (ix.edges links source).map Edge.target = ix.targets links source := by
  simp only [edges, targets, List.map_flatMap, List.map_filterMap, Option.map_map]
  congr
  funext kind
  congr
  funext r
  cases ix.find r <;> rfl

theorem Index.mem_definitions_of_mem_edges {ix : Index δ} {links : List LinkKind}
    {source : Option δ} {e : Edge δ} (h : e ∈ ix.edges links source) :
    e.target ∈ ix.definitions := by
  have htarget : e.target ∈ ix.targets links source := by
    rw [← map_target_edges]
    exact List.mem_map_of_mem h
  exact mem_definitions_of_mem_targets htarget

/-! ## All expansions -/

section

variable [DecidableEq δ] (ix : Index δ) (links : List LinkKind) {α : Type}
  {view : Step δ → Option α} (hview : ∀ d, view (.visited d) = none)

include hview

theorem filterMap_follow (source : Option δ) (kind : LinkKind) (refs : List (Reference δ))
    (f : Frontier Unit δ) :
    (follow ix watch source kind refs f).trace.filterMap view =
      (refs.flatMap (ix.stepsTo source kind)).filterMap view := by
  induction refs generalizing f with
  | nil => rfl
  | cons r rest ih =>
    rw [List.flatMap_cons, List.filterMap_append, Index.stepsTo]
    rw [follow_cons]
    cases ix.find r with
    | none => simp only [Progress.after, List.filterMap_append, ih]
    | some d =>
      by_cases hd : d ∈ f.unreached
      · have hvisit : [Step.asked (.find r), .crossed ⟨source, kind, d⟩, .visited d].filterMap view =
            [Step.asked (.find r), .crossed ⟨source, kind, d⟩].filterMap view := by
          simp only [List.filterMap_cons, hview, List.filterMap_nil]
        simp only [hd, ↓reduceIte, watch, Progress.after, List.filterMap_append, ih, hvisit]
      · simp only [hd, ↓reduceIte, Progress.after, List.filterMap_append, ih]

theorem filterMap_expand (source : Option δ) (f : Frontier Unit δ) :
    (expand ix watch source links f).trace.filterMap view =
      (ix.steps links source).filterMap view := by
  induction links generalizing f with
  | nil => rfl
  | cons kind links ih =>
    have hsteps : ix.steps (kind :: links) source =
        ((rowQuery kind source).toList.map Step.asked ++
          (ix.row kind source).flatMap (ix.stepsTo source kind)) ++ ix.steps links source := rfl
    rw [expand_cons_watch]
    simp only [Progress.after, hsteps, List.filterMap_append, filterMap_follow ix hview, ih]

theorem filterMap_drain (f : Frontier Unit δ) :
    let t := (drain ix watch links f).trace
    t.filterMap view =
      ((f.queue ++ visitsOf t).flatMap fun d => ix.steps links (some d)).filterMap view := by
  induction f using drain_induct ix watch links with
  | done unreached _ =>
    rw [drain_nil]
    rfl
  | more unreached d queue _ ih =>
    -- what the expansion finds is queued behind the rest, so that it is expanded in this order
    have hfinds := expand_finds ix (some d) links ⟨unreached, queue, ()⟩
    have hqueue : (expand ix watch (some d) links ⟨unreached, queue, ()⟩).frontier.queue =
        queue ++ visitsOf (expand ix watch (some d) links ⟨unreached, queue, ()⟩).trace := by
      rw [hfinds.visits, hfinds.frontier]
      rfl
    have hfirst := filterMap_expand ix links hview (some d) ⟨unreached, queue, ()⟩
    rw [drain_cons_watch]
    simp only [Progress.after, List.filterMap_append, visitsOf_append, hfirst]
    rw [ih (ended_expand_watch ..), hqueue]
    simp only [List.flatMap_append, List.flatMap_cons, List.filterMap_append, List.append_assoc,
      List.cons_append]

theorem filterMap_walk (root : Option δ) :
    (walk ix links root watch ()).trace.filterMap view =
      ((root :: (reachable ix links root).map some).flatMap (ix.steps links)).filterMap view := by
  have hfinds := expand_finds ix root links (.initial ix root ())
  have hfirst := filterMap_expand ix links hview root (.initial ix root ())
  have hdrain := filterMap_drain ix links hview
    (expand ix watch root links (.initial ix root ())).frontier
  have hqueue : (expand ix watch root links (.initial ix root ())).frontier.queue =
      visitsOf (expand ix watch root links (.initial ix root ())).trace := by
    rw [hfinds.visits, hfinds.frontier]
    rfl
  simp only [hqueue] at hdrain
  simp only [reachable, trace_walk_watch, visitsOf_append, List.filterMap_append, hfirst, hdrain,
    List.flatMap_cons, List.flatMap_map]

end

section

variable [DecidableEq δ] (ix : Index δ) (links : List LinkKind) (root : Option δ)

theorem edgesOf_walk :
    edgesOf (walk ix links root watch ()).trace =
      (root :: (reachable ix links root).map some).flatMap (ix.edges links) := by
  rw [edgesOf, filterMap_walk ix links (fun _ => rfl) root, List.filterMap_flatMap]
  exact congrArg (List.flatMap · _) (funext (edgesOf_steps ix links))

theorem queriesOf_walk :
    queriesOf (walk ix links root watch ()).trace =
      (root :: (reachable ix links root).map some).flatMap (ix.queries links) := by
  rw [queriesOf, filterMap_walk ix links (fun _ => rfl) root, List.filterMap_flatMap]
  exact congrArg (List.flatMap · _) (funext (queriesOf_steps ix links))

/-- A step that is no visit is taken where some entry is expanded. -/
theorem mem_trace_walk_iff {step : Step δ} (h : step.visit? = none) :
    step ∈ (walk ix links root watch ()).trace ↔
      ∃ source ∈ root :: (reachable ix links root).map some, step ∈ ix.steps links source := by
  let view (s : Step δ) : Option (Step δ) := if s.visit?.isSome then none else some s
  have hmem : ∀ t : List (Step δ), step ∈ t ↔ step ∈ t.filterMap view := by
    intro t
    rw [List.mem_filterMap]
    constructor
    · intro hstep
      exact ⟨step, hstep, by simp [view, h]⟩
    · rintro ⟨s, hs, heq⟩
      obtain ⟨_, rfl⟩ := by simpa [view] using heq
      exact hs
  rw [hmem, filterMap_walk ix links (fun _ => rfl) root, ← hmem, List.mem_flatMap]

end

end ComponentAttrs
