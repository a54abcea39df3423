import ComponentAttrs.Proofs.Walk.Expansion

/-!
What a trace looks like from the inside: row by row, every reference is asked for, then skipped or
crossed, and a definition is visited right behind the first edge that leads to it.

* `walk_course`: the trace of the walk that only looks is of this form;
* `Course.exists_cut`: a visitor that ends a walk ends it behind such a first edge;
* `walk_eq_cut`: visits, edges and queries of any walk are cut off there together.
-/
namespace ComponentAttrs

variable {σ τ δ : Type}

/-! ## Views of a trace, step by step -/

theorem visitsOf_cons (step : Step δ) (t : List (Step δ)) :
    visitsOf (step :: t) = step.visit?.toList ++ visitsOf t := by
  cases h : step.visit? <;> simp [visitsOf, h]

theorem edgesOf_cons (step : Step δ) (t : List (Step δ)) :
    edgesOf (step :: t) = step.edge?.toList ++ edgesOf t := by
  cases h : step.edge? <;> simp [edgesOf, h]

theorem queriesOf_cons (step : Step δ) (t : List (Step δ)) :
    queriesOf (step :: t) = step.query?.toList ++ queriesOf t := by
  cases h : step.query? <;> simp [queriesOf, h]

theorem edgesOf_append (s t : List (Step δ)) : edgesOf (s ++ t) = edgesOf s ++ edgesOf t :=
  List.filterMap_append

theorem queriesOf_append (s t : List (Step δ)) :
    queriesOf (s ++ t) = queriesOf s ++ queriesOf t :=
  List.filterMap_append

/-! ## The form of a trace -/

section

variable [DecidableEq δ]

/-- Traces that can come about while some definitions are unreached, and what is unreached after
them. -/
inductive Course (ix : Index δ) : List δ → List (Step δ) → List δ → Prop
  | done {u : List δ} : Course ix u [] u
  | row {u v : List δ} {t : List (Step δ)} {kind : LinkKind} {source : Option δ} {q : Query δ} :
      rowQuery kind source = some q → Course ix u t v → Course ix u (.asked q :: t) v
  | stale {u v : List δ} {t : List (Step δ)} {r : Reference δ} {kind : LinkKind} :
      ix.find r = none → Course ix u t v →
      Course ix u (.asked (.find r) :: .skipped kind r.name :: t) v
  /-- An edge to a definition that was reached before. -/
  | known {u v : List δ} {t : List (Step δ)} {r : Reference δ} {e : Edge δ} :
      r ∈ ix.row e.kind e.source → ix.find r = some e.target → e.target ∉ u → Course ix u t v →
      Course ix u (.asked (.find r) :: .crossed e :: t) v
  /-- The first edge to a definition. -/
  | first {u v : List δ} {t : List (Step δ)} {r : Reference δ} {e : Edge δ} :
      r ∈ ix.row e.kind e.source → ix.find r = some e.target → e.target ∈ u →
      Course ix (u.filter (· ≠ e.target)) t v →
      Course ix u (.asked (.find r) :: .crossed e :: .visited e.target :: t) v

theorem Course.append {ix : Index δ} {u v w : List δ} {s t : List (Step δ)}
    (hs : Course ix u s v) (ht : Course ix v t w) : Course ix u (s ++ t) w := by
  induction hs with
  | done => exact ht
  | row hq _ ih => exact .row hq (ih ht)
  | stale hr _ ih => exact .stale hr (ih ht)
  | known hrow hr hd _ ih => exact .known hrow hr hd (ih ht)
  | first hrow hr hd _ ih => exact .first hrow hr hd (ih ht)

theorem Course.mem_of_mem_visits {ix : Index δ} {u v : List δ} {t : List (Step δ)}
    (h : Course ix u t v) {d : δ} (hd : d ∈ visitsOf t) : d ∈ u := by
  induction h with
  | done => cases hd
  | row _ _ ih => exact ih hd
  | stale _ _ ih => exact ih hd
  | known _ _ _ _ ih => exact ih hd
  | first _ _ he _ ih =>
    rcases List.mem_cons.mp hd with rfl | hlater
    · exact he
    · exact (List.mem_filter.mp (ih hlater)).1

/-! ## Walks have it -/

theorem follow_course (ix : Index δ) (source : Option δ) (kind : LinkKind)
    {refs : List (Reference δ)} (hrefs : ∀ r ∈ refs, r ∈ ix.row kind source)
    (f : Frontier Unit δ) :
    let p := follow ix watch source kind refs f
    Course ix f.unreached p.trace p.frontier.unreached := by
  induction refs generalizing f with
  | nil => exact .done
  | cons r rest ih =>
    have hr := hrefs r (List.mem_cons_self ..)
    have hrest := ih fun r hr => hrefs r (List.mem_cons_of_mem _ hr)
    rw [follow_cons]
    cases hfind : ix.find r with
    | none => exact .stale hfind (hrest f)
    | some d =>
      by_cases hd : d ∈ f.unreached
      · simp only [hd, ↓reduceIte, watch]
        exact .first (e := ⟨source, kind, d⟩) hr hfind hd (hrest (f.reach d f.memory))
      · simp only [hd, ↓reduceIte]
        exact .known (e := ⟨source, kind, d⟩) hr hfind hd (hrest f)

theorem expand_course (ix : Index δ) (source : Option δ) (links : List LinkKind)
    (f : Frontier Unit δ) :
    let p := expand ix watch source links f
    Course ix f.unreached p.trace p.frontier.unreached := by
  induction links generalizing f with
  | nil => exact .done
  | cons kind links ih =>
    have hrow := follow_course ix source kind (fun _ hr => hr) f
    have hasked : Course ix f.unreached
        ((rowQuery kind source).toList.map Step.asked ++
          (follow ix watch source kind (ix.row kind source) f).trace)
        (follow ix watch source kind (ix.row kind source) f).frontier.unreached := by
      cases hq : rowQuery kind source with
      | none => exact hrow
      | some q => exact .row hq hrow
    rw [expand_cons_watch]
    exact hasked.append (ih _)

theorem drain_course (ix : Index δ) (links : List LinkKind) (f : Frontier Unit δ) :
    let p := drain ix watch links f
    Course ix f.unreached p.trace p.frontier.unreached := by
  induction f using drain_induct ix watch links with
  | done unreached _ =>
    rw [drain_nil]
    exact .done
  | more unreached d queue _ ih =>
    rw [drain_cons_watch]
    exact (expand_course ix (some d) links ⟨unreached, queue, ()⟩).append
      (ih (ended_expand_watch ..))

theorem walk_course (ix : Index δ) (links : List LinkKind) (root : Option δ) :
    ∃ v,
      Course ix (Frontier.initial ix root ()).unreached (walk ix links root watch ()).trace v := by
  rw [trace_walk_watch]
  exact ⟨_, (expand_course ix root links _).append (drain_course ix links _)⟩

/-! ## Where a visitor cuts it off -/

/-- A visitor that ends a walk does so at a visit, and the edge in front of that visit is the first
one to its target. -/
theorem Course.exists_cut {ix : Index δ} {u v : List δ} {t : List (Step δ)} (h : Course ix u t v)
    (visit : Visitor σ δ) (memory : σ) (hstop : (offer visit (visitsOf t) memory).1 = .stop) :
    ∃ before r e after later,
      t = before ++ .asked (.find r) :: .crossed e :: .visited e.target :: after ∧
      r ∈ ix.row e.kind e.source ∧ ix.find r = some e.target ∧
      (∀ c ∈ edgesOf before, c.target ≠ e.target) ∧
      offer visit (visitsOf before) memory = (.proceed, later) ∧
      (visit later e.target).1 = .stop := by
  induction h generalizing memory with
  | done => cases hstop
  | row _ _ ih =>
    obtain ⟨before, r, e, after, later, rfl, hrest⟩ := ih memory hstop
    exact ⟨_ :: before, r, e, after, later, rfl, hrest⟩
  | stale _ _ ih =>
    obtain ⟨before, r, e, after, later, rfl, hrest⟩ := ih memory hstop
    exact ⟨_ :: _ :: before, r, e, after, later, rfl, hrest⟩
  | @known u v t _ c _ _ hc hcourse ih =>
    obtain ⟨before, r, e, after, later, rfl, hr, hfind, hnew, hrest⟩ := ih memory hstop
    have he : e.target ∈ u := hcourse.mem_of_mem_visits (by
      simp [visitsOf_append, visitsOf_cons, Step.visit?])
    refine ⟨_ :: _ :: before, r, e, after, later, rfl, hr, hfind, ?_, hrest⟩
    intro b hb
    rcases List.mem_cons.mp hb with rfl | hb
    · intro heq
      exact hc (heq ▸ he)
    · exact hnew b hb
  | @first u v t r c hr hfind hc hcourse ih =>
    cases hv : visit memory c.target with
    | mk outcome after =>
      cases outcome with
      | stop => exact ⟨[], r, c, t, memory, rfl, hr, hfind, by simp [edgesOf], rfl, by rw [hv]⟩
      | proceed =>
        have hlater : (offer visit (visitsOf t) after).1 = .stop := by
          simpa [visitsOf_cons, Step.visit?, offer, hv] using hstop
        obtain ⟨before, r, e, after, later, rfl, hr, hfind, hnew, hoffer, hend⟩ := ih after hlater
        have he := hcourse.mem_of_mem_visits (d := e.target) (by
          simp [visitsOf_append, visitsOf_cons, Step.visit?])
        refine ⟨_ :: _ :: _ :: before, r, e, _, later, rfl, hr, hfind, ?_, ?_, hend⟩
        · intro b hb
          rcases List.mem_cons.mp hb with rfl | hb
          · intro heq
            simp [heq] at he
          · exact hnew b hb
        · simpa [visitsOf_cons, Step.visit?, offer, hv] using hoffer

omit [DecidableEq δ] in
/-- A visitor is offered just what its walk visits. -/
theorem offer_visits_replay (visit : Visitor σ δ) (t : List (Step δ)) (memory : σ) :
    let w := replay visit t memory
    offer visit (visitsOf w.trace) memory = (w.outcome, w.memory) := by
  induction t generalizing memory with
  | nil => rfl
  | cons step t ih =>
    unfold replay
    cases hs : step.visit? with
    | none => simpa [Walk.after, visitsOf_cons, hs] using ih memory
    | some d =>
      cases hv : visit memory d with
      | mk outcome later =>
        cases outcome with
        | stop => simp [visitsOf_cons, hs, offer, hv]
        | proceed => simpa [Walk.after, visitsOf_cons, hs, offer, hv] using ih later

omit [DecidableEq δ] in
/-- A trace with such a visit in it, as a visitor leaves it that ends the walk there. -/
theorem replay_cut {visit : Visitor σ δ} {before : List (Step δ)} {memory later : σ} {d : δ}
    (hbefore : offer visit (visitsOf before) memory = (.proceed, later))
    (hstop : (visit later d).1 = .stop) (q : Query δ) (e : Edge δ) (after : List (Step δ)) :
    replay visit (before ++ .asked q :: .crossed e :: .visited d :: after) memory =
      ⟨.stop, (visit later d).2, before ++ [.asked q, .crossed e, .visited d, .stopped d]⟩ := by
  have hresult := replay_result visit before memory
  have htrace := trace_replay_of_proceed visit before memory
  rw [replay_append]
  cases hw : replay visit before memory with
  | mk outcome reached trace =>
    simp only [hw, hbefore, Prod.mk.injEq] at hresult htrace
    obtain ⟨rfl, rfl⟩ := hresult
    obtain rfl := htrace rfl
    cases hv : visit reached d with
    | mk outcome last =>
      obtain rfl : outcome = .stop := by simpa [hv] using hstop
      simp [Walk.andThen, Walk.after, replay, Step.visit?, hv]

/-- **Stopping is a prefix of not stopping.** A walk is the walk of a visitor that never ends it, as
long as its own visitor wants it to go on. Otherwise it is cut off behind the first visit at which
the visitor answers so: visits, edges and queries are those up to that visit, to the first edge to
the visited definition, and to the query that this edge was found by. -/
theorem walk_eq_cut (ix : Index δ) (links : List LinkKind) (root : Option δ) (visit : Visitor σ δ)
    (memory : σ) (note : τ → δ → τ) (notes : τ) :
    let full := walk ix links root (observe note) notes
    let w := walk ix links root visit memory
    full.outcome = .proceed ∧
    offer visit (visitsOf w.trace) memory = (w.outcome, w.memory) ∧
    match w.outcome with
    | .proceed => w.trace = full.trace
    | .stop => ∃ before r e after later,
      full.trace = before ++ .asked (.find r) :: .crossed e :: .visited e.target :: after ∧
      w.trace = before ++ [.asked (.find r), .crossed e, .visited e.target, .stopped e.target] ∧
      (visitsOf w.trace = visitsOf before ++ [e.target] ∧
        visitsOf w.trace <+: visitsOf full.trace ∧
        offer visit (visitsOf before) memory = (.proceed, later) ∧
        (visit later e.target).1 = .stop) ∧
      (edgesOf w.trace = edgesOf before ++ [e] ∧
        edgesOf w.trace <+: edgesOf full.trace ∧
        ∀ c ∈ edgesOf before, c.target ≠ e.target) ∧
      queriesOf w.trace = queriesOf before ++ [.find r] ∧
        queriesOf w.trace <+: queriesOf full.trace ∧
        r ∈ ix.row e.kind e.source ∧ ix.find r = some e.target := by
  intro full w
  have hfull : full = _ := walk_observe ix links root note notes
  have hw : w = _ := walk_eq_replay ix links root visit memory
  have hresult := replay_result visit (walk ix links root watch ()).trace memory
  have hoffered := offer_visits_replay visit (walk ix links root watch ()).trace memory
  have hpassed := trace_replay_of_proceed visit (walk ix links root watch ()).trace memory
  rw [← hw] at hresult hoffered hpassed
  rw [hfull]
  refine ⟨rfl, hoffered, ?_⟩
  cases houtcome : w.outcome with
  | proceed => exact hpassed houtcome
  | stop =>
    obtain ⟨_, hcourse⟩ := walk_course ix links root
    obtain ⟨before, r, e, after, later, ht, hrow, hfind, hnew, hoffer, hend⟩ :=
      hcourse.exists_cut visit memory (by rw [← hresult]; exact houtcome)
    have hcut := replay_cut hoffer hend (.find r) e after
    rw [← ht, ← hw] at hcut
    have hvisits : visitsOf w.trace = visitsOf before ++ [e.target] := by
      rw [hcut, visitsOf_append]
      rfl
    have hedges : edgesOf w.trace = edgesOf before ++ [e] := by
      rw [hcut, edgesOf_append]
      rfl
    have hqueries : queriesOf w.trace = queriesOf before ++ [.find r] := by
      rw [hcut, queriesOf_append]
      rfl
    refine ⟨before, r, e, after, later, ht, by rw [hcut], ⟨hvisits, ?_, hoffer, hend⟩,
      ⟨hedges, ?_, hnew⟩, hqueries, ?_, hrow, hfind⟩
    · exact ⟨visitsOf after, by simp [hvisits, ht, visitsOf_append, visitsOf_cons, Step.visit?]⟩
    · exact ⟨edgesOf after, by simp [hedges, ht, edgesOf_append, edgesOf_cons, Step.edge?]⟩
    · exact ⟨queriesOf after, by simp [hqueries, ht, queriesOf_append, queriesOf_cons, Step.query?]⟩

end

end ComponentAttrs
