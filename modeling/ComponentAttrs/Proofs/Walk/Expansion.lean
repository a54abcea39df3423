import ComponentAttrs.Proofs.Walk.Replay

/-!
What expanding one definition adds to a walk that only looks: the targets of its references that are
not reached yet, each at its first place. They go to the end of the queue and off the unreached ones.

* `follow_finds`, `expand_finds`: for one row, for all links;
* `visitsOf_drain_append`: for a whole stretch of the queue at once;
* `visitsOf_drain_congr`: two indexes, where each expansion finds the same in both.
-/
namespace ComponentAttrs

variable {δ : Type}

/-! ## Targets -/

/-- What the references of a definition stand for, link by link, without those that stand for
nothing. -/
def Index.targets (ix : Index δ) (links : List LinkKind) (source : Option δ) : List δ :=
  links.flatMap fun kind => (ix.row kind source).filterMap ix.find

theorem Index.targets_cons (ix : Index δ) (kind : LinkKind) (links : List LinkKind)
    (source : Option δ) :
    ix.targets (kind :: links) source =
      (ix.row kind source).filterMap ix.find ++ ix.targets links source := rfl

theorem Index.mem_targets {ix : Index δ} {links : List LinkKind} {source : Option δ} {d : δ} :
    d ∈ ix.targets links source ↔
      ∃ kind ∈ links, ∃ r ∈ ix.row kind source, ix.find r = some d := by
  simp [Index.targets]

/-- Without a definition only what is registered for every component is left to follow. -/
theorem Index.mem_targets_none {ix : Index δ} {links : List LinkKind} {d : δ} :
    d ∈ ix.targets links none ↔
      .globalMixin ∈ links ∧ ∃ r ∈ ix.globalMixins.getD [], ix.find r = some d := by
  rw [mem_targets]
  constructor
  · rintro ⟨kind, hkind, r, hr, hd⟩
    cases kind with
    | localMixin => cases hr
    | globalMixin => exact ⟨hkind, r, hr, hd⟩
    | extension => cases hr
  · rintro ⟨hkind, r, hr, hd⟩
    exact ⟨.globalMixin, hkind, r, hr, hd⟩

theorem Index.mem_definitions_of_mem_targets {ix : Index δ} {links : List LinkKind}
    {source : Option δ} {d : δ} (h : d ∈ ix.targets links source) : d ∈ ix.definitions := by
  obtain ⟨_, _, r, _, hr⟩ := mem_targets.mp h
  exact ix.find_mem r d hr

/-! ## Definitions that are new -/

variable [DecidableEq δ]

/-- Those of a list that are not reached yet, each at its first place. -/
def fresh (unreached ds : List δ) : List δ := (ds.filter (· ∈ unreached)).eraseDups

@[simp] theorem fresh_nil (unreached : List δ) : fresh unreached [] = [] := rfl

theorem mem_fresh_iff {unreached ds : List δ} {d : δ} :
    d ∈ fresh unreached ds ↔ d ∈ ds ∧ d ∈ unreached := by
  simp [fresh]

theorem fresh_append (unreached as bs : List δ) :
    fresh unreached (as ++ bs) =
      fresh unreached as ++ fresh (unreached.filter (· ∉ fresh unreached as)) bs := by
  simp only [fresh, List.filter_append, List.eraseDups_append, List.removeAll, List.filter_filter]
  congr 2
  apply List.filter_congr
  intro b _
  by_cases hb : b ∈ unreached <;> simp [hb]

theorem fresh_cons_of_mem {unreached : List δ} {d : δ} (h : d ∈ unreached) (ds : List δ) :
    fresh unreached (d :: ds) = d :: fresh (unreached.filter (· ∉ [d])) ds := by
  have hd : fresh unreached [d] = [d] := by simp [fresh, h, List.eraseDups_cons]
  rw [← List.singleton_append, fresh_append, hd, List.singleton_append]

theorem fresh_cons_of_not_mem {unreached : List δ} {d : δ} (h : d ∉ unreached) (ds : List δ) :
    fresh unreached (d :: ds) = fresh unreached ds := by
  simp [fresh, h]

theorem fresh_append_of_forall_not_mem {unreached ds : List δ} (h : ∀ d ∈ ds, d ∉ unreached)
    (es : List δ) : fresh unreached (ds ++ es) = fresh unreached es := by
  induction ds with
  | nil => rfl
  | cons d ds ih =>
    obtain ⟨hd, hds⟩ := List.forall_mem_cons.mp h
    rw [List.cons_append, fresh_cons_of_not_mem hd, ih hds]

/-- A link that leads to nothing new may be left out. -/
theorem fresh_targets_filter_ne {ix : Index δ} {unreached : List δ} {kind : LinkKind}
    {source : Option δ} (h : ∀ d ∈ (ix.row kind source).filterMap ix.find, d ∉ unreached)
    (links : List LinkKind) :
    fresh unreached (ix.targets (links.filter (· ≠ kind)) source) =
      fresh unreached (ix.targets links source) := by
  induction links generalizing unreached with
  | nil => rfl
  | cons k links ih =>
    rw [ix.targets_cons]
    by_cases hk : k = kind
    · subst hk
      rw [List.filter_cons_of_neg (by simp), ih h, fresh_append_of_forall_not_mem h]
    · rw [List.filter_cons_of_pos (by simpa using hk), ix.targets_cons, fresh_append, fresh_append,
        ih fun d hd hmem => h d hd (List.mem_filter.mp hmem).1]

omit [DecidableEq δ] in
theorem nodup_eraseDups [BEq δ] [LawfulBEq δ] (ds : List δ) : ds.eraseDups.Nodup := by
  match ds with
  | [] => simp
  | d :: ds =>
    rw [List.eraseDups_cons, List.nodup_cons]
    exact ⟨by simp, nodup_eraseDups (ds.filter fun e => !e == d)⟩
termination_by ds.length
decreasing_by exact Nat.lt_succ_of_le (List.length_filter_le _ _)

/-! ## What an expansion finds -/

/-- Takes definitions off the unreached ones and puts them at the end of the queue. -/
def Frontier.reachAll (f : Frontier Unit δ) (ds : List δ) : Frontier Unit δ :=
  ⟨f.unreached.filter (· ∉ ds), f.queue ++ ds, ()⟩

theorem Frontier.reachAll_nil (f : Frontier Unit δ) : f.reachAll [] = f := by
  have hall : f.unreached.filter (· ∉ ([] : List δ)) = f.unreached := by simp
  simp only [reachAll, hall, List.append_nil]

theorem Frontier.reachAll_append (f : Frontier Unit δ) (ds es : List δ) :
    f.reachAll (ds ++ es) = (f.reachAll ds).reachAll es := by
  simp only [reachAll, List.filter_filter, List.append_assoc, List.mem_append, not_or,
    Bool.decide_and, Bool.and_comm]

/-- A part of a walk visits some definitions, in order, and queues just these. -/
structure Finds (p : Progress Unit δ) (f : Frontier Unit δ) (new : List δ) : Prop where
  frontier : p.frontier = f.reachAll new
  visits : visitsOf p.trace = new

theorem Finds.andThen {p q : Progress Unit δ} {f : Frontier Unit δ} {ds es : List δ}
    (hp : Finds p f ds) (hq : Finds q (f.reachAll ds) es) :
    Finds (q.after p.trace) f (ds ++ es) where
  frontier := by
    rw [f.reachAll_append]
    exact hq.frontier
  visits := by
    change visitsOf (p.trace ++ q.trace) = _
    rw [visitsOf, List.filterMap_append, ← hp.visits, ← hq.visits]
    rfl

/-- Steps that visit nothing change nothing. -/
theorem Finds.after {p : Progress Unit δ} {f : Frontier Unit δ} {ds : List δ}
    {steps : List (Step δ)} (hs : visitsOf steps = []) (h : Finds p f ds) :
    Finds (p.after steps) f ds where
  frontier := h.frontier
  visits := by
    change visitsOf (steps ++ p.trace) = _
    rw [visitsOf, List.filterMap_append, ← h.visits]
    simp [visitsOf, show steps.filterMap Step.visit? = [] from hs]

theorem follow_finds (ix : Index δ) (source : Option δ) (kind : LinkKind)
    (refs : List (Reference δ)) (f : Frontier Unit δ) :
    Finds (follow ix watch source kind refs f) f (fresh f.unreached (refs.filterMap ix.find)) := by
  induction refs generalizing f with
  | nil => exact ⟨f.reachAll_nil.symm, rfl⟩
  | cons r rest ih =>
    rw [follow_cons]
    cases hr : ix.find r with
    | none =>
      rw [List.filterMap_cons_none hr]
      exact (ih f).after rfl
    | some d =>
      rw [List.filterMap_cons_some hr]
      by_cases hd : d ∈ f.unreached
      · simp only [hd, ↓reduceIte, watch, fresh_cons_of_mem]
        have hreach : f.reach d f.memory = f.reachAll [d] := by
          simp [Frontier.reach, Frontier.reachAll]
        have hfirst : Finds ⟨f.reachAll [d], [.asked (.find r), .crossed ⟨source, kind, d⟩,
            .visited d], false⟩ f [d] := ⟨rfl, rfl⟩
        rw [hreach]
        exact hfirst.andThen (ih (f.reachAll [d]))
      · simp only [hd, ↓reduceIte, fresh_cons_of_not_mem, not_false_eq_true]
        exact (ih f).after rfl

theorem expand_finds (ix : Index δ) (source : Option δ) (links : List LinkKind)
    (f : Frontier Unit δ) :
    Finds (expand ix watch source links f) f (fresh f.unreached (ix.targets links source)) := by
  induction links generalizing f with
  | nil => exact ⟨f.reachAll_nil.symm, rfl⟩
  | cons kind links ih =>
    have hno : visitsOf ((rowQuery kind source).toList.map Step.asked) = [] := by
      cases rowQuery kind source <;> rfl
    have hrow := follow_finds ix source kind (ix.row kind source) f
    rw [expand_cons_watch]
    simp only [Progress.after, hrow.frontier, Index.targets, List.flatMap_cons, fresh_append]
    exact (hrow.after hno).andThen (ih _)

/-! ## The order of visits -/

omit [DecidableEq δ] in
theorem visitsOf_append (s t : List (Step δ)) : visitsOf (s ++ t) = visitsOf s ++ visitsOf t :=
  List.filterMap_append

theorem visitsOf_drain_nil (ix : Index δ) (links : List LinkKind) (unreached : List δ) :
    visitsOf (drain ix watch links ⟨unreached, [], ()⟩).trace = [] := by
  rw [drain_nil]
  rfl

theorem visitsOf_drain_cons (ix : Index δ) (links : List LinkKind) (unreached : List δ) (d : δ)
    (queue : List δ) :
    let new := fresh unreached (ix.targets links (some d))
    visitsOf (drain ix watch links ⟨unreached, d :: queue, ()⟩).trace =
      new ++ visitsOf (drain ix watch links (Frontier.reachAll ⟨unreached, queue, ()⟩ new)).trace := by
  have hfinds := expand_finds ix (some d) links ⟨unreached, queue, ()⟩
  rw [drain_cons_watch]
  simp only [Progress.after, visitsOf_append, hfinds.visits, hfinds.frontier]

/-- A stretch at the head of the queue finds what its definitions refer to and what is not reached
yet, all at the end of the queue. -/
theorem visitsOf_drain_append (ix : Index δ) (links : List LinkKind) (unreached ds queue : List δ) :
    let new := fresh unreached (ds.flatMap fun d => ix.targets links (some d))
    visitsOf (drain ix watch links ⟨unreached, ds ++ queue, ()⟩).trace =
      new ++ visitsOf (drain ix watch links (Frontier.reachAll ⟨unreached, queue, ()⟩ new)).trace := by
  induction ds generalizing unreached queue with
  | nil => simp only [List.flatMap_nil, fresh_nil, List.nil_append, Frontier.reachAll_nil]
  | cons d ds ih =>
    have hlater := ih (unreached.filter (· ∉ fresh unreached (ix.targets links (some d))))
      (queue ++ fresh unreached (ix.targets links (some d)))
    rw [← List.append_assoc] at hlater
    simp only [List.cons_append, List.flatMap_cons, fresh_append, Frontier.reachAll_append]
    rw [visitsOf_drain_cons, List.append_assoc]
    exact congrArg (_ ++ ·) hlater

/-! ## Expansions that find the same -/

/-- What is found depends on what is unreached and on the targets; where both agree for everything
that can still be unreached, the queue takes the same course. -/
theorem visitsOf_drain_congr {ix ix' : Index δ} {links links' : List LinkKind}
    (f : Frontier Unit δ)
    (h : ∀ unreached ⊆ f.unreached, ∀ d, fresh unreached (ix.targets links (some d)) =
      fresh unreached (ix'.targets links' (some d))) :
    visitsOf (drain ix watch links f).trace = visitsOf (drain ix' watch links' f).trace := by
  induction f using drain_induct ix watch links with
  | done unreached _ => rw [visitsOf_drain_nil, visitsOf_drain_nil]
  | more unreached d queue _ ih =>
    have hfinds := expand_finds ix (some d) links ⟨unreached, queue, ()⟩
    have hless : (expand ix watch (some d) links ⟨unreached, queue, ()⟩).frontier.unreached ⊆
        unreached := by
      rw [hfinds.frontier]
      exact List.filter_sublist.subset
    have hrest := ih (ended_expand_watch ..) fun later hlater =>
      h later (List.Subset.trans hlater hless)
    rw [hfinds.frontier] at hrest
    rw [visitsOf_drain_cons, visitsOf_drain_cons, ← h unreached (List.Subset.refl _) d]
    exact congrArg (_ ++ ·) hrest

/-- The root finds its targets, and the queue goes on from them. -/
theorem visitsOf_walkThen_watch (ix later : Index δ) (links : List LinkKind) (root : Option δ) :
    let start := Frontier.initial ix root ()
    let new := fresh start.unreached (ix.targets links root)
    visitsOf (walkThen ix later links root watch ()).trace =
      new ++ visitsOf (drain later watch links (start.reachAll new)).trace := by
  have hfinds := expand_finds ix root links (.initial ix root ())
  rw [trace_walkThen_watch]
  simp only [visitsOf_append, hfinds.visits, hfinds.frontier]

end ComponentAttrs
