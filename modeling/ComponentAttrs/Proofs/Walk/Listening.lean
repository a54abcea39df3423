import ComponentAttrs.Proofs.Walk.Flattening

/-!
A listener hears every edge and changes nothing: the walk that tells a listener and the one that does
not have the trace of the walk that only looks, the latter without its edges.

* `walk_observe`: both walks from that trace, with what is remembered;
* `trace_eq_expansions`: edges and queries, entry by entry, with or without a listener.
-/
namespace ComponentAttrs.Listening

variable {σ δ : Type}

/-! ## Hearing a trace -/

/-- What visitor and listener together remember of a step. -/
def recollect (note : σ → δ → σ) (listener : Option (Listener σ δ)) (memory : σ) : Step δ → σ
  | .crossed e => hear listener memory e
  | .visited d => note memory d
  | _ => memory

/-- Edges are there only for who listens. -/
def isNoticed (listener : Option (Listener σ δ)) : Step δ → Bool
  | .crossed _ => listener.isSome
  | _ => true

theorem filter_crossed (listener : Option (Listener σ δ)) (e : Edge δ) :
    [Step.crossed e].filter (isNoticed listener) = crossing listener e := by
  cases listener <;> rfl

/-- A part of a walk, against the same part of the walk that only looks. -/
structure Hears (note : σ → δ → σ) (listener : Option (Listener σ δ)) (memory : σ)
    (p : Progress σ δ) (q : Progress Unit δ) : Prop where
  trace : p.trace = q.trace.filter (isNoticed listener)
  unvisited : p.frontier.blank = q.frontier
  memory : p.frontier.memory = q.trace.foldl (recollect note listener) memory
  goesOn : p.ended = false

section

variable {note : σ → δ → σ} {listener : Option (Listener σ δ)}

/-- Steps in front, as they are noticed and as they are. -/
theorem Hears.after {memory later : σ} {p : Progress σ δ} {q : Progress Unit δ}
    {noticed steps : List (Step δ)} (hsteps : noticed = steps.filter (isNoticed listener))
    (hlater : later = steps.foldl (recollect note listener) memory)
    (h : Hears note listener later p q) :
    Hears note listener memory (p.after noticed) (q.after steps) where
  trace := by
    change noticed ++ p.trace = (steps ++ q.trace).filter _
    rw [List.filter_append, h.trace, hsteps]
  unvisited := h.unvisited
  memory := by
    change p.frontier.memory = (steps ++ q.trace).foldl _ _
    rw [List.foldl_append, ← hlater]
    exact h.memory
  goesOn := h.goesOn

/-- One part behind another. -/
theorem Hears.andThen {memory : σ} {p p' : Progress σ δ} {q q' : Progress Unit δ}
    (h : Hears note listener memory p q) (hnext : Hears note listener p.frontier.memory p' q') :
    Hears note listener memory (p'.after p.trace) (q'.after q.trace) :=
  hnext.after h.trace h.memory

end

/-! ## Parts of walks -/

variable [DecidableEq δ] (ix : Index δ) (note : σ → δ → σ) (listener : Option (Listener σ δ))

theorem follow_hears (source : Option δ) (kind : LinkKind) (refs : List (Reference δ))
    (f : Frontier σ δ) :
    Hears note listener f.memory (follow ix (observe note) listener source kind refs f)
      (ComponentAttrs.follow ix watch source kind refs f.blank) := by
  induction refs generalizing f with
  | nil => exact ⟨rfl, rfl, rfl, rfl⟩
  | cons r rest ih =>
    unfold follow
    rw [follow_cons]
    cases hr : ix.find r with
    | none => exact (ih f).after rfl rfl
    | some d =>
      let e : Edge δ := ⟨source, kind, d⟩
      have hedge := filter_crossed listener e
      by_cases hd : d ∈ f.unreached
      · have hd' : d ∈ f.blank.unreached := hd
        simp only [hd, hd', ↓reduceIte, observe, watch]
        refine (ih (f.reach d (note (hear listener f.memory e) d))).after ?_ rfl
        change _ = [Step.asked (.find r)] ++ ([Step.crossed e] ++ [Step.visited d]).filter _
        rw [List.filter_append, hedge]
        rfl
      · have hd' : d ∉ f.blank.unreached := hd
        simp only [hd, hd', ↓reduceIte]
        refine (ih { f with memory := hear listener f.memory e }).after ?_ rfl
        exact congrArg (Step.asked (.find r) :: ·) hedge.symm

theorem expand_hears (source : Option δ) (links : List LinkKind) (f : Frontier σ δ) :
    Hears note listener f.memory (expand ix (observe note) listener source links f)
      (ComponentAttrs.expand ix watch source links f.blank) := by
  induction links generalizing f with
  | nil => exact ⟨rfl, rfl, rfl, rfl⟩
  | cons kind links ih =>
    -- asking for a row is noticed by everyone and remembered by nobody
    have hnoticed : (rowQuery kind source).toList.map Step.asked =
        ((rowQuery kind source).toList.map Step.asked).filter (isNoticed listener) := by
      cases rowQuery kind source <;> rfl
    have hkept : f.memory =
        ((rowQuery kind source).toList.map Step.asked).foldl (recollect note listener) f.memory := by
      cases rowQuery kind source <;> rfl
    have hrow :=
      (follow_hears ix note listener source kind (ix.row kind source) f).after hnoticed hkept
    have hboth := hrow.andThen (ih _)
    rw [hrow.unvisited] at hboth
    unfold expand
    rw [expand_cons_watch]
    simp only [hrow.goesOn, Bool.false_eq_true, ↓reduceIte]
    exact hboth

theorem drain_hears (links : List LinkKind) (f : Frontier σ δ) :
    Hears note listener f.memory (drain ix (observe note) listener links f)
      (ComponentAttrs.drain ix watch links f.blank) := by
  fun_induction drain ix (observe note) listener links f with
  | case1 f hq =>
    obtain ⟨unreached, queue, memory⟩ := f
    obtain rfl : queue = [] := hq
    rw [Frontier.blank, drain_nil]
    exact ⟨rfl, rfl, rfl, rfl⟩
  | case2 f d rest hq p hp =>
    have hfirst := expand_hears ix note listener (some d) links { f with queue := rest }
    exact absurd hp (by simp [p, hfirst.goesOn])
  | case3 f d rest hq p hp ih =>
    obtain ⟨unreached, queue, memory⟩ := f
    obtain rfl : queue = d :: rest := hq
    have hfirst := expand_hears ix note listener (some d) links ⟨unreached, rest, memory⟩
    have hboth := hfirst.andThen ih
    rw [hfirst.unvisited] at hboth
    rw [Frontier.blank, drain_cons_watch]
    exact hboth

/-! ## Whole walks -/

/-- A visitor that never ends the walk, with or without a listener. -/
theorem walk_observe (links : List LinkKind) (root : Option δ) (memory : σ) :
    let looks := (ComponentAttrs.walk ix links root watch ()).trace
    walk ix links root (observe note) listener memory =
      ⟨.proceed, looks.foldl (recollect note listener) memory,
        looks.filter (isNoticed listener)⟩ := by
  intro looks
  have hfirst := expand_hears ix note listener root links (.initial ix root memory)
  have hboth := hfirst.andThen (drain_hears ix note listener links _)
  rw [hfirst.unvisited] at hboth
  have hlooks : looks = _ := trace_walk_watch ix links root
  simp only [walk, hfirst.goesOn, Bool.false_eq_true, ↓reduceIte, hboth.goesOn]
  rw [hlooks, hboth.memory, hboth.trace]
  rfl

omit [DecidableEq δ] in
/-- Who does not listen misses edges only. -/
theorem filterMap_filter_isNoticed {α : Type} (view : Step δ → Option α)
    (h : ∀ e, view (.crossed e) = none) (trace : List (Step δ)) :
    (trace.filter (isNoticed listener)).filterMap view = trace.filterMap view := by
  rw [List.filterMap_filter]
  congr
  funext step
  cases step with
  | crossed e => simp [h]
  | _ => rfl

omit [DecidableEq δ] in
theorem filter_isNoticed_some (listen : Listener σ δ) (trace : List (Step δ)) :
    trace.filter (isNoticed (some listen)) = trace := by
  rw [List.filter_eq_self]
  intro step _
  cases step <;> rfl

/-- **Each entry is expanded once.** On a walk that is never ended the listener hears the edges that
leave the root entry and then those that leave each visited definition, in the order of visits, link
by link and reference by reference; each row is asked for once and each reference once. Without a
listener all is the same but for the edges. -/
theorem trace_eq_expansions (links : List LinkKind) (root : Option δ) (listen : Listener σ δ)
    (memory : σ) :
    let w := walk ix links root (observe note) (some listen) memory
    let silent := walk ix links root (observe note) none memory
    let expanded := root :: (visitsOf w.trace).map some
    (w.outcome = .proceed ∧ w.memory = w.trace.foldl (recollect note (some listen)) memory ∧
      w.trace = (ComponentAttrs.walk ix links root (observe note) memory).trace) ∧
    expanded.Nodup ∧
    (edgesOf w.trace = expanded.flatMap fun source => links.flatMap fun kind =>
      (ix.row kind source).filterMap fun r => (ix.find r).map fun d => ⟨source, kind, d⟩) ∧
    (queriesOf w.trace = expanded.flatMap fun source => links.flatMap fun kind =>
      (rowQuery kind source).toList ++ (ix.row kind source).map Query.find) ∧
    (∀ kind, rowQuery kind (none : Option δ) =
      if kind = .globalMixin then some .globalMixins else none) ∧
    silent.outcome = w.outcome ∧ visitsOf silent.trace = visitsOf w.trace ∧
      queriesOf silent.trace = queriesOf w.trace ∧
      (∀ name, logOf name silent.trace = logOf name w.trace) ∧ edgesOf silent.trace = [] := by
  intro w silent expanded
  have hw : w = _ := walk_observe ix note (some listen) links root memory
  have hsilent : silent = _ := walk_observe ix note none links root memory
  rw [filter_isNoticed_some] at hw
  have hexpanded : expanded = root :: (reachable ix links root).map some := by
    simp only [expanded, hw]
    rfl
  rw [hexpanded, hw, hsilent]
  refine ⟨⟨rfl, rfl, ?_⟩, nodup_root_cons_reachable ix links root, edgesOf_walk ix links root,
    queriesOf_walk ix links root, ?_, rfl, ?_, ?_, fun name => ?_, ?_⟩
  · rw [ComponentAttrs.walk_observe]
  · intro kind
    cases kind <;> rfl
  · exact filterMap_filter_isNoticed none Step.visit? (fun _ => rfl) _
  · exact filterMap_filter_isNoticed none Step.query? (fun _ => rfl) _
  · exact filterMap_filter_isNoticed none (Step.log? name) (fun _ => rfl) _
  · rw [edgesOf, List.filterMap_filter, List.filterMap_eq_nil_iff]
    intro step _
    cases step <;> rfl

end ComponentAttrs.Listening
