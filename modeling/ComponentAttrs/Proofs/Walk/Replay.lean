import ComponentAttrs.Walk.Basic

/-!
A visitor decides how far a walk goes and never where it leads: every walk is the walk that only
looks, cut off behind the visit that the visitor ends it at.

* `walk_eq_replay`: the walk of any visitor from the trace of the walk that only looks;
* `isPrefix_of_replay`: what it keeps of that trace is a beginning of it;
* `Walk.SameVisits.of_replay`: a visitor cannot tell walks apart that visit the same;
* `offer_reachable`: its outcome and memory are what offering the reachable definitions gives;
* `walk_observe`: a visitor that never stops is given all of them.
-/
namespace ComponentAttrs

variable {σ δ : Type}

/-! ## Offering one list after another -/

theorem offer_append {α : Type} (visit : Visitor σ α) (as bs : List α) (memory : σ) :
    offer visit (as ++ bs) memory =
      match offer visit as memory with
      | (.stop, memory) => (.stop, memory)
      | (.proceed, memory) => offer visit bs memory := by
  induction as generalizing memory with
  | nil => rfl
  | cons a as ih =>
    simp only [List.cons_append, offer]
    cases visit memory a with
    | mk outcome memory =>
      cases outcome with
      | stop => rfl
      | proceed => exact ih memory

/-- A visitor that takes note of what it is given and never ends a walk. -/
def observe {α : Type} (note : σ → α → σ) : Visitor σ α := fun memory a => (.proceed, note memory a)

theorem offer_observe {α : Type} (note : σ → α → σ) (as : List α) (memory : σ) :
    offer (observe note) as memory = (.proceed, as.foldl note memory) := by
  induction as generalizing memory with
  | nil => rfl
  | cons a as ih => exact ih (note memory a)

/-! ## Replaying a trace -/

def Walk.after (steps : List (Step δ)) (w : Walk σ δ) : Walk σ δ :=
  { w with trace := steps ++ w.trace }

/-- Goes on after a walk, unless the visitor ended it. -/
def Walk.andThen (w : Walk σ δ) (next : σ → Walk σ δ) : Walk σ δ :=
  match w.outcome with
  | .stop => w
  | .proceed => (next w.memory).after w.trace

theorem Walk.after_andThen (steps : List (Step δ)) (w : Walk σ δ) (next : σ → Walk σ δ) :
    (w.after steps).andThen next = (w.andThen next).after steps := by
  obtain ⟨outcome, memory, trace⟩ := w
  cases outcome with
  | stop => rfl
  | proceed => simp [Walk.after, Walk.andThen]

/-- What a visitor makes of a trace that was recorded without it. -/
def replay (visit : Visitor σ δ) : List (Step δ) → σ → Walk σ δ
  | [], memory => ⟨.proceed, memory, []⟩
  | step :: rest, memory =>
    match step.visit? with
    | none => (replay visit rest memory).after [step]
    | some d =>
      match visit memory d with
      | (.stop, memory) => ⟨.stop, memory, [step, .stopped d]⟩
      | (.proceed, memory) => (replay visit rest memory).after [step]

theorem replay_append (visit : Visitor σ δ) (s t : List (Step δ)) (memory : σ) :
    replay visit (s ++ t) memory = (replay visit s memory).andThen (replay visit t) := by
  induction s generalizing memory with
  | nil => rfl
  | cons step s ih =>
    simp only [List.cons_append, replay]
    cases step.visit? with
    | none => rw [ih, Walk.after_andThen]
    | some d =>
      cases hv : visit memory d with
      | mk outcome memory =>
        cases outcome with
        | stop => simp only [hv, Walk.andThen]
        | proceed => simp only [hv, ih, Walk.after_andThen]

theorem replay_of_no_visits (visit : Visitor σ δ) {steps : List (Step δ)} (memory : σ)
    (h : visitsOf steps = []) : replay visit steps memory = ⟨.proceed, memory, steps⟩ := by
  induction steps with
  | nil => rfl
  | cons step steps ih =>
    cases hs : step.visit? with
    | none => simp_all [replay, visitsOf, Walk.after]
    | some d => simp [visitsOf, hs] at h

theorem replay_result (visit : Visitor σ δ) (trace : List (Step δ)) (memory : σ) :
    ((replay visit trace memory).outcome, (replay visit trace memory).memory) =
      offer visit (visitsOf trace) memory := by
  induction trace generalizing memory with
  | nil => rfl
  | cons step trace ih =>
    cases hs : step.visit? with
    | none => simpa [replay, visitsOf, hs, Walk.after] using ih memory
    | some d =>
      simp only [replay, visitsOf, hs, List.filterMap_cons, offer]
      cases visit memory d with
      | mk outcome memory =>
        cases outcome with
        | stop => rfl
        | proceed => exact ih memory

/-- A visitor that lets a whole trace pass leaves it as it is. -/
theorem trace_replay_of_proceed (visit : Visitor σ δ) (trace : List (Step δ)) (memory : σ)
    (h : (replay visit trace memory).outcome = .proceed) :
    (replay visit trace memory).trace = trace := by
  induction trace generalizing memory with
  | nil => rfl
  | cons step trace ih =>
    unfold replay at h ⊢
    cases hs : step.visit? with
    | none =>
      simp only [hs, Walk.after] at h ⊢
      rw [ih memory h, List.singleton_append]
    | some d =>
      cases hv : visit memory d with
      | mk outcome later =>
        cases outcome with
        | stop => simp [hs, hv] at h
        | proceed =>
          simp only [hs, hv, Walk.after] at h ⊢
          rw [ih later h, List.singleton_append]

/-- What a replay keeps is a beginning of the trace, with the end noted behind it where the visitor
ends the walk. -/
theorem exists_isPrefix_replay (visit : Visitor σ δ) (trace : List (Step δ)) (memory : σ) :
    let kept := (replay visit trace memory).trace
    ∃ s, s <+: trace ∧ (kept = s ∨ ∃ d, kept = s ++ [.stopped d]) := by
  induction trace generalizing memory with
  | nil => exact ⟨[], List.prefix_refl _, .inl rfl⟩
  | cons step trace ih =>
    have hlater : ∀ memory, ∃ s, s <+: step :: trace ∧
        (step :: (replay visit trace memory).trace = s ∨
          ∃ d, step :: (replay visit trace memory).trace = s ++ [.stopped d]) := by
      intro memory
      obtain ⟨s, hs, hkept⟩ := ih memory
      refine ⟨step :: s, List.cons_prefix_cons.mpr ⟨rfl, hs⟩, ?_⟩
      rcases hkept with hkept | ⟨d, hkept⟩
      · exact .inl (congrArg (step :: ·) hkept)
      · exact .inr ⟨d, congrArg (step :: ·) hkept⟩
    unfold replay
    cases step.visit? with
    | none => exact hlater memory
    | some d =>
      dsimp only
      cases visit memory d with
      | mk outcome later =>
        cases outcome with
        | stop => exact ⟨[step], ⟨trace, rfl⟩, .inr ⟨d, rfl⟩⟩
        | proceed => exact hlater later

/-- Up to any step but the noted end, a replay is the trace itself. -/
theorem isPrefix_of_replay {visit : Visitor σ δ} {trace before after : List (Step δ)}
    {memory : σ} {step : Step δ} (h : (replay visit trace memory).trace = before ++ step :: after)
    (hstep : ∀ d, step ≠ .stopped d) : before ++ [step] <+: trace := by
  obtain ⟨s, hs, hkept⟩ := exists_isPrefix_replay visit trace memory
  have hshort : before ++ [step] <+: (replay visit trace memory).trace := ⟨after, by simp [h]⟩
  rcases hkept with hkept | ⟨d, hkept⟩
  · rw [hkept] at hshort
    exact hshort.trans hs
  · rw [hkept, List.prefix_concat_iff] at hshort
    rcases hshort with heq | hshort
    · exact absurd (List.append_inj' heq rfl).2 (by simpa using hstep d)
    · exact hshort.trans hs

/-! ## Walks that visit the same -/

/-- What a visitor is given of a list: everything up to where it wants no more. -/
def taken {α : Type} (visit : Visitor σ α) : List α → σ → List α
  | [], _ => []
  | a :: rest, memory =>
    match visit memory a with
    | (.stop, _) => [a]
    | (.proceed, memory) => a :: taken visit rest memory

theorem visitsOf_replay (visit : Visitor σ δ) (trace : List (Step δ)) (memory : σ) :
    visitsOf (replay visit trace memory).trace = taken visit (visitsOf trace) memory := by
  induction trace generalizing memory with
  | nil => rfl
  | cons step trace ih =>
    unfold replay
    cases hs : step.visit? with
    | none =>
      have hcons : ∀ t, visitsOf (step :: t) = visitsOf t := fun _ => List.filterMap_cons_none hs
      rw [hcons]
      exact (hcons _).trans (ih memory)
    | some d =>
      have hcons : ∀ t, visitsOf (step :: t) = d :: visitsOf t :=
        fun _ => List.filterMap_cons_some hs
      rw [hcons, taken]
      cases hv : visit memory d with
      | mk outcome later =>
        simp only [hv]
        cases outcome with
        | stop => exact hcons [.stopped d]
        | proceed => exact (hcons _).trans (congrArg (d :: ·) (ih later))

/-- Walks that a visitor cannot tell apart: it is given the same definitions in the same order,
remembers the same and answers the same in the end. -/
structure Walk.SameVisits (v w : Walk σ δ) : Prop where
  visits : visitsOf v.trace = visitsOf w.trace
  outcome : v.outcome = w.outcome
  memory : v.memory = w.memory

theorem Walk.SameVisits.of_replay {s t : List (Step δ)} (h : visitsOf s = visitsOf t)
    (visit : Visitor σ δ) (memory : σ) :
    (replay visit s memory).SameVisits (replay visit t memory) := by
  have hs := replay_result visit s memory
  have ht := replay_result visit t memory
  rw [h, ← ht, Prod.mk.injEq] at hs
  refine ⟨?_, hs.1, hs.2⟩
  rw [visitsOf_replay, visitsOf_replay, h]

/-! ## Parts of walks -/

/-- A part of a walk, seen as a walk of its own. -/
def Progress.toWalk (p : Progress σ δ) : Walk σ δ :=
  ⟨if p.ended then .stop else .proceed, p.frontier.memory, p.trace⟩

/-- A frontier without what the visitor remembers. -/
def Frontier.blank (f : Frontier σ δ) : Frontier Unit δ := ⟨f.unreached, f.queue, ()⟩

/-- A part of a walk is the replay of a part without the visitor. Where the visitor lets the walk
pass, both are left with the same work. -/
structure Replays (visit : Visitor σ δ) (memory : σ) (p : Progress σ δ) (q : Progress Unit δ) :
    Prop where
  toWalk : p.toWalk = replay visit q.trace memory
  frontier : p.ended = false → p.frontier.blank = q.frontier
  goesOn : q.ended = false

theorem Replays.after {visit : Visitor σ δ} {memory later : σ} {p : Progress σ δ}
    {q : Progress Unit δ} {steps : List (Step δ)}
    (hs : replay visit steps memory = ⟨.proceed, later, steps⟩) (h : Replays visit later p q) :
    Replays visit memory (p.after steps) (q.after steps) where
  toWalk := by
    change p.toWalk.after steps = replay visit (steps ++ q.trace) memory
    rw [replay_append, hs, h.toWalk]
    rfl
  frontier := h.frontier
  goesOn := h.goesOn

/-- Two parts, the second of which starts where the first is left. -/
theorem Replays.andThen {visit : Visitor σ δ} {memory : σ} {p : Progress σ δ}
    {q r : Progress Unit δ} {k : Frontier σ δ → Progress σ δ} (h : Replays visit memory p q)
    (hnext : ∀ f : Frontier σ δ, f.blank = q.frontier → Replays visit f.memory (k f) r) :
    Replays visit memory (if p.ended then p else (k p.frontier).after p.trace)
      (r.after q.trace) := by
  have hr : r.ended = false := (hnext ⟨_, _, memory⟩ rfl).goesOn
  have happend : replay visit (r.after q.trace).trace memory =
      p.toWalk.andThen (replay visit r.trace) := by
    rw [h.toWalk, ← replay_append]
    rfl
  cases hp : p.ended with
  | true =>
    refine ⟨?_, ?_, hr⟩
    · rw [happend]
      simp [Walk.andThen, Progress.toWalk, hp]
    · intro hgoes
      simp [hp] at hgoes
  | false =>
    have hn := hnext p.frontier (h.frontier hp)
    refine ⟨?_, hn.frontier, hr⟩
    rw [happend]
    simp only [Walk.andThen, Progress.toWalk, hp, Bool.false_eq_true, ↓reduceIte, ← hn.toWalk]
    rfl

variable [DecidableEq δ]

theorem follow_replays (ix : Index δ) (visit : Visitor σ δ) (source : Option δ) (kind : LinkKind)
    (refs : List (Reference δ)) (f : Frontier σ δ) :
    Replays visit f.memory (follow ix visit source kind refs f)
      (follow ix watch source kind refs f.blank) := by
  induction refs generalizing f with
  | nil => exact ⟨rfl, fun _ => rfl, rfl⟩
  | cons r rest ih =>
    rw [follow_cons, follow_cons]
    cases hr : ix.find r with
    | none => exact (ih f).after (replay_of_no_visits visit f.memory rfl)
    | some d =>
      by_cases hd : d ∈ f.unreached
      · have hd' : d ∈ f.blank.unreached := hd
        cases hv : visit f.memory d with
        | mk outcome memory =>
          simp only [hd, hd', ↓reduceIte, watch, hv]
          cases outcome with
          | stop =>
            refine ⟨?_, ?_, (ih (f.reach d memory)).goesOn⟩
            · simp [Progress.toWalk, Progress.after, replay, Step.visit?, hv, Walk.after,
                Frontier.reach]
            · intro hgoes
              cases hgoes
          | proceed =>
            refine (ih (f.reach d memory)).after ?_
            simp [replay, Step.visit?, hv, Walk.after, Frontier.reach]
      · have hd' : d ∉ f.blank.unreached := hd
        simp only [hd, hd', ↓reduceIte]
        exact (ih f).after (replay_of_no_visits visit f.memory rfl)

theorem ended_follow_watch (ix : Index δ) (source : Option δ) (kind : LinkKind)
    (refs : List (Reference δ)) (f : Frontier Unit δ) :
    (follow ix watch source kind refs f).ended = false :=
  (follow_replays ix watch source kind refs f).goesOn

theorem expand_replays (ix : Index δ) (visit : Visitor σ δ) (source : Option δ)
    (links : List LinkKind) (f : Frontier σ δ) :
    Replays visit f.memory (expand ix visit source links f)
      (expand ix watch source links f.blank) := by
  induction links generalizing f with
  | nil => exact ⟨rfl, fun _ => rfl, rfl⟩
  | cons kind links ih =>
    have hno : visitsOf ((rowQuery kind source).toList.map Step.asked) = [] := by
      cases rowQuery kind source <;> rfl
    have hrow := (follow_replays ix visit source kind (ix.row kind source) f).after
      (replay_of_no_visits visit f.memory hno)
    rw [expand_cons, expand_cons]
    simp only [hrow.goesOn, Bool.false_eq_true, ↓reduceIte]
    apply hrow.andThen
    intro g hg
    rw [← hg]
    exact ih g

theorem ended_expand_watch (ix : Index δ) (source : Option δ) (links : List LinkKind)
    (f : Frontier Unit δ) : (expand ix watch source links f).ended = false :=
  (expand_replays ix watch source links f).goesOn

/-- A walk that only looks follows every link. -/
theorem expand_cons_watch (ix : Index δ) (source : Option δ) (kind : LinkKind)
    (links : List LinkKind) (f : Frontier Unit δ) :
    expand ix watch source (kind :: links) f =
      let p := (follow ix watch source kind (ix.row kind source) f).after
        ((rowQuery kind source).toList.map Step.asked)
      (expand ix watch source links p.frontier).after p.trace := by
  rw [expand_cons]
  simp only [Progress.after, ended_follow_watch, Bool.false_eq_true, ↓reduceIte]

/-- A walk that only looks expands all that is queued. -/
theorem drain_cons_watch (ix : Index δ) (links : List LinkKind) (unreached : List δ) (d : δ)
    (queue : List δ) :
    drain ix watch links ⟨unreached, d :: queue, ()⟩ =
      let p := expand ix watch (some d) links ⟨unreached, queue, ()⟩
      (drain ix watch links p.frontier).after p.trace := by
  rw [drain_cons]
  simp only [ended_expand_watch, Bool.false_eq_true, ↓reduceIte]

theorem drain_replays (ix : Index δ) (visit : Visitor σ δ) (links : List LinkKind)
    (f : Frontier σ δ) :
    Replays visit f.memory (drain ix visit links f) (drain ix watch links f.blank) := by
  generalize hg : f.blank = g
  induction g using drain_induct ix watch links generalizing f with
  | done _ _ =>
    obtain ⟨unreached, _, memory⟩ := f
    cases hg
    rw [drain_nil, drain_nil]
    exact ⟨rfl, fun _ => rfl, rfl⟩
  | more _ d queue _ ih =>
    obtain ⟨unreached, _, memory⟩ := f
    cases hg
    rw [drain_cons, drain_cons_watch]
    exact (expand_replays ix visit (some d) links ⟨unreached, queue, memory⟩).andThen
      (ih (ended_expand_watch ..))

/-- A walk whose index may answer differently once the root has been expanded. -/
def walkThen (ix later : Index δ) (links : List LinkKind) (root : Option δ) (visit : Visitor σ δ)
    (memory : σ) : Walk σ δ :=
  let first := expand ix visit root links (.initial ix root memory)
  let p :=
    if first.ended then first else (drain later visit links first.frontier).after first.trace
  p.toWalk

theorem walkThen_self (ix : Index δ) (links : List LinkKind) (root : Option δ)
    (visit : Visitor σ δ) (memory : σ) :
    walkThen ix ix links root visit memory = walk ix links root visit memory := rfl

theorem trace_walkThen_watch (ix later : Index δ) (links : List LinkKind) (root : Option δ) :
    (walkThen ix later links root watch ()).trace =
      let first := expand ix watch root links (.initial ix root ())
      first.trace ++ (drain later watch links first.frontier).trace := by
  simp only [walkThen, ended_expand_watch, Bool.false_eq_true, ↓reduceIte]
  rfl

theorem walkThen_eq_replay (ix later : Index δ) (links : List LinkKind) (root : Option δ)
    (visit : Visitor σ δ) (memory : σ) :
    walkThen ix later links root visit memory =
      replay visit (walkThen ix later links root watch ()).trace memory := by
  have hfirst := expand_replays ix visit root links (.initial ix root memory)
  have hwhole := hfirst.andThen (k := drain later visit links)
    (r := drain later watch links (expand ix watch root links (.initial ix root ())).frontier) (by
      intro f hf
      have hdrain := drain_replays later visit links f
      rw [hf] at hdrain
      exact hdrain)
  rw [trace_walkThen_watch]
  exact hwhole.toWalk

/-- The walk that only looks expands the root and then drains the queue. -/
theorem trace_walk_watch (ix : Index δ) (links : List LinkKind) (root : Option δ) :
    (walk ix links root watch ()).trace =
      let first := expand ix watch root links (.initial ix root ())
      first.trace ++ (drain ix watch links first.frontier).trace :=
  trace_walkThen_watch ix ix links root

theorem walk_eq_replay (ix : Index δ) (links : List LinkKind) (root : Option δ)
    (visit : Visitor σ δ) (memory : σ) :
    walk ix links root visit memory = replay visit (walk ix links root watch ()).trace memory :=
  walkThen_eq_replay ix ix links root visit memory

/-! ## What a walk comes to -/

theorem offer_reachable (ix : Index δ) (links : List LinkKind) (root : Option δ)
    (visit : Visitor σ δ) (memory : σ) :
    offer visit (reachable ix links root) memory =
      ((walk ix links root visit memory).outcome, (walk ix links root visit memory).memory) := by
  rw [walk_eq_replay]
  exact (replay_result visit _ memory).symm

theorem walk_observe (ix : Index δ) (links : List LinkKind) (root : Option δ) (note : σ → δ → σ)
    (memory : σ) :
    walk ix links root (observe note) memory =
      ⟨.proceed, (reachable ix links root).foldl note memory,
        (walk ix links root watch ()).trace⟩ := by
  have hresult := offer_reachable ix links root (observe note) memory
  have htrace := trace_replay_of_proceed (observe note) (walk ix links root watch ()).trace memory
  rw [offer_observe, Prod.mk.injEq] at hresult
  rw [← walk_eq_replay] at htrace
  cases hw : walk ix links root (observe note) memory with
  | mk outcome later trace =>
    simp only [hw] at hresult htrace
    rw [← hresult.1] at htrace ⊢
    rw [htrace rfl, hresult.2]

end ComponentAttrs
