import ComponentAttrs.Walk.Listening

/-!
A walk as its visitor sees it: the walk with a listener that forgets what it hears. Edges are there,
for who looks at the trace.
-/
namespace ComponentAttrs

section

variable {σ δ : Type}

/-- A listener that forgets what it hears. -/
def unheeded : Listening.Listener σ δ := fun memory _ => memory

variable [DecidableEq δ]

/-- Follows the references of one row in order. -/
def follow (ix : Index δ) (visit : Visitor σ δ) (source : Option δ) (kind : LinkKind) :
    List (Reference δ) → Frontier σ δ → Progress σ δ :=
  Listening.follow ix visit (some unheeded) source kind

/-- Follows one link after the other. -/
def expand (ix : Index δ) (visit : Visitor σ δ) (source : Option δ) :
    List LinkKind → Frontier σ δ → Progress σ δ :=
  Listening.expand ix visit (some unheeded) source

/-- Expands what is queued, in order, until the queue is empty or the visitor ends the walk. -/
def drain (ix : Index δ) (visit : Visitor σ δ) (links : List LinkKind) :
    Frontier σ δ → Progress σ δ :=
  Listening.drain ix visit (some unheeded) links

def walk (ix : Index δ) (links : List LinkKind) (root : Option δ) (visit : Visitor σ δ)
    (memory : σ) : Walk σ δ :=
  Listening.walk ix links root visit (some unheeded) memory

/-- A visitor that only looks. -/
def watch : Visitor Unit δ := fun memory _ => (.proceed, memory)

/-- All definitions reached from a root, in the order of visits. -/
def reachable (ix : Index δ) (links : List LinkKind) (root : Option δ) : List δ :=
  visitsOf (walk ix links root watch ()).trace

/-! ## Step by step -/

theorem follow_cons (ix : Index δ) (visit : Visitor σ δ) (source : Option δ) (kind : LinkKind)
    (r : Reference δ) (rest : List (Reference δ)) (f : Frontier σ δ) :
    follow ix visit source kind (r :: rest) f =
      match ix.find r with
      | none =>
        (follow ix visit source kind rest f).after [.asked (.find r), .skipped kind r.name]
      | some d =>
        let edge := Step.crossed ⟨source, kind, d⟩
        if d ∈ f.unreached then
          match visit f.memory d with
          | (.proceed, memory) =>
            (follow ix visit source kind rest (f.reach d memory)).after
              [.asked (.find r), edge, .visited d]
          | (.stop, memory) =>
            ⟨f.reach d memory, [.asked (.find r), edge, .visited d, .stopped d], true⟩
        else (follow ix visit source kind rest f).after [.asked (.find r), edge] := rfl

theorem expand_cons (ix : Index δ) (visit : Visitor σ δ) (source : Option δ) (kind : LinkKind)
    (links : List LinkKind) (f : Frontier σ δ) :
    expand ix visit source (kind :: links) f =
      let p := (follow ix visit source kind (ix.row kind source) f).after
        ((rowQuery kind source).toList.map Step.asked)
      if p.ended then p else (expand ix visit source links p.frontier).after p.trace := rfl

theorem drain_nil (ix : Index δ) (visit : Visitor σ δ) (links : List LinkKind) (unreached : List δ)
    (memory : σ) :
    drain ix visit links ⟨unreached, [], memory⟩ = ⟨⟨unreached, [], memory⟩, [], false⟩ := by
  rw [drain, Listening.drain]

theorem drain_cons (ix : Index δ) (visit : Visitor σ δ) (links : List LinkKind) (unreached : List δ)
    (d : δ) (queue : List δ) (memory : σ) :
    drain ix visit links ⟨unreached, d :: queue, memory⟩ =
      let p := expand ix visit (some d) links ⟨unreached, queue, memory⟩
      if p.ended then p else (drain ix visit links p.frontier).after p.trace := by
  rw [drain, Listening.drain]
  rfl

/-- Induction along a queue, as long as the walk is not ended. -/
theorem drain_induct (ix : Index δ) (visit : Visitor σ δ) (links : List LinkKind)
    {motive : Frontier σ δ → Prop} (done : ∀ unreached memory, motive ⟨unreached, [], memory⟩)
    (more : ∀ unreached d queue memory,
      ((expand ix visit (some d) links ⟨unreached, queue, memory⟩).ended = false →
        motive (expand ix visit (some d) links ⟨unreached, queue, memory⟩).frontier) →
      motive ⟨unreached, d :: queue, memory⟩)
    (f : Frontier σ δ) : motive f := by
  induction f using Listening.drain.induct ix visit (some unheeded) links with
  | case1 f hq =>
    obtain ⟨unreached, queue, memory⟩ := f
    obtain rfl : queue = [] := hq
    exact done unreached memory
  | case2 f d rest hq p hp =>
    obtain ⟨unreached, queue, memory⟩ := f
    obtain rfl : queue = d :: rest := hq
    refine more unreached d rest memory fun hgoes => ?_
    cases hgoes.symm.trans hp
  | case3 f d rest hq p hp ih =>
    obtain ⟨unreached, queue, memory⟩ := f
    obtain rfl : queue = d :: rest := hq
    exact more unreached d rest memory fun _ => ih

end

end ComponentAttrs
