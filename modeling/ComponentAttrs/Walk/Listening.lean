import ComponentAttrs.Walk.Steps

/-!
Breadth-first walk along links. The root is expanded and never visited; every other definition is
visited when it is first reached and expanded once, in the order of visits. The visitor may end the
walk. A listener is told of every edge, also of one to a definition that was reached before, in
front of a visit to its target. Visitor and listener share one memory. Where nobody listens no edge
is made, so that the trace has none.
-/
namespace ComponentAttrs.Listening

abbrev Listener (σ δ : Type) := σ → Edge δ → σ

variable {σ δ : Type}

/-- What is remembered once an edge has been passed. -/
def hear (listener : Option (Listener σ δ)) (memory : σ) (e : Edge δ) : σ :=
  match listener with
  | none => memory
  | some listen => listen memory e

/-- The step that an edge is, if somebody listens. -/
def crossing (listener : Option (Listener σ δ)) (e : Edge δ) : List (Step δ) :=
  listener.toList.map fun _ => .crossed e

variable [DecidableEq δ]

/-- Follows the references of one row in order. -/
def follow (ix : Index δ) (visit : Visitor σ δ) (listener : Option (Listener σ δ))
    (source : Option δ) (kind : LinkKind) :
    List (Reference δ) → Frontier σ δ → Progress σ δ
  | [], f => ⟨f, [], false⟩
  | r :: rest, f =>
    match ix.find r with
    | none =>
      (follow ix visit listener source kind rest f).after [.asked (.find r), .skipped kind r.name]
    | some d =>
      let e : Edge δ := ⟨source, kind, d⟩
      let steps := .asked (.find r) :: crossing listener e
      let heard := hear listener f.memory e
      if d ∈ f.unreached then
        match visit heard d with
        | (.proceed, memory) =>
          (follow ix visit listener source kind rest (f.reach d memory)).after
            (steps ++ [.visited d])
        | (.stop, memory) => ⟨f.reach d memory, steps ++ [.visited d, .stopped d], true⟩
      else (follow ix visit listener source kind rest { f with memory := heard }).after steps

/-- Follows one link after the other. -/
def expand (ix : Index δ) (visit : Visitor σ δ) (listener : Option (Listener σ δ))
    (source : Option δ) : List LinkKind → Frontier σ δ → Progress σ δ
  | [], f => ⟨f, [], false⟩
  | kind :: links, f =>
    let asked := (rowQuery kind source).toList.map Step.asked
    let p := (follow ix visit listener source kind (ix.row kind source) f).after asked
    if p.ended then p else (expand ix visit listener source links p.frontier).after p.trace

/-! ## Termination -/

theorem size_follow_le (ix : Index δ) (visit : Visitor σ δ) (listener : Option (Listener σ δ))
    (source : Option δ) (kind : LinkKind) (refs : List (Reference δ)) (f : Frontier σ δ) :
    (follow ix visit listener source kind refs f).frontier.size ≤ f.size := by
  induction refs generalizing f with
  | nil => simp [follow]
  | cons r rest ih =>
    unfold follow
    split
    · exact ih f
    · dsimp only
      split
      · next h =>
        split
        · exact Nat.le_trans (ih _) (f.size_reach h _)
        · exact f.size_reach h _
      · exact ih { f with memory := _ }

theorem size_expand_le (ix : Index δ) (visit : Visitor σ δ) (listener : Option (Listener σ δ))
    (source : Option δ) (links : List LinkKind) (f : Frontier σ δ) :
    (expand ix visit listener source links f).frontier.size ≤ f.size := by
  induction links generalizing f with
  | nil => simp [expand]
  | cons kind links ih =>
    have hrow := size_follow_le ix visit listener source kind (ix.row kind source) f
    unfold expand
    simp only
    split
    · exact hrow
    · exact Nat.le_trans (ih _) hrow

/-- Expands what is queued, in order, until the queue is empty or the visitor ends the walk. -/
def drain (ix : Index δ) (visit : Visitor σ δ) (listener : Option (Listener σ δ))
    (links : List LinkKind) (f : Frontier σ δ) : Progress σ δ :=
  match _queued : f.queue with
  | [] => ⟨f, [], false⟩
  | d :: rest =>
    let p := expand ix visit listener (some d) links { f with queue := rest }
    if p.ended then p else (drain ix visit listener links p.frontier).after p.trace
termination_by f.size
decreasing_by
  have := size_expand_le ix visit listener (some d) links { f with queue := rest }
  simp only [Frontier.size, _queued, List.length_cons] at this ⊢
  omega

/-! ## Whole walks -/

def walk (ix : Index δ) (links : List LinkKind) (root : Option δ) (visit : Visitor σ δ)
    (listener : Option (Listener σ δ)) (memory : σ) : Walk σ δ :=
  let first := expand ix visit listener root links (.initial ix root memory)
  let p :=
    if first.ended then first else (drain ix visit listener links first.frontier).after first.trace
  ⟨if p.ended then .stop else .proceed, p.frontier.memory, p.trace⟩

end ComponentAttrs.Listening
