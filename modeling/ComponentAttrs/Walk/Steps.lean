import ComponentAttrs.Walk.Index
import ComponentAttrs.Report.Log

/-!
What happens on a walk along links, and what it has still to do. All that happens is kept as a
trace.
-/
namespace ComponentAttrs

/-- What a visitor answers. -/
inductive Outcome where
  | proceed
  | stop
deriving DecidableEq

def Outcome.name : Outcome → String
  | .proceed => "continue"
  | .stop => "stop"

inductive Query (δ : Type) where
  | localMixins (d : δ)
  | globalMixins
  | extensions (d : δ)
  | find (r : Reference δ)
deriving DecidableEq

/-- One event of a walk. -/
inductive Step (δ : Type) where
  | asked (q : Query δ)
  /-- A reference that stands for nothing. -/
  | skipped (kind : LinkKind) (name : String)
  /-- An edge, also to a definition that was reached before. -/
  | crossed (e : Edge δ)
  | visited (d : δ)
  | stopped (d : δ)
deriving DecidableEq

/-- A visitor remembers what it has been given. -/
abbrev Visitor (σ δ : Type) := σ → δ → Outcome × σ

/-- Gives a visitor one thing after the other until it wants no more. -/
def offer {σ α : Type} (visit : Visitor σ α) : List α → σ → Outcome × σ
  | [], memory => (.proceed, memory)
  | a :: rest, memory =>
    match visit memory a with
    | (.stop, memory) => (.stop, memory)
    | (.proceed, memory) => offer visit rest memory

/-- What a walk has still to do. -/
structure Frontier (σ δ : Type) where
  unreached : List δ
  queue : List δ
  memory : σ

/-- Part of a walk: where it leads, what happened, and whether the visitor ended it. -/
structure Progress (σ δ : Type) where
  frontier : Frontier σ δ
  trace : List (Step δ)
  ended : Bool

def Progress.after {σ δ : Type} (steps : List (Step δ)) (p : Progress σ δ) : Progress σ δ :=
  { p with trace := steps ++ p.trace }

structure Walk (σ δ : Type) where
  outcome : Outcome
  memory : σ
  trace : List (Step δ)

section

variable {σ δ : Type} [DecidableEq δ]

/-- The query that a row is read by; nothing is asked for an absent root's own rows. -/
def rowQuery : LinkKind → Option δ → Option (Query δ)
  | .localMixin, some d => some (.localMixins d)
  | .globalMixin, _ => some .globalMixins
  | .extension, some d => some (.extensions d)
  | _, none => none

/-- Before anything is expanded every definition but the root is unreached. -/
def Frontier.initial (ix : Index δ) (root : Option δ) (memory : σ) : Frontier σ δ :=
  ⟨ix.definitions.filter (some · ≠ root), [], memory⟩

/-- Takes a definition off the unreached ones and puts it at the end of the queue. -/
def Frontier.reach (f : Frontier σ δ) (d : δ) (memory : σ) : Frontier σ δ :=
  ⟨f.unreached.filter (· ≠ d), f.queue ++ [d], memory⟩

/-- Definitions that still have to be expanded, now or after being reached. -/
def Frontier.size (f : Frontier σ δ) : Nat := f.unreached.length + f.queue.length

theorem Frontier.size_reach (f : Frontier σ δ) {d : δ} (h : d ∈ f.unreached) (memory : σ) :
    (f.reach d memory).size ≤ f.size := by
  have : (f.unreached.filter (· ≠ d)).length < f.unreached.length :=
    List.length_filter_lt_length_iff_exists.mpr ⟨d, h, by simp⟩
  simp only [Frontier.size, Frontier.reach, List.length_append, List.length_singleton]
  omega

end

/-! ## Views of a trace -/

section

variable {δ : Type}

def Step.query? : Step δ → Option (Query δ)
  | .asked q => some q
  | _ => none

def Step.edge? : Step δ → Option (Edge δ)
  | .crossed e => some e
  | _ => none

def Step.visit? : Step δ → Option δ
  | .visited d => some d
  | _ => none

def Step.log? (name : δ → String) : Step δ → Option LogRecord
  | .skipped kind reference =>
    some ⟨.debug, .walk,
      "Skipping stale " ++ kind.name ++ " reference " ++ Text.quoted reference⟩
  | .stopped d => some ⟨.debug, .walk, "Traversal stopped at " ++ name d⟩
  | _ => none

def queriesOf (trace : List (Step δ)) : List (Query δ) := trace.filterMap Step.query?

def edgesOf (trace : List (Step δ)) : List (Edge δ) := trace.filterMap Step.edge?

def visitsOf (trace : List (Step δ)) : List δ := trace.filterMap Step.visit?

def logOf (name : δ → String) (trace : List (Step δ)) : List LogRecord :=
  trace.filterMap (Step.log? name)

end

end ComponentAttrs
