import ComponentAttrs.Graph.Basic
import ComponentAttrs.Proofs.Walk.Expansion

/-!
Graphs that are put together from outside, by any additions in any order. Definitions are told apart
by identity, so two of one name are two nodes; the ends of an edge need not be nodes.

* `nodes_addAll`, `edges_addAll`: nodes and edges in closed form;
* `flatMap_outgoing_perm`: every edge leaves just one source;
* `additions_kept_apart`: what a graph holds after any additions, and what it shows.
-/
namespace ComponentAttrs

variable {δ : Type}

inductive Addition (δ : Type) where
  | node (d : δ)
  | edge (e : Edge δ)

namespace Addition

def node? : Addition δ → Option δ
  | .node d => some d
  | .edge _ => none

def edge? : Addition δ → Option (Edge δ)
  | .node _ => none
  | .edge e => some e

end Addition

namespace Graph

variable [DecidableEq δ]

def add (g : Graph δ) : Addition δ → Graph δ
  | .node d => g.addNode d
  | .edge e => g.addEdge e

def addAll (g : Graph δ) (additions : List (Addition δ)) : Graph δ := additions.foldl add g

/-! ## One addition -/

@[simp] theorem root_addNode (g : Graph δ) (d : δ) : (g.addNode d).root = g.root := by
  unfold addNode
  split <;> rfl

@[simp] theorem edges_addNode (g : Graph δ) (d : δ) : (g.addNode d).edges = g.edges := by
  unfold addNode
  split <;> rfl

theorem nodes_addNode (g : Graph δ) (d : δ) :
    (g.addNode d).nodes = if d ∈ g.nodes then g.nodes else g.nodes ++ [d] := by
  unfold addNode
  split <;> rfl

theorem nodup_nodes_addNode {g : Graph δ} (h : g.nodes.Nodup) (d : δ) :
    (g.addNode d).nodes.Nodup := by
  rw [nodes_addNode]
  split
  case isTrue => exact h
  case isFalse hnew => exact List.nodup_append.mpr ⟨h, by simp, by grind⟩

theorem root_add (g : Graph δ) (a : Addition δ) : (g.add a).root = g.root := by
  cases a with
  | node d => exact root_addNode g d
  | edge e => rfl

theorem edges_add (g : Graph δ) (a : Addition δ) :
    (g.add a).edges = g.edges ++ a.edge?.toList := by
  cases a with
  | node d => simp [add, Addition.edge?]
  | edge e => rfl

theorem nodup_nodes_add {g : Graph δ} (h : g.nodes.Nodup) (a : Addition δ) :
    (g.add a).nodes.Nodup := by
  cases a with
  | node d => exact nodup_nodes_addNode h d
  | edge e => exact h

/-- Whatever is listed later, an addition takes its place in front of it. -/
theorem eraseDups_nodes_add (g : Graph δ) (a : Addition δ) (later : List δ) :
    ((g.add a).nodes ++ later).eraseDups = (g.nodes ++ (a.node?.toList ++ later)).eraseDups := by
  cases a with
  | edge e => rfl
  | node d =>
    show ((g.addNode d).nodes ++ later).eraseDups = (g.nodes ++ ([d] ++ later)).eraseDups
    rw [nodes_addNode]
    split
    case isTrue h =>
      have hremoved : ([d] ++ later).removeAll g.nodes = later.removeAll g.nodes := by
        simp [List.removeAll, h]
      rw [List.eraseDups_append, List.eraseDups_append, hremoved]
    case isFalse => rw [List.append_assoc]

/-! ## Many additions -/

theorem eraseDups_eq_self {ds : List δ} (h : ds.Nodup) : ds.eraseDups = ds := by
  induction ds with
  | nil => rfl
  | cons d ds ih =>
    obtain ⟨hd, hds⟩ := List.nodup_cons.mp h
    have hkept : ds.filter (fun e => !e == d) = ds := by
      rw [List.filter_eq_self]
      intro e he
      have hne : e ≠ d := by
        rintro rfl
        exact hd he
      simpa using hne
    rw [List.eraseDups_cons, hkept, ih hds]

theorem root_addAll (g : Graph δ) (additions : List (Addition δ)) :
    (g.addAll additions).root = g.root := by
  induction additions generalizing g with
  | nil => rfl
  | cons a rest ih => exact (ih (g.add a)).trans (root_add g a)

theorem edges_addAll (g : Graph δ) (additions : List (Addition δ)) :
    (g.addAll additions).edges = g.edges ++ additions.filterMap Addition.edge? := by
  induction additions generalizing g with
  | nil => simp [addAll]
  | cons a rest ih =>
    have hrest : (g.addAll (a :: rest)).edges = ((g.add a).addAll rest).edges := rfl
    rw [hrest, ih, edges_add, List.append_assoc]
    cases a <;> rfl

theorem nodes_addAll {g : Graph δ} (h : g.nodes.Nodup) (additions : List (Addition δ)) :
    (g.addAll additions).nodes = (g.nodes ++ additions.filterMap Addition.node?).eraseDups := by
  induction additions generalizing g with
  | nil =>
    rw [List.filterMap_nil, List.append_nil]
    exact (eraseDups_eq_self h).symm
  | cons a rest ih =>
    have hrest : (g.addAll (a :: rest)).nodes = ((g.add a).addAll rest).nodes := rfl
    rw [hrest, ih (nodup_nodes_add h a), eraseDups_nodes_add]
    cases a <;> rfl

/-! ## Edges by their sources -/

/-- A list is divided up by the marks of its members. -/
theorem flatMap_filter_mark_perm {α β : Type} [DecidableEq α] (mark : β → α) {marks : List α}
    (hnodup : marks.Nodup) (bs : List β) :
    (marks.flatMap fun a => bs.filter (mark · = a)).Perm (bs.filter (mark · ∈ marks)) := by
  induction marks with
  | nil => simp
  | cons a marks ih =>
    obtain ⟨ha, hnodup⟩ := List.nodup_cons.mp hnodup
    have hfirst : (bs.filter (mark · ∈ a :: marks)).filter (mark · = a) = bs.filter (mark · = a) := by
      rw [List.filter_filter]
      apply List.filter_congr
      intro b _
      by_cases hb : mark b = a <;> simp [hb]
    have hothers : (bs.filter (mark · ∈ a :: marks)).filter (fun b => !decide (mark b = a)) =
        bs.filter (mark · ∈ marks) := by
      rw [List.filter_filter]
      apply List.filter_congr
      intro b _
      by_cases hb : mark b = a
      · simp [hb, ha]
      · simp [hb]
    have hsplit := List.filter_append_perm (mark · = a) (bs.filter (mark · ∈ a :: marks))
    rw [hfirst, hothers] at hsplit
    rw [List.flatMap_cons]
    exact ((ih hnodup).append_left _).trans hsplit

/-- Every edge leaves just one source. -/
theorem flatMap_outgoing_perm (g : Graph δ) :
    ((g.edges.map Edge.source).eraseDups.flatMap g.outgoing).Perm g.edges := by
  have hdivided := flatMap_filter_mark_perm Edge.source
    (nodup_eraseDups (g.edges.map Edge.source)) g.edges
  refine hdivided.trans (.of_eq ?_)
  rw [List.filter_eq_self]
  intro e he
  simpa using ⟨e, he, rfl⟩

/-- **Kept apart by identity, shown by name.** After any additions the nodes are the root and the
definitions added, each at its first place, and the edges are all edges added, in order. An edge adds
no node and a node no edge. The edges that leave a definition, or the absent root, are those with
just that source, and over all sources these are all edges, each as often as it was added. What is
shown lists nodes and edges in these orders, with their numbers. -/
theorem additions_kept_apart (definition : δ → Definition) (root : Option δ)
    (additions : List (Addition δ)) :
    let g := (start root).addAll additions
    let nodes := (root.toList ++ additions.filterMap Addition.node?).eraseDups
    let edges := additions.filterMap Addition.edge?
    let name (d : δ) : String := (definition d).name
    (g.root = root ∧ g.nodes = nodes ∧ nodes.Nodup ∧ g.edges = edges) ∧
    (∀ d, (g.addNode d).edges = g.edges) ∧ (∀ e, (g.addEdge e).nodes = g.nodes) ∧
    (∀ c, g.outgoing c = edges.filter (·.source = c)) ∧
    ((edges.map Edge.source).eraseDups.flatMap g.outgoing).Perm edges ∧
    g.toValue definition =
      .record [("root", .optionalText (root.map name)),
        ("nodes", .items (nodes.map fun d => (definition d).toValue)),
        ("edges", .items (edges.map (Edge.toValue name))),
        ("metadata", .record [("node_count", .int nodes.length),
          ("edge_count", .int edges.length)])] := by
  intro g nodes edges name
  have hroot : g.root = root := root_addAll (start root) additions
  have hstart : (start root).nodes.Nodup := by cases root <;> simp [start]
  have hnodes : g.nodes = nodes := nodes_addAll hstart additions
  have hedges : g.edges = edges := edges_addAll (start root) additions
  refine ⟨⟨hroot, hnodes, nodup_eraseDups _, hedges⟩, edges_addNode g, fun _ => rfl, ?_, ?_, ?_⟩
  · intro c
    rw [outgoing, hedges]
  · rw [← hedges]
    exact flatMap_outgoing_perm g
  · rw [toValue, hroot, hnodes, hedges]

end Graph

end ComponentAttrs
