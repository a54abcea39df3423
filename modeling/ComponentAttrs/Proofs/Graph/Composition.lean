import ComponentAttrs.Graph.Basic
import ComponentAttrs.Proofs.Walk.Course
import ComponentAttrs.Proofs.Walk.Listening
import ComponentAttrs.Proofs.Walk.Reachability

/-!
The graph of a composition. Nodes are taken down by the visitor of a walk and edges by its listener,
at different moments; here both are read off the trace.

* `nodes_build`, `edges_build`, `outgoing_build`: nodes and edges in closed form;
* `exists_referrer_before`: whatever is reached is referred to by something that was reached before;
* `build_partitioned`: the graph is closed and connected, and its edges are divided up by their
  sources.
-/
namespace ComponentAttrs

variable {δ : Type} [DecidableEq δ]

/-! ## What is reached, from what -/

section

variable (ix : Index δ) (links : List LinkKind) (root : Option δ)

theorem entries_initial {m n : Nat} (h : m ≤ n) :
    entries ix links root m <+: entries ix links root n := by
  induction h with
  | refl => exact List.prefix_refl _
  | step _ ih =>
    rw [entries_succ]
    exact ih.trans (List.prefix_append _ _)

/-- In front of every visit stands an entry that refers to what is visited. -/
theorem exists_referrer_before {before after : List (Option δ)} {d : δ}
    (h : root :: (reachable ix links root).map some = before ++ some d :: after)
    (hd : some d ≠ root) : ∃ c ∈ before, d ∈ ix.targets links c := by
  rw [root_cons_reachable_eq_entries ix links root (Nat.le_refl _)] at h
  have hmem : some d ∈ entries ix links root (reachable ix links root).length := by simp [h]
  obtain ⟨n, hn, hlayer⟩ := mem_layer_of_mem_entries ix links root hmem
  cases n with
  | zero => exact absurd (List.mem_singleton.mp hlayer) hd
  | succ n =>
    obtain ⟨hnew, c, hc, d', hd', heq⟩ := (mem_layer_succ ix links root).mp hlayer
    cases heq
    -- the layers up to that of the referrer come before the definition, which is in none of them
    have hfirst : entries ix links root n <+: before ++ [some d] ∨
        before ++ [some d] <+: entries ix links root n := by
      apply List.prefix_or_prefix_of_prefix (entries_initial ix links root (Nat.le_of_succ_le hn))
      rw [h]
      exact ⟨after, by simp⟩
    have hbefore : entries ix links root n <+: before := by
      rcases hfirst with hfirst | hfirst
      · rcases List.prefix_concat_iff.mp hfirst with heq | hfirst
        · exact absurd (by simp [heq]) hnew
        · exact hfirst
      · exact absurd (hfirst.subset (by simp)) hnew
    exact ⟨c, hbefore.subset (mem_entries_of_reachedBy ix links root
      (reachedBy_of_mem_layer ix links root hc)), hd'⟩

end

namespace Graph

/-! ## What a trace records -/

theorem edges_record (g : Graph δ) (step : Step δ) :
    (g.record step).edges = g.edges ++ step.edge?.toList := by
  cases step with
  | crossed e => rfl
  | visited d =>
    simp only [record, addNode, Step.edge?, Option.toList_none, List.append_nil]
    split <;> rfl
  | _ => simp [record, Step.edge?]

theorem edges_foldl_record (trace : List (Step δ)) (g : Graph δ) :
    (trace.foldl record g).edges = g.edges ++ edgesOf trace := by
  induction trace generalizing g with
  | nil => simp [edgesOf]
  | cons step trace ih =>
    rw [List.foldl_cons, ih, edges_record, edgesOf_cons, List.append_assoc]

theorem nodes_record (g : Graph δ) (step : Step δ) (h : ∀ d ∈ step.visit?, d ∉ g.nodes) :
    (g.record step).nodes = g.nodes ++ step.visit?.toList := by
  cases step with
  | visited d =>
    have hnew : d ∉ g.nodes := h d rfl
    simp [record, addNode, hnew, Step.visit?]
  | _ => simp [record, addEdge, Step.visit?]

/-- Visits add nodes as long as none of them is there already. -/
theorem nodes_foldl_record (trace : List (Step δ)) (g : Graph δ)
    (h : (g.nodes ++ visitsOf trace).Nodup) :
    (trace.foldl record g).nodes = g.nodes ++ visitsOf trace := by
  induction trace generalizing g with
  | nil => simp [visitsOf]
  | cons step trace ih =>
    rw [visitsOf_cons] at h ⊢
    have hnew : ∀ d ∈ step.visit?, d ∉ g.nodes := by
      intro d hd hmem
      have hlater : d ∈ step.visit?.toList ++ visitsOf trace :=
        List.mem_append_left _ (Option.mem_toList.mpr hd)
      exact (List.nodup_append.mp h).2.2 d hmem d hlater rfl
    rw [← List.append_assoc, ← nodes_record g step hnew] at h ⊢
    exact ih _ h

section

variable (ix : Index δ) (links : List LinkKind) (root : Option δ)

theorem nodes_build : (build ix links root).nodes = root.toList ++ reachable ix links root :=
  nodes_foldl_record _ (start root) (nodup_root_append_reachable ix links root)

theorem edges_build :
    (build ix links root).edges =
      (root :: (reachable ix links root).map some).flatMap (ix.edges links) := by
  rw [← edgesOf_walk]
  exact edges_foldl_record _ (start root)

/-- A visitor that adds nodes and a listener that adds edges make the same graph. -/
theorem build_eq_listening :
    build ix links root =
      (Listening.walk ix links root (observe addNode) (some addEdge) (start root)).memory := by
  have hrecord : Listening.recollect addNode (some addEdge) = record (δ := δ) := by
    funext g step
    cases step <;> rfl
  rw [Listening.walk_observe, hrecord]
  rfl

/-! ## Edges by their sources -/

section

variable {α β : Type} [DecidableEq α] (mark : β → α)

omit [DecidableEq δ] in
/-- What bears one mark is kept as a whole or not at all. -/
theorem filter_mark_eq {bs : List β} {c : α} (h : ∀ b ∈ bs, mark b = c) (a : α) :
    bs.filter (mark · = a) = if c = a then bs else [] := by
  by_cases hc : c = a
  · rw [if_pos hc, List.filter_eq_self]
    intro b hb
    exact decide_eq_true ((h b hb).trans hc)
  · rw [if_neg hc, List.filter_eq_nil_iff]
    intro b hb hmark
    exact hc ((h b hb).symm.trans (of_decide_eq_true hmark))

omit [DecidableEq δ] in
/-- Of a list that is put together from parts with marks of their own, each part is what bears its
mark. -/
theorem filter_flatMap_of_nodup {part : α → List β} {as : List α}
    (h : ∀ a ∈ as, ∀ b ∈ part a, mark b = a) (hnodup : as.Nodup) {a : α} (ha : a ∈ as) :
    (as.flatMap part).filter (mark · = a) = part a := by
  induction as with
  | nil => cases ha
  | cons c as ih =>
    have hrest : ∀ d ∈ as, ∀ b ∈ part d, mark b = d := fun d hd => h d (List.mem_cons_of_mem _ hd)
    obtain ⟨hc, hnodup⟩ := List.nodup_cons.mp hnodup
    rw [List.flatMap_cons, List.filter_append, filter_mark_eq mark (h c (List.mem_cons_self ..))]
    rcases List.mem_cons.mp ha with rfl | ha
    · have hnone : (as.flatMap part).filter (mark · = a) = [] := by
        rw [List.filter_eq_nil_iff]
        intro b hb hmark
        obtain ⟨d, hd, hb⟩ := List.mem_flatMap.mp hb
        have heq : a = d := (of_decide_eq_true hmark).symm.trans (hrest d hd b hb)
        exact hc (heq ▸ hd)
      rw [if_pos rfl, hnone, List.append_nil]
    · have hne : c ≠ a := by
        rintro rfl
        exact hc ha
      rw [if_neg hne, List.nil_append, ih hrest hnodup ha]

end

/-- An entry that is expanded has just the edges of its expansion. -/
theorem outgoing_build {c : Option δ} (hc : c ∈ root :: (reachable ix links root).map some) :
    (build ix links root).outgoing c = ix.edges links c := by
  rw [outgoing, edges_build]
  exact filter_flatMap_of_nodup Edge.source
    (fun _ _ _ he => Index.source_of_mem_edges he) (nodup_root_cons_reachable ix links root) hc

theorem mem_edges_build_iff {e : Edge δ} :
    e ∈ (build ix links root).edges ↔
      e.source ∈ root :: (reachable ix links root).map some ∧ e ∈ ix.edges links e.source := by
  rw [edges_build, List.mem_flatMap]
  constructor
  · rintro ⟨c, hc, he⟩
    rw [Index.source_of_mem_edges he]
    exact ⟨hc, he⟩
  · rintro ⟨hc, he⟩
    exact ⟨e.source, hc, he⟩

/-- Entries are the nodes and, if there is no root, the absent root in front of them. -/
theorem root_cons_reachable_eq_nodes :
    root :: (reachable ix links root).map some =
      (if root.isNone then [none] else []) ++ (build ix links root).nodes.map some := by
  rw [nodes_build]
  cases root <;> rfl

/-- An edge may start in a node, or in the absent root. -/
def StartsIn (root : Option δ) (nodes : List δ) : Option δ → Prop
  | some c => c ∈ nodes
  | none => root = none

omit [DecidableEq δ] in
theorem startsIn_iff {nodes : List δ} {c : Option δ} :
    StartsIn root nodes c ↔ c ∈ (if root.isNone then [none] else []) ++ nodes.map some := by
  cases c with
  | none => cases root <;> simp [StartsIn]
  | some c => cases root <;> simp [StartsIn]

/-- **Closed, connected and partitioned.** The nodes are the root and what is reachable from it, each
once. Every edge leads from a node, or from the absent root, to a node. Every node but the root is
the target of an edge from an earlier node or from the absent root. The edges are those that leave
the root entry, then those that leave each other node, in the order of nodes. -/
theorem build_partitioned (ix : Index δ) (links : List LinkKind) (root : Option δ) :
    let g := build ix links root
    g = (Listening.walk ix links root (observe addNode) (some addEdge) (start root)).memory ∧
    (g.nodes = root.toList ++ reachable ix links root ∧ g.nodes.Nodup) ∧
    (∀ e ∈ g.edges, e.target ∈ g.nodes ∧ StartsIn root g.nodes e.source) ∧
    (∀ before d after, g.nodes = before ++ d :: after → some d ≠ root →
      ∃ e ∈ g.edges, e.target = d ∧ StartsIn root before e.source) ∧
    g.outgoing root ++ (reachable ix links root).flatMap (fun d => g.outgoing (some d)) =
      g.edges := by
  intro g
  have hnodes : g.nodes = root.toList ++ reachable ix links root := nodes_build ix links root
  have hentries := root_cons_reachable_eq_nodes ix links root
  refine ⟨build_eq_listening ix links root, ⟨hnodes, ?_⟩, ?_, ?_, ?_⟩
  · rw [hnodes]
    exact nodup_root_append_reachable ix links root
  · intro e he
    obtain ⟨hsource, he⟩ := (mem_edges_build_iff ix links root).mp he
    refine ⟨?_, (startsIn_iff root).mpr (hentries ▸ hsource)⟩
    have htarget : e.target ∈ ix.targets links e.source := by
      rw [← Index.map_target_edges]
      exact List.mem_map_of_mem he
    obtain ⟨n, hn⟩ := (mem_root_cons_reachable ix links root).mp hsource
    have hreached := (mem_root_cons_reachable ix links root).mpr ⟨n + 1, .onward hn htarget⟩
    rw [hentries, ← startsIn_iff] at hreached
    exact hreached
  · intro before d after hsplit hd
    have horder : root :: (reachable ix links root).map some =
        ((if root.isNone then [none] else []) ++ before.map some) ++ some d :: after.map some := by
      rw [hentries, show (build ix links root).nodes = _ from hsplit]
      simp
    obtain ⟨c, hc, hd⟩ := exists_referrer_before ix links root horder hd
    rw [← Index.map_target_edges] at hd
    obtain ⟨e, he, rfl⟩ := List.mem_map.mp hd
    have hsource := Index.source_of_mem_edges he
    refine ⟨e, (mem_edges_build_iff ix links root).mpr ⟨?_, hsource ▸ he⟩, rfl, ?_⟩
    · rw [hsource, horder]
      exact List.mem_append_left _ hc
    · rw [hsource]
      exact (startsIn_iff root).mpr hc
  · have heach : ∀ d ∈ reachable ix links root, g.outgoing (some d) = ix.edges links (some d) :=
      fun d hd => outgoing_build ix links root (by simp [hd])
    rw [show g.outgoing root = _ from outgoing_build ix links root (List.mem_cons_self ..),
      show g.edges = _ from edges_build ix links root, List.flatMap_cons, List.flatMap_map,
      List.flatMap_def, List.map_congr_left heach, ← List.flatMap_def]

end

end Graph

end ComponentAttrs
