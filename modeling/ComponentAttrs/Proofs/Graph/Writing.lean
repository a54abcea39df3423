import ComponentAttrs.Graph.Basic
import ComponentAttrs.Proofs.Document.Written

/-!
Which graphs can be written. All that a graph shows is plain, but for the lines of its definitions:
these may be any values.

* `Graph.writes_toValue_iff`: in JSON each line is on its own;
* `Graph.exists_sight_toValue_iff`: in YAML an object that occurs in several lines is written once.
-/
namespace ComponentAttrs

open ComponentAttrs.Document

/-! ## Definitions and edges -/

namespace Definition

theorem writes_toValue_iff {l : Json.Layout} {depth : Nat} (hroom : depth < Json.depthLimit)
    (d : Definition) : Json.Writes l depth d.toValue ↔ Json.Writes l (depth + 1) d.line := by
  have hname : Json.Writes l (depth + 1) (.text d.name) := Json.writes_of_plain (.text 0 _) hroom
  have hpath : Json.Writes l (depth + 1) (.optionalText (d.sourcePath.map Files.Path.text)) :=
    Json.writes_of_plain (.optionalText 0 _) hroom
  rw [toValue, Json.writes_record_iff hroom]
  simp only [List.forall_mem_cons, hname, hpath, true_and]
  exact ⟨fun h => h.1, fun h => ⟨h, nofun⟩⟩

variable {depth : Nat} (s : Yaml.Sightings)

theorem sight_toValue (hroom : depth < Yaml.depthLimit) (d : Definition) :
    Yaml.sight depth s d.toValue = Yaml.sight (depth + 1) s d.line := by
  have hname : Yaml.sight (depth + 1) s (.text d.name) = .ok s :=
    Yaml.sight_of_plain (.text 0 _) hroom
  have hpath :
      Yaml.sight (depth + 1) s (.optionalText (d.sourcePath.map Files.Path.text)) = .ok s :=
    Yaml.sight_of_plain (.optionalText 0 _) hroom
  rw [toValue, Yaml.sight_record hroom]
  simp only [List.map_cons, List.map_nil]
  rw [Yaml.sightAll_cons_of_sight hname, Yaml.sightAll_cons_of_sight hpath, Yaml.sightAll_singleton]

theorem sightAll_toValue (hroom : depth < Yaml.depthLimit) (ds : List Definition) :
    Yaml.sightAll depth s (ds.map toValue) = Yaml.sightAll (depth + 1) s (ds.map line) := by
  induction ds generalizing s with
  | nil => rfl
  | cons d rest ih => simp only [List.map_cons, Yaml.sightAll, sight_toValue _ hroom, ih]

end Definition

theorem Edge.plain_toValue {δ : Type} (name : δ → String) (e : Edge δ) :
    Plain 1 (e.toValue name) := by
  refine .record ?_
  simp only [List.forall_mem_cons]
  exact ⟨.optionalText _ _, .text _ _, .text _ _, nofun⟩

namespace Graph

variable {δ : Type} (definition : δ → Definition) (g : Graph δ)

/-! ## Graphs -/

/-- The lines of the definitions, in the order of nodes. -/
def lines : List Value := g.nodes.map fun d => (definition d).line

theorem writes_toValue_iff {l : Json.Layout} :
    Json.Writes l 0 (g.toValue definition) ↔ (∀ line ∈ g.lines definition, Json.Writes l 3 line) ∧
      IsShown (.int g.nodes.length) ∧ IsShown (.int g.edges.length) := by
  have hroot : Json.Writes l 1 (.optionalText (g.root.map fun d => (definition d).name)) :=
    Json.writes_of_plain (.optionalText 0 _) (by decide)
  have hnodes : Json.Writes l 1 (.items (g.nodes.map fun d => (definition d).toValue)) ↔
      ∀ line ∈ g.lines definition, Json.Writes l 3 line := by
    rw [Json.writes_items_iff (by decide), lines, List.forall_mem_map, List.forall_mem_map]
    exact forall₂_congr fun d _ => Definition.writes_toValue_iff (by decide) _
  have hedges : Json.Writes l 1
      (.items (g.edges.map (Edge.toValue fun d => (definition d).name))) :=
    Json.writes_of_plain (.items_map (Edge.plain_toValue _) _ : Plain 2 _) (by decide)
  have hcounts : Json.Writes l 1
      (.record [("node_count", .int g.nodes.length), ("edge_count", .int g.edges.length)]) ↔
        IsShown (.int g.nodes.length) ∧ IsShown (.int g.edges.length) := by
    rw [Json.writes_record_iff (by decide)]
    simp only [List.forall_mem_cons, Json.writes_int_iff]
    exact ⟨fun h => ⟨h.1, h.2.1⟩, fun h => ⟨h.1, h.2, nofun⟩⟩
  rw [toValue, Json.writes_record_iff (by decide)]
  simp only [List.forall_mem_cons, hroot, hnodes, hedges, hcounts, true_and]
  exact ⟨fun h => ⟨h.1, h.2.1⟩, fun h => ⟨h.1, h.2, nofun⟩⟩

theorem exists_sight_counts_iff {s : Yaml.Sightings} {m n : Int} :
    (∃ t, Yaml.sight 2 s (.record [("node_count", .int m), ("edge_count", .int n)]) = .ok t) ↔
      IsShown (.int m) ∧ IsShown (.int n) := by
  have hroom : 3 ≤ Yaml.depthLimit := by decide
  rw [Yaml.sight_record hroom]
  simp only [List.map_cons, List.map_nil, Yaml.sightAll_cons, exists_bind_eq_ok_iff,
    Yaml.exists_sight_int_iff hroom, Yaml.sightAll, Except.ok.injEq, exists_eq', and_true,
    exists_and_right]

/-- What is met in the lines is what the rest of the graph starts from. -/
theorem sight_toValue {s : Yaml.Sightings} :
    Yaml.sight 1 s (g.toValue definition) = (Yaml.sightAll 4 s (g.lines definition) >>= fun t =>
      Yaml.sight 2 t
        (.record [("node_count", .int g.nodes.length), ("edge_count", .int g.edges.length)])) := by
  have hroot : Yaml.sight 2 s (.optionalText (g.root.map fun d => (definition d).name)) = .ok s :=
    Yaml.sight_of_plain (.optionalText 0 _) (by decide)
  have hnodes : Yaml.sight 2 s (.items (g.nodes.map fun d => (definition d).toValue)) =
      Yaml.sightAll 4 s (g.lines definition) := by
    have hdefinitions := Definition.sightAll_toValue s (show 3 < Yaml.depthLimit by decide)
      (g.nodes.map definition)
    rw [List.map_map, List.map_map] at hdefinitions
    exact (Yaml.sight_items (by decide) _).trans hdefinitions
  have hedges : ∀ t, Yaml.sight 2 t
      (.items (g.edges.map (Edge.toValue fun d => (definition d).name))) = .ok t :=
    fun t => Yaml.sight_of_plain (.items_map (Edge.plain_toValue _) _ : Plain 2 _) (by decide)
  rw [toValue, Yaml.sight_record (by decide)]
  simp only [List.map_cons, List.map_nil]
  rw [Yaml.sightAll_cons_of_sight hroot, Yaml.sightAll_cons, hnodes]
  refine congrArg (_ >>= ·) (funext fun t => ?_)
  rw [Yaml.sightAll_cons_of_sight (hedges t), Yaml.sightAll_singleton]

theorem exists_sight_toValue_iff {s : Yaml.Sightings} :
    (∃ t, Yaml.sight 1 s (g.toValue definition) = .ok t) ↔
      (∃ t, Yaml.sightAll 4 s (g.lines definition) = .ok t) ∧
        IsShown (.int g.nodes.length) ∧ IsShown (.int g.edges.length) := by
  simp only [sight_toValue, exists_bind_eq_ok_iff, exists_sight_counts_iff, exists_and_right]

end Graph

end ComponentAttrs
