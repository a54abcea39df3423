import ComponentAttrs.Graph.Json
import ComponentAttrs.Proofs.Command.Errors
import ComponentAttrs.Proofs.Document.Forms

/-!
The command that shows a graph, and the export of that graph. Both write the same value, the
command strictly and the export leniently, so they differ in the lines of definitions that have no
JSON form.

* `hasForm_toValue_iff`: all else in a graph has a form;
* `graph_prints_export_iff`: when the command prints the export.
-/
namespace ComponentAttrs

open ComponentAttrs.Document

/-! ## Graphs -/

theorem Definition.hasForm_toValue_iff (d : Definition) :
    Json.HasForm d.toValue ↔ Json.HasForm d.line := by
  have hname : Json.HasForm (.text d.name) := .text _
  have hpath : Json.HasForm (.optionalText (d.sourcePath.map Files.Path.text)) :=
    Json.hasForm_of_plain (.optionalText 0 _)
  rw [toValue, Json.hasForm_record_iff]
  simp only [List.forall_mem_cons, hname, hpath, true_and]
  exact and_iff_left (List.forall_mem_nil _)

namespace Graph

variable {δ : Type} (definition : δ → Definition) (g : Graph δ)

theorem hasForm_toValue_iff :
    Json.HasForm (g.toValue definition) ↔ ∀ line ∈ g.lines definition, Json.HasForm line := by
  have hroot : Json.HasForm (.optionalText (g.root.map fun d => (definition d).name)) :=
    Json.hasForm_of_plain (.optionalText 0 _)
  have hnodes : Json.HasForm (.items (g.nodes.map fun d => (definition d).toValue)) ↔
      ∀ line ∈ g.lines definition, Json.HasForm line := by
    rw [Value.items, Json.hasForm_list_iff, lines, List.forall_mem_map, List.forall_mem_map]
    exact forall₂_congr fun d _ => Definition.hasForm_toValue_iff _
  have hedges : Json.HasForm (.items (g.edges.map (Edge.toValue fun d => (definition d).name))) :=
    Json.hasForm_of_plain (.items_map (Edge.plain_toValue _) _ : Plain 2 _)
  have hcounts : Json.HasForm
      (.record [("node_count", .int g.nodes.length), ("edge_count", .int g.edges.length)]) := by
    rw [Json.hasForm_record_iff]
    simp only [List.forall_mem_cons]
    exact ⟨.int _, .int _, List.forall_mem_nil _⟩
  rw [toValue, Json.hasForm_record_iff]
  simp only [List.forall_mem_cons, hroot, hnodes, hedges, hcounts, true_and]
  exact and_iff_left (List.forall_mem_nil _)

/-- What the export writes of a graph, and what a strict writer makes of it. -/
theorem curbs_toValue : Json.Curbs (∀ line ∈ g.lines definition, Json.HasForm line)
    (Json.strict.render (g.toValue definition)) (g.toJson definition (some 2)) :=
  (Json.curbs_write (some 2) [] 0 (g.toValue definition)).congr (g.hasForm_toValue_iff definition)

end Graph

/-! ## The command -/

namespace Command

/-- How a command ends when its answer cannot be written. -/
def breakdownOf : Json.Failure → Breakdown
  | .circular => .circular
  | .unshown obstacle => .unshown obstacle
  | _ => .noJson

namespace Session

open ComponentAttrs.Files ComponentAttrs.Project

section

variable {s : Session}

theorem render_eq (h : s.format ≠ yamlFormat) (v : Value) :
    s.render v = ((Json.strict.render v).map (· ++ "\n")).mapError breakdownOf := by
  rw [render, if_neg h]
  cases Json.strict.render v with
  | ok text => rfl
  | error e => cases e <;> rfl

theorem result_emit (code : Nat) (log : List LogRecord) (v : Value) :
    Answer.result (s.emit code log v) = (s.render v).map fun text => (code, text) := by
  unfold emit
  cases s.render v <;> rfl

theorem result_map_after (log : List LogRecord) (a : Answer) :
    Answer.result (a.map (Report.after log)) = Answer.result a := by
  cases a <;> rfl

variable {files : Tree} {c : Catalog} {later : Session} {log : List LogRecord}
  {component : Option String} {drawing : String} {root : Option Component}

/-- The command builds the graph of the composition below the component and writes its value. -/
theorem result_graph (hloaded : s.loaded files = .ok (c, later, log))
    (hroot : (Call.graph component drawing).root? c = some root) (hdrawing : drawing ≠ dotFormat) :
    Answer.result (s.graph files component drawing).2 =
      (s.render ((Graph.build c.index standardLinks root).toValue c.definition)).map
        fun text => (0, text) := by
  have hanswer : (s.graph files component drawing).2 = _ := onCatalog_of_known hloaded hroot
  rw [hanswer, result_map_after, if_neg hdrawing, result_emit]
  rfl

/-- **When the command prints the export.** Where a graph can be exported, the command that shows it
in JSON prints the export with a line end, and ends with code 0, if and only if the line of every
definition in the graph has a JSON form; otherwise it breaks down for want of a form. Where the
graph cannot be exported the command breaks down too. The files of the definitions do not
matter. -/
theorem graph_prints_export_iff (hloaded : s.loaded files = .ok (c, later, log))
    (hroot : (Call.graph component drawing).root? c = some root) (hdrawing : drawing ≠ dotFormat)
    (hformat : s.format ≠ yamlFormat) :
    let g := Graph.build c.index standardLinks root
    let shown := Answer.result (s.graph files component drawing).2
    (∀ text, g.toJson c.definition (some 2) = .ok text →
      (shown = .ok (0, text ++ "\n") ↔ ∀ line ∈ g.lines c.definition, Json.HasForm line) ∧
      (shown ≠ .ok (0, text ++ "\n") → shown = .error .noJson)) ∧
    ∀ e, g.toJson c.definition (some 2) = .error e → ∃ b, shown = .error b := by
  intro g shown
  have hcurbs := g.curbs_toValue c.definition
  have hshown : shown = ((((Json.strict.render (g.toValue c.definition)).map (· ++ "\n")).mapError
      breakdownOf).map fun text => (0, text)) := by
    rw [← render_eq hformat]
    exact result_graph hloaded hroot hdrawing
  refine ⟨fun text htext => ?_, fun e he => ?_⟩
  · rw [htext] at hcurbs
    by_cases hform : ∀ line ∈ g.lines c.definition, Json.HasForm line
    · have hprinted : shown = .ok (0, text ++ "\n") := by
        rw [hshown, hcurbs.agree hform]
        rfl
      exact ⟨iff_of_true hprinted hform, fun hno => absurd hprinted hno⟩
    · have hbroken : shown = .error .noJson := by
        rw [hshown, hcurbs.eq_noForm hform]
        rfl
      refine ⟨iff_of_false ?_ hform, fun _ => hbroken⟩
      rw [hbroken]
      exact nofun
  · rw [he] at hcurbs
    obtain ⟨e', hstrict⟩ := hcurbs.exists_error
    refine ⟨breakdownOf e', ?_⟩
    rw [hshown, hstrict]
    rfl

theorem eq_ok_of_toOption {ε α : Type} {x : Except ε α} {a : α} (h : x.toOption = some a) :
    x = .ok a := by
  cases x with
  | error e => cases h
  | ok b => exact congrArg Except.ok (Option.some.inj h)

/-- What can be made of the catalog and the component that a command asks for. -/
theorem exists_loaded_of_isSome {α : Type} {call : Call}
    (make : Catalog → Option Component → Option α)
    (h : ((s.loaded files).toOption.bind fun loaded =>
      (call.root? loaded.1).bind (make loaded.1)).isSome) :
    ∃ c later log root a, s.loaded files = .ok (c, later, log) ∧ call.root? c = some root ∧
      make c root = some a := by
  obtain ⟨a, ha⟩ := Option.isSome_iff_exists.mp h
  obtain ⟨⟨c, later, log⟩, hloaded, ha⟩ := Option.bind_eq_some_iff.mp ha
  obtain ⟨root, hroot, ha⟩ := Option.bind_eq_some_iff.mp ha
  exact ⟨c, later, log, root, a, eq_ok_of_toOption hloaded, hroot, ha⟩

end

/-- A component that extends one with a number for its line. -/
def numberedPanel : Tree :=
  ⟨[([standardCatalog], .file
    "components:\n  box:\n    extends: panel\n  panel:\n    line: 12\n".toUTF8)]⟩

/-- A component that extends one with a date for its line. -/
def datedPanel : Tree :=
  ⟨[([standardCatalog], .file
    "components:\n  box:\n    extends: panel\n  panel:\n    line: 2001-12-14\n".toUTF8)]⟩

/-- A number is the same in both. -/
theorem graph_of_numberedPanel_prints_export :
    ∃ c later log root text, plainSession.loaded numberedPanel = .ok (c, later, log) ∧
      (Call.graph (some "box") jsonFormat).root? c = some root ∧
      (Graph.build c.index standardLinks root).toJson c.definition (some 2) = .ok text ∧
      Answer.result (plainSession.graph numberedPanel (some "box") jsonFormat).2 =
        .ok (0, text ++ "\n") := by
  have hwritten : ((plainSession.loaded numberedPanel).toOption.bind fun loaded =>
      ((Call.graph (some "box") jsonFormat).root? loaded.1).bind fun root =>
        (Json.strict.render ((Graph.build loaded.1.index standardLinks root).toValue
          loaded.1.definition)).toOption).isSome := by
    decide +kernel
  obtain ⟨c, later, log, root, text, hloaded, hroot, htext⟩ := exists_loaded_of_isSome
    (fun c root => (Json.strict.render ((Graph.build c.index standardLinks root).toValue
      c.definition)).toOption) hwritten
  have hcurbs := (Graph.build c.index standardLinks root).curbs_toValue c.definition
  rw [eq_ok_of_toOption htext] at hcurbs
  obtain ⟨hform, hexport⟩ := hcurbs.form_and_eq
  have hprinted :=
    ((graph_prints_export_iff hloaded hroot (by decide) (by decide)).1 text hexport).1.mpr hform
  exact ⟨c, later, log, root, text, hloaded, hroot, hexport, hprinted⟩

/-- A date is a text in the export, and the command makes nothing of it. -/
theorem graph_of_datedPanel_breaks_down :
    ∃ c later log root text, plainSession.loaded datedPanel = .ok (c, later, log) ∧
      (Call.graph (some "box") jsonFormat).root? c = some root ∧
      (Graph.build c.index standardLinks root).toJson c.definition (some 2) = .ok text ∧
      ¬ ∃ r, (plainSession.graph datedPanel (some "box") jsonFormat).2 = .ok r := by
  have hwritten : ((plainSession.loaded datedPanel).toOption.bind fun loaded =>
      ((Call.graph (some "box") jsonFormat).root? loaded.1).bind fun root =>
        ((Graph.build loaded.1.index standardLinks root).toJson loaded.1.definition
          (some 2)).toOption).isSome := by
    decide +kernel
  have hbroken : (plainSession.graph datedPanel (some "box") jsonFormat).2.isOk = false := by
    decide +kernel
  obtain ⟨c, later, log, root, text, hloaded, hroot, htext⟩ := exists_loaded_of_isSome
    (fun c root => ((Graph.build c.index standardLinks root).toJson c.definition
      (some 2)).toOption) hwritten
  refine ⟨c, later, log, root, text, hloaded, hroot, eq_ok_of_toOption htext, ?_⟩
  rintro ⟨r, hr⟩
  rw [hr] at hbroken
  cases hbroken

end Session

end Command

end ComponentAttrs
