import Mathlib
import ComponentAttrs.Proofs.Yaml.Composing
import ComponentAttrs.Yaml.Reading

/-!
Once the nodes of a document are there, no byte of the text is looked at any more: building what they
stand for fails for reasons of its own. With the tokens and the nodes this makes reading a document
in text a value, a malformed text or a scalar without a value (`decodes_read`).
-/
namespace ComponentAttrs.Yaml

open Std.Do

set_option mvcgen.warning false

/-- Any outcome but a failure for bytes. -/
abbrev notUndecodable {α : Type} : PostCond α (.arg Building (.except Failure .pure)) :=
  post⟨fun _ _ => ⌜True⌝, fun failure => ⌜failure ≠ .undecodable⌝⟩

/-- Building that does not fail for bytes. -/
abbrev Builds {α : Type} (x : Build α) : Prop := ⦃fun _ => ⌜True⌝⦄ x ⦃notUndecodable⦄

theorem builds_iff_decodes {α : Type} {x : Build α} :
    Builds x ↔ ∀ s, Decodes (x s) fun _ => True := by
  simp only [Builds, Decodes, Triple]
  exact ⟨fun h s _ => h s trivial, fun h s _ => h s trivial⟩

/-! ## Scalars -/

@[spec] theorem decodes_noValue {α : Type} {P : α → Prop} (p : ScalarProblem) :
    Decodes (noValue p : Except Failure α) P := by
  mvcgen [noValue]
  nofun

@[spec] theorem decodes_intValue (text : String) : Decodes (intValue text) fun _ => True := by
  mvcgen [intValue]

@[spec] theorem decodes_sumSixties (sum : Float) (power : Nat) (parts : List Float) :
    Decodes (sumSixties sum power parts) fun _ => True := by
  induction parts generalizing sum power with
  | nil => mvcgen [sumSixties]
  | cons part rest ih => mvcgen [sumSixties, ih]

@[spec] theorem decodes_floatMagnitude (cs : List Char) :
    Decodes (floatMagnitude cs) fun _ => True := by
  mvcgen [floatMagnitude]
  cases Decimal.float? cs with
  | none => exact decodes_noValue .value trivial
  | some x => trivial

@[spec] theorem decodes_floatValue (text : String) : Decodes (floatValue text) fun _ => True := by
  mvcgen [floatValue]

@[spec] theorem decodes_boolValue (text : String) : Decodes (boolValue text) fun _ => True := by
  mvcgen [boolValue]

@[spec] theorem decodes_bytesValue (text : String) : Decodes (bytesValue text) fun _ => True := by
  mvcgen [bytesValue]

@[spec] theorem decodes_timestampValue (origin : Document.Origin) (text : String) :
    Decodes (timestampValue origin text) fun _ => True := by
  mvcgen [timestampValue]

@[spec] theorem decodes_scalarText (nodes : Array Node) (fuel id : Nat) :
    Decodes (scalarText nodes fuel id) fun _ => True := by
  induction fuel generalizing id with
  | zero => mvcgen [scalarText]
  | succ fuel ih => mvcgen [scalarText, ih]

@[spec] theorem decodes_map {α β : Type} {x : Except Failure α} (h : Decodes x fun _ => True)
    (f : α → β) : Decodes (x.map f) fun _ => True := by
  cases x with
  | error failure => exact h
  | ok a => mvcgen [Except.map]

@[spec] theorem decodes_scalarObject (nodes : Array Node) (id : Nat) :
    Decodes (scalarObject nodes id) fun _ => True := by
  have htext := decodes_scalarText nodes chainLimit id
  mvcgen [scalarObject]

/-! ## Collections -/

namespace Build

@[spec] theorem builds_refuse {α : Type} (p : Problem) : Builds (refuse p : Build α) :=
  builds_iff_decodes.mpr fun _ => Composing.decodes_malformed p

section

variable {α β : Type}

theorem builds_bind {x : Build α} {f : α → Build β} (hx : Builds x) (hf : ∀ a, Builds (f a)) :
    Builds (x >>= f) := by
  mvcgen [hx, hf]

theorem builds_mapM {f : α → Build β} (h : ∀ a, Builds (f a)) (l : List α) : Builds (l.mapM f) := by
  induction l with
  | nil => mvcgen [List.mapM_nil]
  | cons a l ih =>
    rw [List.mapM_cons]
    exact builds_bind (h a) fun b => builds_bind ih fun bs => by mvcgen

theorem builds_forM {f : α → Build PUnit} (h : ∀ a, Builds (f a)) (l : List α) :
    Builds (l.forM f) := by
  induction l with
  | nil => mvcgen [List.forM_nil]
  | cons a l ih =>
    rw [List.forM_eq_forM, List.forM_cons]
    exact builds_bind (h a) fun _ => ih

end

@[spec] theorem builds_node (id : Nat) : Builds (node id) := by
  mvcgen [node]

@[spec] theorem builds_entries (id : Nat) : Builds (entries id) := by
  mvcgen [entries]

@[spec] theorem builds_setNode (id : Nat) (n : Node) : Builds (setNode id n) := by
  mvcgen [setNode]

@[spec] theorem builds_setEntries (id : Nat) (es : List (Nat × Nat)) : Builds (setEntries id es) := by
  mvcgen [setEntries]

@[spec] theorem builds_setObject (id : Nat) (object : Object) : Builds (setObject id object) := by
  mvcgen [setObject]

@[spec] theorem builds_followMerges (fuel id : Nat) : Builds (followMerges fuel id) := by
  induction fuel generalizing id with
  | zero => exact builds_iff_decodes.mpr fun _ => decodes_noValue .depth
  | succ fuel ih =>
    mvcgen [followMerges, ih, builds_mapM]
    invariants
    · notUndecodable
    with grind

@[spec] theorem builds_build (id : Nat) : Builds (build id) := by
  mvcgen [build]

@[spec] theorem builds_buildEntries (id : Nat) : Builds (buildEntries id) := by
  mvcgen [buildEntries]
  invariants
  · notUndecodable
  with grind

@[spec] theorem builds_buildItems (id : Nat) : Builds (buildItems id) := by
  mvcgen [buildItems, builds_forM]

@[spec] theorem builds_buildPairs (id : Nat) : Builds (buildPairs id) := by
  mvcgen [buildPairs, builds_mapM]

@[spec] theorem builds_fill (id : Nat) : Builds (fill id) := by
  mvcgen [fill]

@[spec] theorem builds_fillFrom (place fuel : Nat) : Builds (fillFrom place fuel) := by
  induction fuel generalizing place with
  | zero => mvcgen [fillFrom]
  | succ fuel ih => mvcgen [fillFrom, ih]

end Build

@[spec] theorem decodes_objects (nodes : Array Node) (root : Nat) :
    Decodes (objects nodes root) fun _ => True := by
  have hbuild : Builds (do Build.build root; Build.fillFrom 0 nodes.size.succ : Build Unit) := by
    mvcgen
  have hrun := builds_iff_decodes.mp hbuild
  mvcgen [objects, hrun]

/-! ## Documents -/

/-- A document whose text does not end in undecodable bytes is not refused for them. -/
theorem decodes_read {source : Source} (h : source.stop ≠ some .undecodable) :
    Decodes (read source) fun _ => True := by
  mvcgen [read]

end ComponentAttrs.Yaml
