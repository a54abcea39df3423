import ComponentAttrs.Json.Writing
import ComponentAttrs.Yaml.Writing

/-!
Which values can be written. Scalars can, but for numbers that are too long; in records and lists
made anew it depends on what they hold.

* `IsShown`: the value has a text;
* `Plain`: scalars that both formats know, in records and lists that are not too deep;
* `Json.writes_of_plain`, `Yaml.sight_of_plain`: plain values are written in both formats;
* `Json.writes_record_iff`, `Yaml.sight_record` and the like: other records and lists.
-/
namespace ComponentAttrs

namespace Document

/-- The value can be put into words. -/
def IsShown (v : Value) : Prop := ∃ s, v.display = .ok s

theorem isShown_iff {v : Value} : IsShown v ↔ ∃ s, v.inspected = .ok s := by
  cases v with
  | text s => exact ⟨fun _ => ⟨_, rfl⟩, fun _ => ⟨_, rfl⟩⟩
  | date o d => exact ⟨fun _ => ⟨_, rfl⟩, fun _ => ⟨_, rfl⟩⟩
  | moment o m => exact ⟨fun _ => ⟨_, rfl⟩, fun _ => ⟨_, rfl⟩⟩
  | _ => exact Iff.rfl

theorem exists_intText_eq_ok_iff {i : Int} : (∃ s, intText i = .ok s) ↔ IsShown (.int i) := Iff.rfl

theorem isShown_int_iff {i : Int} :
    IsShown (.int i) ↔ i.natAbs < Decimal.tenTo Decimal.digitLimit := by
  rw [← exists_intText_eq_ok_iff, intText]
  split <;> simp_all

/-- The height is how deep collections stand inside each other at most. -/
inductive Plain : Nat → Value → Prop
  | null (height : Nat) : Plain height .null
  | bool (height : Nat) (b : Bool) : Plain height (.bool b)
  | int (height : Nat) {i : Int} (shown : IsShown (.int i)) : Plain height (.int i)
  | float (height : Nat) (x : Float) : Plain height (.float x)
  | text (height : Nat) (s : String) : Plain height (.text s)
  | items {height : Nat} {vs : List Value} (all : ∀ v ∈ vs, Plain height v) :
    Plain (height + 1) (.items vs)
  | record {height : Nat} {fields : List (String × Value)} (all : ∀ f ∈ fields, Plain height f.2) :
    Plain (height + 1) (.record fields)

theorem Plain.optionalText (height : Nat) (s : Option String) :
    Plain height (.optionalText s) := by
  cases s with
  | none => exact .null height
  | some s => exact .text height s

/-- Plain scalars have a text. -/
theorem Plain.isShown {v : Value} (h : Plain 0 v) : IsShown v := by
  cases h with
  | int _ shown => exact shown
  | _ => exact ⟨_, rfl⟩

theorem Plain.pair {height : Nat} {m n : String} {v w : Value} (hv : Plain height v)
    (hw : Plain height w) : Plain (height + 1) (.record [(m, v), (n, w)]) := by
  refine .record ?_
  simp only [List.forall_mem_cons]
  exact ⟨hv, hw, nofun⟩

theorem Plain.items_map {α : Type} {height : Nat} {f : α → Value} (h : ∀ a, Plain height (f a))
    (as : List α) : Plain (height + 1) (.items (as.map f)) :=
  .items (List.forall_mem_map.mpr fun a _ => h a)

theorem bind_eq_ok_iff {ε α β : Type} {x : Except ε α} {f : α → Except ε β} {b : β} :
    x >>= f = .ok b ↔ ∃ a, x = .ok a ∧ f a = .ok b := by
  cases x with
  | error e => exact ⟨nofun, nofun⟩
  | ok a => exact ⟨fun h => ⟨a, rfl, h⟩, fun ⟨_, rfl, h⟩ => h⟩

/-- A result after another is there if both are. -/
theorem exists_bind_eq_ok_iff {ε α β : Type} {x : Except ε α} {f : α → Except ε β} :
    (∃ b, x >>= f = .ok b) ↔ ∃ a, x = .ok a ∧ ∃ b, f a = .ok b := by
  cases x with
  | error e => exact ⟨nofun, nofun⟩
  | ok a => exact ⟨fun h => ⟨a, rfl, h⟩, fun ⟨_, rfl, h⟩ => h⟩

theorem not_exists_error_eq_ok {ε α : Type} (e : ε) : ¬ ∃ a, (.error e : Except ε α) = .ok a := by
  rintro ⟨_, ⟨⟩⟩

theorem exists_pure_eq_ok {ε α : Type} (a : α) : ∃ b, (pure a : Except ε α) = .ok b := ⟨a, rfl⟩

end Document

open ComponentAttrs.Document

/-! ## JSON -/

namespace Json

/-- The value is written at a depth inside collections made anew. -/
def Writes (l : Layout) (depth : Nat) (v : Value) : Prop := ∃ text, write l [] depth v = .ok text

variable {l : Layout} {depth : Nat}

theorem exists_writeAll_eq_ok_iff {vs : List Value} :
    (∃ texts, writeAll l [] depth vs = .ok texts) ↔ ∀ v ∈ vs, Writes l depth v := by
  induction vs with
  | nil => simp [writeAll]
  | cons v rest ih =>
    simp only [writeAll, exists_bind_eq_ok_iff, exists_pure_eq_ok, and_true, exists_and_right, ih,
      List.forall_mem_cons, Writes]

theorem exists_writeEntries_eq_ok_iff {fields : List (String × Value)} :
    (∃ texts, writeEntries l [] depth (fields.map fun (name, v) => (.text name, v)) = .ok texts) ↔
      ∀ f ∈ fields, Writes l depth f.2 := by
  induction fields with
  | nil => simp [writeEntries]
  | cons f rest ih =>
    have hkey : (∃ key, keyText (.text f.1) = .ok key) := ⟨_, rfl⟩
    simp only [List.map_cons, writeEntries, exists_bind_eq_ok_iff, exists_pure_eq_ok, and_true,
      exists_and_right, ih, List.forall_mem_cons, Writes, hkey, true_and]

theorem writes_int_iff {i : Int} : Writes l depth (.int i) ↔ IsShown (.int i) := by
  rw [← exists_intText_eq_ok_iff, Writes, write, intText]
  cases Document.intText i with
  | error o => exact iff_of_false (not_exists_error_eq_ok _) (not_exists_error_eq_ok _)
  | ok text => exact iff_of_true ⟨_, rfl⟩ ⟨text, rfl⟩

theorem writes_items_iff (hroom : depth < depthLimit) {vs : List Value} :
    Writes l depth (.items vs) ↔ ∀ v ∈ vs, Writes l (depth + 1) v := by
  rw [← exists_writeAll_eq_ok_iff, Writes, Value.items, write]
  simp only [isOpen, Option.any_none, Bool.false_eq_true, ↓reduceIte, Nat.not_le.mpr hroom, enter,
    Option.toList_none, List.nil_append, exists_bind_eq_ok_iff, exists_pure_eq_ok, and_true]

theorem writes_record_iff (hroom : depth < depthLimit) {fields : List (String × Value)} :
    Writes l depth (.record fields) ↔ ∀ f ∈ fields, Writes l (depth + 1) f.2 := by
  rw [← exists_writeEntries_eq_ok_iff, Writes, Value.record, write]
  simp only [isOpen, Option.any_none, Bool.false_eq_true, ↓reduceIte, Nat.not_le.mpr hroom, enter,
    Option.toList_none, List.nil_append, exists_bind_eq_ok_iff, exists_pure_eq_ok, and_true]

theorem writes_of_plain {height : Nat} {v : Value} (h : Plain height v)
    (hroom : depth + height ≤ depthLimit) : Writes l depth v := by
  induction h generalizing depth with
  | null => exact ⟨_, rfl⟩
  | bool => exact ⟨_, rfl⟩
  | int _ shown => exact writes_int_iff.mpr shown
  | float => exact ⟨_, rfl⟩
  | text => exact ⟨_, rfl⟩
  | items _ ih => exact (writes_items_iff (by omega)).mpr fun v hv => ih v hv (by omega)
  | record _ ih => exact (writes_record_iff (by omega)).mpr fun f hf => ih f hf (by omega)

end Json

/-! ## YAML -/

namespace Yaml

variable {depth : Nat} {s : Sightings}

theorem sight_text (hroom : depth ≤ depthLimit) (t : String) : sight depth s (.text t) = .ok s := by
  simp [sight, Value.origin, sightObject, Nat.not_lt.mpr hroom]

theorem sight_int (hroom : depth ≤ depthLimit) (i : Int) :
    sight depth s (.int i) = (intText i).map fun _ => s := by
  simp [sight, Value.origin, sightObject, Nat.not_lt.mpr hroom]

theorem sight_items (hroom : depth ≤ depthLimit) (vs : List Value) :
    sight depth s (.items vs) = sightAll (depth + 1) s vs := by
  simp [sight, Value.items, Value.origin, sightObject, Nat.not_lt.mpr hroom]

/-- The names of the fields are passed over. -/
theorem sightEntries_fields (hroom : depth ≤ depthLimit) (fields : List (String × Value)) :
    sightEntries depth s (fields.map fun (name, v) => (.text name, v)) =
      sightAll depth s (fields.map (·.2)) := by
  induction fields generalizing s with
  | nil => rfl
  | cons f rest ih =>
    simp only [List.map_cons, sightEntries, sightAll, sight_text hroom, ih]
    rfl

theorem sight_record (hroom : depth < depthLimit) (fields : List (String × Value)) :
    sight depth s (.record fields) = sightAll (depth + 1) s (fields.map (·.2)) := by
  rw [← sightEntries_fields hroom]
  simp [sight, Value.record, Value.origin, sightObject, Nat.not_lt.mpr (Nat.le_of_lt hroom)]

theorem exists_sight_int_iff (hroom : depth ≤ depthLimit) {i : Int} :
    (∃ t, sight depth s (.int i) = .ok t) ↔ IsShown (.int i) := by
  rw [← exists_intText_eq_ok_iff, sight_int hroom]
  cases intText i <;> simp [Except.map]

theorem sightAll_cons (v : Value) (rest : List Value) :
    sightAll depth s (v :: rest) = (sight depth s v >>= fun t => sightAll depth t rest) := rfl

theorem sightAll_cons_of_sight {v : Value} (h : sight depth s v = .ok s) (rest : List Value) :
    sightAll depth s (v :: rest) = sightAll depth s rest := by
  rw [sightAll_cons, h]
  rfl

theorem sightAll_singleton (v : Value) : sightAll depth s [v] = sight depth s v := by
  rw [sightAll_cons]
  cases sight depth s v <;> rfl

theorem sightAll_eq_self {vs : List Value} (h : ∀ v ∈ vs, sight depth s v = .ok s) :
    sightAll depth s vs = .ok s := by
  induction vs with
  | nil => rfl
  | cons v rest ih =>
    obtain ⟨hv, hrest⟩ := List.forall_mem_cons.mp h
    rw [sightAll_cons_of_sight hv]
    exact ih hrest

/-- There are no objects in a plain value that could be met again. -/
theorem sight_of_plain {height : Nat} {v : Value} (h : Plain height v)
    (hroom : depth + height ≤ depthLimit) : sight depth s v = .ok s := by
  induction h generalizing depth with
  | int _ shown =>
    obtain ⟨text, htext⟩ := exists_intText_eq_ok_iff.mpr shown
    rw [sight_int (Nat.le_of_add_right_le hroom), htext]
    rfl
  | items _ ih =>
    rw [sight_items (by omega)]
    exact sightAll_eq_self fun v hv => ih v hv (by omega)
  | record _ ih =>
    rw [sight_record (by omega)]
    refine sightAll_eq_self fun v hv => ?_
    obtain ⟨f, hf, rfl⟩ := List.mem_map.mp hv
    exact ih f hf (by omega)
  | _ => simp [sight, Value.origin, sightObject, Nat.not_lt.mpr (Nat.le_of_add_right_le hroom)]

end Yaml

end ComponentAttrs
