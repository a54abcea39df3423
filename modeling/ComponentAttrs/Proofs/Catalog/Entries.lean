import Mathlib.Data.List.Induction
import Mathlib.Data.List.Nodup
import ComponentAttrs.Catalog.Scope

/-!
Entries by name. A catalog has one entry for a name, so it does not matter in which order they are
declared.
-/
namespace ComponentAttrs

/-! ## Lists by key -/

section

variable {α β κ : Type} [DecidableEq κ] {key : α → κ} {key' : β → κ} {f : α → β}

theorem gatherBy_concat (key : α → κ) (as : List α) (a : α) :
    gatherBy key (as ++ [a]) = putBy key a (gatherBy key as) := by
  rw [gatherBy, List.foldl_append]
  rfl

theorem mem_of_mem_putBy {a b : α} {as : List α} (h : b ∈ putBy key a as) : b = a ∨ b ∈ as := by
  induction as with
  | nil => exact .inl (List.mem_singleton.mp h)
  | cons c rest ih =>
    unfold putBy at h
    split at h
    · exact (List.mem_cons.mp h).imp_right (List.mem_cons_of_mem c)
    · rcases List.mem_cons.mp h with rfl | h
      · exact .inr List.mem_cons_self
      · exact (ih h).imp_right (List.mem_cons_of_mem c)

theorem mem_of_mem_gatherBy {a : α} {as : List α} (h : a ∈ gatherBy key as) : a ∈ as := by
  induction as using List.reverseRecOn with
  | nil => cases h
  | append_singleton as b ih =>
    rw [gatherBy_concat] at h
    rw [List.mem_append, List.mem_singleton]
    exact (mem_of_mem_putBy h).symm.imp_left ih

theorem map_putBy {a : α} {as : List α} (ha : key' (f a) = key a)
    (has : ∀ b ∈ as, key' (f b) = key b) :
    (putBy key a as).map f = putBy key' (f a) (as.map f) := by
  induction as with
  | nil => rfl
  | cons b rest ih =>
    have hrest := ih fun c hc => has c (List.mem_cons_of_mem b hc)
    simp only [putBy, List.map_cons, ha, has b List.mem_cons_self]
    split
    · rfl
    · rw [List.map_cons, hrest]

/-- A map that keeps the keys may come before the gathering or after it. -/
theorem map_gatherBy {as : List α} (h : ∀ a ∈ as, key' (f a) = key a) :
    (gatherBy key as).map f = gatherBy key' (as.map f) := by
  induction as using List.reverseRecOn with
  | nil => rfl
  | append_singleton as a ih =>
    have has : ∀ b ∈ as, key' (f b) = key b := fun b hb => h b (List.mem_append_left [a] hb)
    rw [gatherBy_concat, map_putBy (h a (by simp)) fun b hb => has b (mem_of_mem_gatherBy hb),
      ih has, List.map_append, List.map_singleton, gatherBy_concat]

end

/-- Where keys differ, a search by key finds the element that has it. -/
theorem find?_key_eq_some_iff {α κ : Type} [DecidableEq κ] {key : α → κ} {as : List α}
    (h : (as.map key).Nodup) {k : κ} {a : α} :
    (as.find? fun a => key a = k) = some a ↔ a ∈ as ∧ key a = k := by
  constructor
  · intro ha
    exact ⟨List.mem_of_find?_eq_some ha, by simpa using List.find?_some ha⟩
  · rintro ⟨ha, rfl⟩
    have hsome : (as.find? fun b => key b = key a).isSome :=
      List.find?_isSome.mpr ⟨a, ha, decide_eq_true rfl⟩
    obtain ⟨b, hb⟩ := Option.isSome_iff_exists.mp hsome
    have hmem := List.mem_of_find?_eq_some hb
    have hkey : key b = key a := by simpa using List.find?_some hb
    rw [hb, List.inj_on_of_nodup_map h hmem ha hkey]

namespace Catalog

theorem entryNamed?_eq_some_iff {c : Catalog} {name : String} {e : Entry} :
    c.entryNamed? name = some e ↔ e ∈ c.entries ∧ e.name = name :=
  find?_key_eq_some_iff c.names_nodup

theorem entryNamed?_congr {a b : Catalog} {name : String}
    (h : ∀ e, e.name = name → (e ∈ a.entries ↔ e ∈ b.entries)) :
    a.entryNamed? name = b.entryNamed? name := by
  apply Option.ext
  intro e
  rw [entryNamed?_eq_some_iff, entryNamed?_eq_some_iff]
  constructor
  · rintro ⟨he, hname⟩
    exact ⟨(h e hname).mp he, hname⟩
  · rintro ⟨he, hname⟩
    exact ⟨(h e hname).mpr he, hname⟩

variable (c : Catalog)

theorem get?_eq (name : String) :
    c.get? name = (c.entryNamed? name).map fun _ => Component.declared name := by
  have hcontains : c.contains name = (c.entryNamed? name).isSome := by
    rw [Bool.eq_iff_iff, contains, decide_eq_true_iff, names, List.mem_map, entryNamed?,
      List.find?_isSome]
    simp
  unfold get?
  rw [hcontains]
  cases c.entryNamed? name <;> rfl

theorem index_name (d : Component) : c.index.name d = d.name := by
  change (c.definition d).name = d.name
  unfold definition
  cases d with
  | declared name =>
    cases he : c.entry? (some (.declared name)) with
    | none => rfl
    | some e => exact (entryNamed?_eq_some_iff.mp he).2
  | foreign name serial => rfl

/-- A catalog has one component for a name. -/
theorem eq_of_name_eq {c : Catalog} {d d' : Component} (hd : d ∈ c.index.definitions)
    (hd' : d' ∈ c.index.definitions) (h : c.index.name d = c.index.name d') : d = d' := by
  obtain ⟨n, _, rfl⟩ := List.mem_map.mp hd
  obtain ⟨n', _, rfl⟩ := List.mem_map.mp hd'
  rw [index_name, index_name] at h
  exact congrArg Component.declared h

end Catalog

end ComponentAttrs
