import Mathlib.Data.List.Induction
import Mathlib.Data.List.Nodup
import ComponentAttrs.Proofs.Catalog.Documents
import ComponentAttrs.Proofs.Catalog.Entries
import ComponentAttrs.Proofs.Scope.Locals

/-!
Interning. Every declaration in a document makes a definition of its own; of those under one name
the last is kept. They are registered twice, by name and by definition. A catalog knows a definition
by its name; here definitions are numbered, so that two of one name can be told apart.

* `lookup_gather`: what a dictionary holds under a key;
* `Interns`: names lead to definitions, and these to their entries, one to one;
* `Registry.interns_ofDeclared`: two dictionaries from the same declarations do;
* `Catalog.interns_each_name`: a catalog answers like these dictionaries.
-/
namespace ComponentAttrs

open ComponentAttrs.Files ComponentAttrs.Document

/-! ## Dictionaries -/

section

variable {κ υ : Type} [DecidableEq κ]

/-- Values in a dictionary, each under its own key. -/
def gather (key : υ → κ) (values : List υ) : List (κ × υ) :=
  gatherBy (·.1) (values.map fun v => (key v, v))

theorem lookup_cons (k key : κ) (value : υ) (d : List (κ × υ)) :
    ((key, value) :: d).lookup k = if k = key then some value else d.lookup k := by
  rw [List.lookup_cons]
  by_cases hk : k = key
  · rw [if_pos hk, beq_iff_eq.mpr hk]
  · rw [if_neg hk, beq_eq_false_iff_ne.mpr hk]

theorem lookup_eq_none_iff_not_mem (k : κ) (d : List (κ × υ)) :
    d.lookup k = none ↔ k ∉ d.map (·.1) := by
  rw [List.lookup_eq_none_iff, List.mem_map]
  constructor
  · rintro h ⟨p, hp, rfl⟩
    simpa using h p hp
  · intro h p hp
    exact bne_iff_ne.mpr fun hk => h ⟨p, hp, hk.symm⟩

theorem lookup_putBy (key k : κ) (value : υ) (d : List (κ × υ)) :
    (putBy (·.1) (key, value) d).lookup k = if k = key then some value else d.lookup k := by
  induction d with
  | nil => exact lookup_cons k key value []
  | cons p rest ih =>
    obtain ⟨a, v⟩ := p
    unfold putBy
    by_cases ha : a = key
    · rw [if_pos ha, lookup_cons, lookup_cons, ha]
      split <;> rfl
    · by_cases hk : k = a
      · simp [ha, hk]
      · simp [lookup_cons, ha, hk, ih]

theorem lookup_eq_some_iff_mem {d : List (κ × υ)} (h : (d.map (·.1)).Nodup) {k : κ} {v : υ} :
    d.lookup k = some v ↔ (k, v) ∈ d := by
  induction d with
  | nil => simp
  | cons p rest ih =>
    obtain ⟨a, w⟩ := p
    obtain ⟨hfirst, hrest⟩ := List.nodup_cons.mp h
    by_cases hk : k = a
    · subst hk
      have hnone : (k, v) ∉ rest := fun hv => hfirst (List.mem_map.mpr ⟨(k, v), hv, rfl⟩)
      simp [hnone, eq_comm]
    · simp [lookup_cons, hk, ih hrest]

variable (key : υ → κ) (values : List υ)

theorem gather_concat (v : υ) :
    gather key (values ++ [v]) = putBy (·.1) (key v, v) (gather key values) := by
  rw [gather, List.map_append, List.map_singleton, gatherBy_concat]
  rfl

theorem nodup_gather : ((gather key values).map (·.1)).Nodup := nodup_gatherBy _ _

/-- Under each key the last value stays. -/
theorem lookup_gather (k : κ) :
    (gather key values).lookup k = values.reverse.find? fun v => key v = k := by
  induction values using List.reverseRecOn with
  | nil => rfl
  | append_singleton values v ih =>
    rw [gather_concat, lookup_putBy, List.reverse_concat, List.find?_cons, ih]
    by_cases hk : key v = k
    · simp [hk]
    · simp [hk, Ne.symm hk]

variable {key values}

theorem mem_gather_iff {k : κ} {v : υ} :
    (k, v) ∈ gather key values ↔ (gather key values).lookup k = some v :=
  (lookup_eq_some_iff_mem (nodup_gather key values)).symm

theorem of_lookup_gather {k : κ} {v : υ} (h : (gather key values).lookup k = some v) :
    v ∈ values ∧ key v = k := by
  rw [lookup_gather] at h
  exact ⟨List.mem_reverse.mp (List.mem_of_find?_eq_some h), by simpa using List.find?_some h⟩

theorem mem_values_gather_iff {v : υ} :
    v ∈ (gather key values).map (·.2) ↔ (gather key values).lookup (key v) = some v := by
  constructor
  · intro hv
    obtain ⟨⟨k, _⟩, hmem, rfl⟩ := List.mem_map.mp hv
    have hlookup := mem_gather_iff.mp hmem
    rwa [(of_lookup_gather hlookup).2]
  · intro h
    exact List.mem_map_of_mem (mem_gather_iff.mpr h)

/-- Values with different keys are all kept. -/
theorem lookup_gather_eq_some_iff (h : (values.map key).Nodup) {k : κ} {v : υ} :
    (gather key values).lookup k = some v ↔ v ∈ values ∧ key v = k := by
  have hreverse : (values.reverse.map key).Nodup := by
    rw [List.map_reverse]
    exact List.nodup_reverse.mpr h
  rw [lookup_gather, find?_key_eq_some_iff hreverse, List.mem_reverse]

end

/-! ## Interning -/

section

variable {ι ε : Type} {get? : String → Option ι} {entryAt? : Option ι → Option ε}
  {definition : ε → ι} {name : ε → String}

/-- Names lead to definitions, and a definition leads back to its entry. -/
structure Interns (names : List String) (get? : String → Option ι)
    (entryAt? : Option ι → Option ε) (definition : ε → ι) (name : ε → String) : Prop where
  names_nodup : names.Nodup
  get?_eq_none_iff : ∀ n, get? n = none ↔ n ∉ names
  entryAt?_of_get? : ∀ n d, get? n = some d →
    ∃ e, entryAt? (some d) = some e ∧ definition e = d ∧ name e = n
  get?_inj : ∀ n n' d, get? n = some d → get? n' = some d → n = n'
  entryAt?_none : entryAt? none = none
  /-- Definitions that no name leads to are from elsewhere. -/
  entryAt?_of_forall_ne : ∀ d, (∀ n, get? n ≠ some d) → entryAt? (some d) = none

/-- A definition that leads back to its name has only one. -/
theorem get?_inj_of_entryAt? (h : ∀ n d, get? n = some d →
    ∃ e, entryAt? (some d) = some e ∧ definition e = d ∧ name e = n) (n n' : String) (d : ι)
    (hn : get? n = some d) (hn' : get? n' = some d) : n = n' := by
  obtain ⟨e, he, _, rfl⟩ := h n d hn
  obtain ⟨e', he', _, rfl⟩ := h n' d hn'
  rw [he] at he'
  exact congrArg name (Option.some.inj he')

end

/-! ## Registries -/

/-- A definition and what is declared about it. -/
structure Made where
  serial : Nat
  entry : Entry

def Made.name (m : Made) : String := m.entry.name

/-- Definitions in the order in which they are made. -/
def numbered (first : Nat) (declared : List Entry) : List Made :=
  (declared.zipIdx first).map fun (e, serial) => ⟨serial, e⟩

theorem map_entry_gather (made : List Made) :
    (gather Made.name made).map (·.2.entry) = gatherEntries (made.map Made.entry) := by
  have hnames : ∀ p ∈ made.map fun m => (m.name, m), Entry.name p.2.entry = p.1 := by
    intro p hp
    obtain ⟨m, _, rfl⟩ := List.mem_map.mp hp
    rfl
  rw [gather, map_gatherBy hnames, List.map_map]
  rfl

structure Registry where
  byName : List (String × Made)
  byDefinition : List (Nat × Made)

namespace Registry

/-- The second dictionary is made from what is left in the first. -/
def ofDeclared (first : Nat) (declared : List Entry) : Registry :=
  let byName := gather Made.name (numbered first declared)
  ⟨byName, gather Made.serial (byName.map (·.2))⟩

def names (r : Registry) : List String := r.byName.map (·.1)

def size (r : Registry) : Nat := r.byName.length

def get? (r : Registry) (name : String) : Option Nat := (r.byName.lookup name).map Made.serial

def entry? (r : Registry) : Option Nat → Option Made
  | some serial => r.byDefinition.lookup serial
  | none => none

theorem map_entry_numbered (first : Nat) (declared : List Entry) :
    (numbered first declared).map Made.entry = declared := by
  rw [numbered, List.map_map]
  exact List.zipIdx_map_fst first declared

theorem nodup_serials_numbered (first : Nat) (declared : List Entry) :
    ((numbered first declared).map Made.serial).Nodup := by
  have hserials : (numbered first declared).map Made.serial =
      List.range' first declared.length := by
    rw [numbered, List.map_map]
    exact List.zipIdx_map_snd first declared
  rw [hserials]
  exact List.nodup_range' 1

variable {first : Nat} {declared : List Entry}

theorem mem_values_byName_iff {m : Made} :
    m ∈ (ofDeclared first declared).byName.map (·.2) ↔
      (ofDeclared first declared).byName.lookup m.name = some m :=
  mem_values_gather_iff

theorem name_of_lookup_byName {n : String} {m : Made}
    (h : (ofDeclared first declared).byName.lookup n = some m) :
    m ∈ numbered first declared ∧ m.name = n :=
  of_lookup_gather h

theorem map_name_byName :
    ((ofDeclared first declared).byName.map (·.2)).map Made.name =
      (ofDeclared first declared).names := by
  rw [names, List.map_map]
  refine List.map_congr_left fun p hp => ?_
  exact (name_of_lookup_byName (mem_gather_iff.mp hp)).2

/-- Whatever is left under names, these are different definitions. -/
theorem nodup_serials_byName :
    (((ofDeclared first declared).byName.map (·.2)).map Made.serial).Nodup := by
  have hnodup : ((ofDeclared first declared).byName.map (·.2)).Nodup := by
    refine List.Nodup.of_map Made.name ?_
    rw [map_name_byName]
    exact nodup_gather _ _
  refine hnodup.map_on fun m hm m' hm' hserial => ?_
  have hmade := (name_of_lookup_byName (mem_values_byName_iff.mp hm)).1
  have hmade' := (name_of_lookup_byName (mem_values_byName_iff.mp hm')).1
  exact List.inj_on_of_nodup_map (nodup_serials_numbered first declared) hmade hmade' hserial

/-- An entry is found by its definition exactly if it is found by its name. -/
theorem entry?_ofDeclared_iff {serial : Nat} {m : Made} :
    Registry.entry? (ofDeclared first declared) (some serial) = some m ↔
      (ofDeclared first declared).byName.lookup m.name = some m ∧ m.serial = serial := by
  rw [← mem_values_byName_iff]
  exact lookup_gather_eq_some_iff nodup_serials_byName

theorem interns_ofDeclared (first : Nat) (declared : List Entry) :
    let r := ofDeclared first declared
    Interns r.names r.get? r.entry? Made.serial Made.name := by
  intro r
  have hget : ∀ n s, r.get? n = some s →
      ∃ m, r.entry? (some s) = some m ∧ m.serial = s ∧ m.name = n := by
    intro n s h
    obtain ⟨m, hm, rfl⟩ := Option.map_eq_some_iff.mp h
    obtain ⟨_, rfl⟩ := name_of_lookup_byName hm
    exact ⟨m, entry?_ofDeclared_iff.mpr ⟨hm, rfl⟩, rfl, rfl⟩
  refine ⟨nodup_gather _ _, fun n => ?_, hget, get?_inj_of_entryAt? hget, rfl,
    fun s h => ?_⟩
  · rw [get?, Option.map_eq_none_iff]
    exact lookup_eq_none_iff_not_mem n r.byName
  · rw [Option.eq_none_iff_forall_ne_some]
    intro m hm
    obtain ⟨hlookup, rfl⟩ := entry?_ofDeclared_iff.mp hm
    exact h m.name (by rw [get?, hlookup]; rfl)

/-- The entries in the first dictionary are those that a catalog keeps. -/
theorem map_entry_byName (first : Nat) (declared : List Entry) :
    (ofDeclared first declared).byName.map (·.2.entry) = gatherEntries declared := by
  have hgather := map_entry_gather (numbered first declared)
  rwa [map_entry_numbered] at hgather

/-- How a catalog knows the definition with a number: by its name, if it keeps it. -/
def component (r : Registry) (nameOf : Nat → String) (serial : Nat) : Component :=
  match r.entry? (some serial) with
  | some m => .declared m.name
  | none => .foreign (nameOf serial) serial

theorem component_injective (first : Nat) (declared : List Entry) (nameOf : Nat → String) :
    Function.Injective ((ofDeclared first declared).component nameOf) := by
  intro s s' h
  unfold component at h
  split at h
  · next m hm =>
    split at h
    · next m' hm' =>
      obtain ⟨hlookup, rfl⟩ := entry?_ofDeclared_iff.mp hm
      obtain ⟨hlookup', rfl⟩ := entry?_ofDeclared_iff.mp hm'
      rw [Component.declared.inj h, hlookup'] at hlookup
      cases hlookup
      rfl
    · cases h
  · split at h
    · cases h
    · exact (Component.foreign.inj h).2

end Registry

namespace Catalog

theorem interns (c : Catalog) :
    Interns c.names c.get? c.entry? (fun e => Component.declared e.name) Entry.name := by
  have hget : ∀ n d, c.get? n = some d →
      ∃ e, c.entry? (some d) = some e ∧ Component.declared e.name = d ∧ e.name = n := by
    intro n d h
    rw [c.get?_eq] at h
    obtain ⟨e, he, rfl⟩ := Option.map_eq_some_iff.mp h
    obtain ⟨_, rfl⟩ := entryNamed?_eq_some_iff.mp he
    exact ⟨e, he, rfl, rfl⟩
  refine ⟨c.names_nodup, fun n => ?_, hget, get?_inj_of_entryAt? hget, rfl, fun d h => ?_⟩
  · simp [get?, contains]
  · rw [Option.eq_none_iff_forall_ne_some]
    intro e he
    cases d with
    | foreign => cases he
    | declared n =>
      refine h n ?_
      rw [c.get?_eq, show c.entryNamed? n = some e from he]
      rfl

section

variable {c : Catalog} {first : Nat} {declared : List Entry}
  (hentries : c.entries = gatherEntries declared)

include hentries

theorem names_eq_names : c.names = (Registry.ofDeclared first declared).names := by
  rw [names, hentries, ← Registry.map_entry_byName first, ← Registry.map_name_byName, List.map_map,
    List.map_map]
  rfl

theorem entryNamed?_eq_lookup (first : Nat) (n : String) :
    c.entryNamed? n = ((Registry.ofDeclared first declared).byName.lookup n).map Made.entry := by
  apply Option.ext
  intro e
  rw [entryNamed?_eq_some_iff, Option.map_eq_some_iff, hentries,
    ← Registry.map_entry_byName first, List.mem_map]
  constructor
  · rintro ⟨⟨p, hp, rfl⟩, rfl⟩
    have hlookup := mem_gather_iff.mp hp
    obtain ⟨_, hname⟩ := Registry.name_of_lookup_byName hlookup
    exact ⟨p.2, by rwa [← hname] at hlookup, rfl⟩
  · rintro ⟨m, hm, rfl⟩
    obtain ⟨_, hname⟩ := Registry.name_of_lookup_byName hm
    exact ⟨⟨(n, m), mem_gather_iff.mpr hm, rfl⟩, hname⟩

theorem get?_eq_map_component (nameOf : Nat → String) (n : String) :
    c.get? n = ((Registry.ofDeclared first declared).get? n).map
      ((Registry.ofDeclared first declared).component nameOf) := by
  rw [c.get?_eq, entryNamed?_eq_lookup hentries first, Registry.get?]
  cases hm : (Registry.ofDeclared first declared).byName.lookup n with
  | none => rfl
  | some m =>
    obtain ⟨_, rfl⟩ := Registry.name_of_lookup_byName hm
    have hentry := Registry.entry?_ofDeclared_iff.mpr ⟨hm, rfl⟩
    simp only [Option.map_some, Registry.component, hentry]

theorem entry?_map_component (nameOf : Nat → String) (d : Option Nat) :
    c.entry? (d.map ((Registry.ofDeclared first declared).component nameOf)) =
      (Registry.entry? (Registry.ofDeclared first declared) d).map Made.entry := by
  cases d with
  | none => rfl
  | some serial =>
    rw [Option.map_some, Registry.component]
    cases hm : Registry.entry? (Registry.ofDeclared first declared) (some serial) with
    | none => rfl
    | some m =>
      have hlookup := (Registry.entry?_ofDeclared_iff.mp hm).1
      have hentry := entryNamed?_eq_lookup hentries first m.name
      rw [hlookup] at hentry
      exact hentry

end

theorem exists_declared_of_ofValue {source : Option Path} {v : Value} {c : Catalog}
    (h : Catalog.ofValue source v = .ok c) :
    ∃ declared, readEntries source (declarationsOf v) = .ok declared ∧
      c.entries = gatherEntries declared := by
  cases v with
  | map o root =>
    obtain ⟨declarations, hdeclarations, h⟩ := bind_eq_ok_iff.mp h
    obtain rfl := eq_fieldsOf_of_mappingOr hdeclarations
    obtain ⟨declared, hdeclared, h⟩ := bind_eq_ok_iff.mp h
    obtain ⟨_, _, h⟩ := bind_eq_ok_iff.mp h
    obtain ⟨_, _, h⟩ := bind_eq_ok_iff.mp h
    cases h
    exact ⟨declared, hdeclared, rfl⟩
  | _ => cases h

theorem exists_get?_of_mem_ownLocals {c : Catalog} {owner : Component}
    {l : LocalComponent Component} {d : Component} (hl : l ∈ c.ownLocals owner)
    (hd : l.2 = some d) : ∃ n, c.get? n = some d := by
  rw [ownLocals_eq] at hl
  obtain ⟨⟨_, target⟩, _, rfl⟩ := List.mem_map.mp hl
  exact ⟨target, hd⟩

/-- **Every name has a definition of its own.** The names of a catalog lead to different
definitions, and these back to what is declared under the names. Whatever references and local
components stand for is one of them, and a definition from elsewhere has no entry. The catalog
answers like two dictionaries, by name and by definition, in which each declaration of its document
has a definition of its own: the last under each name is left, the others are as from elsewhere. -/
theorem interns_each_name {source : Option Path} {v : Value} {c : Catalog}
    (h : Catalog.ofValue source v = .ok c) (first : Nat) (nameOf : Nat → String) :
    Interns c.names c.get? c.entry? (fun e => Component.declared e.name) Entry.name ∧
    c.size = c.names.length ∧
    (∀ r d, c.index.find r = some d → ∃ n, c.get? n = some d) ∧
    (∀ owner l d, l ∈ c.ownLocals owner → l.2 = some d → ∃ n, c.get? n = some d) ∧
    ∃ declared, readEntries source (declarationsOf v) = .ok declared ∧
      let r := Registry.ofDeclared first declared
      Interns r.names r.get? r.entry? Made.serial Made.name ∧
      r.size = r.names.length ∧ c.names = r.names ∧
      (∀ n, r.get? n =
        ((numbered first declared).reverse.find? fun m => m.name = n).map Made.serial) ∧
      Function.Injective (r.component nameOf) ∧
      (∀ n, c.get? n = (r.get? n).map (r.component nameOf)) ∧
      ∀ d, c.entry? (d.map (r.component nameOf)) = (r.entry? d).map Made.entry := by
  obtain ⟨declared, hread, hentries⟩ := exists_declared_of_ofValue h
  refine ⟨c.interns, List.length_map _ |>.symm, fun r d hd => ⟨r.name, hd⟩,
    fun owner l d hl hd => exists_get?_of_mem_ownLocals hl hd, declared, hread,
    Registry.interns_ofDeclared first declared, List.length_map _ |>.symm, names_eq_names hentries,
    fun n => ?_, Registry.component_injective first declared nameOf,
    get?_eq_map_component hentries nameOf, entry?_map_component hentries nameOf⟩
  exact congrArg (Option.map Made.serial) (lookup_gather Made.name (numbered first declared) n)

/-- A component that is declared twice, under a text and under a truth value. -/
def doubleDocument : Value :=
  .record [("components", .map none [(.text "True", .record [("props", .text "early")]),
    (.text "box", .null), (.bool true, .record [("props", .text "late")])])]

def doubleSite : Catalog where
  entries := [{ Entry.blank "True" with props := [⟨"late", false⟩] }, Entry.blank "box"]
  globalMixins := []
  globalDirectives := []
  sourcePath := none
  names_nodup := by decide

/-- The later definition stands in the place of the earlier one, which is as one from elsewhere. -/
theorem later_definition_takes_place :
    Catalog.ofValue none doubleDocument = .ok doubleSite ∧
    ∃ declared, readEntries none (declarationsOf doubleDocument) = .ok declared ∧
      let r := Registry.ofDeclared 5 declared
      let component := r.component fun _ => "True"
      doubleSite.names = r.names ∧ r.names = ["True", "box"] ∧
      r.get? "True" = some 7 ∧ doubleSite.get? "True" = some (component 7) ∧
      component 5 ≠ component 7 ∧ r.entry? (some 5) = none ∧
      doubleSite.entry? (some (component 5)) = none := by
  have hdocument : Catalog.ofValue none doubleDocument = .ok doubleSite := rfl
  have hdeclared : readEntries none (declarationsOf doubleDocument) = .ok
      [{ Entry.blank "True" with props := [⟨"early", false⟩] }, Entry.blank "box",
        { Entry.blank "True" with props := [⟨"late", false⟩] }] := rfl
  obtain ⟨_, _, _, _, declared, hread, _, _, hnames, _, hinjective, hget, hentry⟩ :=
    interns_each_name hdocument 5 fun _ => "True"
  rw [hdeclared] at hread
  cases hread
  refine ⟨hdocument, _, hdeclared, hnames, rfl, rfl, hget "True", ?_, rfl, hentry (some 5)⟩
  exact fun h => absurd (hinjective h) (by decide)

end Catalog

end ComponentAttrs
