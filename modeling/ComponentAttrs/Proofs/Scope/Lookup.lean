import ComponentAttrs.Catalog.Scope
import ComponentAttrs.Proofs.Walk.Reachability

/-!
A lookup and the listing that it cuts short. The lookup asks for one name and stops at the first
definition that has it; the listing asks every definition for all its attributes.
-/
namespace ComponentAttrs.Scope

variable {δ : Type}

/-! ## A search along a list -/

section

variable (s : Scope δ) (written : String) (publicOnly : Bool)

/-- A search stops exactly when it has an answer. -/
theorem stop_iff_answer_offer_inquire (ds : List δ) (inquiry : Inquiry δ)
    (h : inquiry.answer = none) :
    let r := offer (s.inquire written publicOnly) ds inquiry
    r.1 = .stop ↔ r.2.answer.isSome := by
  induction ds generalizing inquiry with
  | nil => simp [offer, h]
  | cons d ds ih =>
    simp only [offer, inquire]
    cases hm : s.ownAttributes d (s.grammar.matchesName written) publicOnly true with
    | nil => exact ih _ rfl
    | cons a rest => simp

end

/-! ## Sources that answer narrower questions consistently -/

section

variable (s : Scope δ) (written : String) (publicOnly : Bool)

/-- Asked for the first attribute with a fitting name, the source answers the first such attribute
of its full answer. -/
def Selects : Prop :=
  ∀ d test publicOnly, s.ownAttributes d test publicOnly true =
    ((s.ownAttributes d anyName publicOnly false).filter fun a => test a.name).take 1

/-- The first attribute of a definition that a written name denotes. -/
def firstMatch (d : δ) : Option (Descriptor δ) :=
  (s.ownAttributes d anyName publicOnly false).find? fun a => s.grammar.matchesName written a.name

variable {s}

theorem inquire_eq (hs : s.Selects) (inquiry : Inquiry δ) (d : δ) :
    s.inquire written publicOnly inquiry d =
      (if (s.firstMatch written publicOnly d).isSome then .stop else .proceed,
        ⟨inquiry.asked ++ [d], s.firstMatch written publicOnly d⟩) := by
  have hhead : (s.ownAttributes d (s.grammar.matchesName written) publicOnly true).head? =
      s.firstMatch written publicOnly d := by
    rw [hs, List.head?_take, if_neg Nat.one_ne_zero, List.head?_filter]
    rfl
  simp only [inquire, ← hhead]
  cases s.ownAttributes d (s.grammar.matchesName written) publicOnly true <;> rfl

/-- A search asks everyone who has no match. -/
theorem offer_inquire_of_none (hs : s.Selects) {ds : List δ}
    (h : ∀ d ∈ ds, s.firstMatch written publicOnly d = none) (asked : List δ) :
    offer (s.inquire written publicOnly) ds ⟨asked, none⟩ = (.proceed, ⟨asked ++ ds, none⟩) := by
  induction ds generalizing asked with
  | nil => simp [offer]
  | cons d ds ih =>
    have hd := h d (List.mem_cons_self ..)
    have hrest := ih (fun e he => h e (List.mem_cons_of_mem _ he)) (asked ++ [d])
    simp only [offer, inquire_eq written publicOnly hs, hd]
    simpa using hrest

/-- A search ends at the first one who has a match. -/
theorem offer_inquire_of_some (hs : s.Selects) {before : List δ} {d : δ} {a : Descriptor δ}
    (h : ∀ c ∈ before, s.firstMatch written publicOnly c = none)
    (hd : s.firstMatch written publicOnly d = some a) (after : List δ) :
    offer (s.inquire written publicOnly) (before ++ d :: after) ⟨[], none⟩ =
      (.stop, ⟨before ++ [d], some a⟩) := by
  rw [offer_append, offer_inquire_of_none written publicOnly hs h]
  simp only [offer, inquire_eq written publicOnly hs, hd]
  simp

end

/-! ## The lookup as one search -/

section

variable [DecidableEq δ] (s : Scope δ) (written : String) (publicOnly : Bool)

/-- A lookup is one search, through the root and then what is reachable from it, with directives to
fall back to. -/
theorem lookUp_eq_offer (root : Option δ) :
    let inquiry := (offer (s.inquire written publicOnly)
      (root.toList ++ reachable s.index s.links root) ⟨[], none⟩).2
    let found := s.lookUp root written publicOnly
    found.asked = inquiry.asked ∧
      found.value.descriptor? =
        inquiry.answer.or (s.directives.bind fun source => source.resolve root written) := by
  have hown := stop_iff_answer_offer_inquire s written publicOnly root.toList ⟨[], none⟩ rfl
  simp only [offer_append, lookUp]
  cases ho : offer (s.inquire written publicOnly) root.toList ⟨[], none⟩ with
  | mk outcome own =>
    simp only [ho] at hown
    cases outcome with
    | stop =>
      obtain ⟨a, ha⟩ := Option.isSome_iff_exists.mp (hown.mp rfl)
      simp [ha, Resolution.descriptor?]
    | proceed =>
      have hnone : own.answer = none := by
        cases ha : own.answer with
        | none => rfl
        | some a => simp [ha] at hown
      have hwalk := offer_reachable s.index s.links root (s.inquire written publicOnly) own
      simp only [hnone, hwalk]
      cases (walk s.index s.links root (s.inquire written publicOnly) own).memory.answer with
      | some a => simp [Resolution.descriptor?]
      | none => cases s.directives <;> simp [Resolution.descriptor?]

end

end ComponentAttrs.Scope

namespace ComponentAttrs.Catalog

open ComponentAttrs.Scope

/-- A candidate is a prop or something internal, under the name that it is declared by. -/
theorem form_of_mem_candidates {d : Component} {e : Entry} {publicOnly : Bool}
    {a : Descriptor Component} (h : a ∈ candidates d e publicOnly) :
    (∃ name required, a = .prop d name required) ∨
      ∃ kind ∈ [AttributeKind.data, .computed, .method], ∃ name, a = .inner d kind name := by
  have hprops : ∀ b ∈ e.props.map fun p => Descriptor.prop d p.name p.required,
      ∃ name required, b = Descriptor.prop d name required := by
    intro b hb
    obtain ⟨p, _, rfl⟩ := List.mem_map.mp hb
    exact ⟨_, _, rfl⟩
  have hinner : ∀ kind ∈ [AttributeKind.data, .computed, .method], ∀ names : List String,
      a ∈ names.map (Descriptor.inner d kind) →
        ∃ kind ∈ [AttributeKind.data, .computed, .method], ∃ name, a = .inner d kind name := by
    intro kind hkind names ha
    obtain ⟨name, _, rfl⟩ := List.mem_map.mp ha
    exact ⟨kind, hkind, name, rfl⟩
  cases publicOnly with
  | true => exact .inl (hprops a h)
  | false =>
    simp only [candidates, Bool.false_eq_true, ↓reduceIte, List.mem_append] at h
    rcases h with ((h | h) | h) | h
    · exact .inl (hprops a h)
    · exact .inr (hinner .data (by simp) _ h)
    · exact .inr (hinner .computed (by simp) _ h)
    · exact .inr (hinner .method (by simp) _ h)

theorem form_of_mem_ownAttributes {c : Catalog} {d : Component} {publicOnly : Bool}
    {a : Descriptor Component} (h : a ∈ c.ownAttributes d anyName publicOnly false) :
    (∃ name required, a = .prop d name required) ∨
      ∃ kind ∈ [AttributeKind.data, .computed, .method], ∃ name, a = .inner d kind name := by
  unfold ownAttributes at h
  cases he : c.entry? (some d) with
  | none => simp [he] at h
  | some e =>
    simp only [he, limit, Bool.false_eq_true, ↓reduceIte, List.mem_filter] at h
    exact form_of_mem_candidates h.1

theorem owner_of_mem_ownAttributes {c : Catalog} {d : Component} {publicOnly : Bool}
    {a : Descriptor Component} (h : a ∈ c.ownAttributes d anyName publicOnly false) :
    a.owner = some d := by
  rcases form_of_mem_ownAttributes h with ⟨_, _, rfl⟩ | ⟨_, _, _, rfl⟩ <;> rfl

theorem selects_of_own_eq (c : Catalog) {s : Scope Component} (h : s.own = c.ownSource) :
    s.Selects := by
  intro d test publicOnly
  simp only [Scope.ownAttributes, h, ownSource, ownAttributes, Option.getD_some]
  cases c.entry? (some d) with
  | none => rfl
  | some e => simp [limit, anyName]

/-- **The lookup finds the first match of the listing.** -/
theorem lookUp_finds_first_listed (c : Catalog) (ix : Index Component)
    (directives : Option (DirectiveSource Component)) (links : List LinkKind)
    (g : Attribute.Grammar) (root : Option Component) (written : String) (publicOnly : Bool) :
    let s : Scope Component := ⟨ix, c.ownSource, directives, links, g⟩
    let everyone := root.toList ++ reachable ix links root
    let listed := everyone.flatMap fun d => c.ownAttributes d anyName publicOnly false
    let found := s.lookUp root written publicOnly
    everyone.Nodup ∧
      match listed.find? fun a => g.matchesName written a.name with
      | some a =>
        s.resolve root written publicOnly = some a ∧
          ∃ before d after, everyone = before ++ d :: after ∧ a.owner = some d ∧
            found.asked = before ++ [d]
      | none =>
        s.resolve root written publicOnly =
            directives.bind (fun source => source.resolve root written) ∧
          found.asked = everyone := by
  intro s everyone listed found
  refine ⟨nodup_root_append_reachable ix links root, ?_⟩
  have hs : s.Selects := c.selects_of_own_eq rfl
  obtain ⟨hasked, hvalue⟩ := lookUp_eq_offer s written publicOnly root
  have hfirst : (listed.find? fun a => g.matchesName written a.name) =
      everyone.findSome? (s.firstMatch written publicOnly) := List.find?_flatMap
  rw [hfirst]
  cases hm : everyone.findSome? (s.firstMatch written publicOnly) with
  | some a =>
    obtain ⟨before, d, after, heveryone, hd, hbefore⟩ := List.findSome?_eq_some_iff.mp hm
    have hsearch := offer_inquire_of_some written publicOnly hs hbefore hd after
    have hsame : root.toList ++ reachable s.index s.links root = before ++ d :: after := heveryone
    rw [hsame, hsearch] at hasked hvalue
    have howner : a.owner = some d := owner_of_mem_ownAttributes (List.mem_of_find?_eq_some hd)
    exact ⟨hvalue, before, d, after, heveryone, howner, hasked⟩
  | none =>
    have hnone := List.findSome?_eq_none_iff.mp hm
    have hsearch := offer_inquire_of_none written publicOnly hs hnone []
    have hsame : root.toList ++ reachable s.index s.links root = everyone := rfl
    rw [hsame, hsearch] at hasked hvalue
    exact ⟨hvalue, hasked⟩

end ComponentAttrs.Catalog
