import Mathlib.Data.List.Basic
import ComponentAttrs.Proofs.Attribute.Recovery

/-!
Tokens and the names that they were made from. The lead of a token is the first one that the name
starts with, the base is what the first lead leaves that is not the whole name. These are the same
lead unless the name is nothing but a lead: then a shorter lead further down the table may find a
base in it, and the token says more than the name.

* `boundChars?_of_findLead?`: a name that goes on behind its lead has its base there;
* `text_tokenize_eq_iff`: which names a token gives back;
* `tokens_keep_names_unless_astray`: what it reads otherwise, and which tables keep all names.
-/
namespace ComponentAttrs.Attribute

/-- The parts of a token, one behind the other. -/
def NameToken.text (t : NameToken) : String := t.lead.getD "" ++ t.base ++ t.modifier.getD ""

/-- The name is nothing but its lead, and a shorter lead finds a base in it. -/
def Grammar.Astray (g : Grammar) (name : String) : Prop :=
  g.findLead? name = some name ∧ ∃ base, g.boundName? name = some base ∧ base ≠ ""

instance (g : Grammar) (name : String) : Decidable (g.Astray name) :=
  decidable_of_iff (g.findLead? name = some name ∧ (g.boundName? name).any (· ≠ "")) <| by
    simp [Grammar.Astray, Option.any_eq_true]

/-! ## Bases -/

theorem Rule.base_isPrefix (r : Rule) (after : List Char) : r.base after <+: after := by
  unfold Rule.base
  split
  · exact List.takeWhile_prefix _
  · split
    · exact List.take_prefix _ _
    · exact List.prefix_rfl

theorem Rule.remainder?_append (r : Rule) {rest : List Char} (h : rest ≠ []) :
    r.remainder? (r.lead.toList ++ rest) = some rest := by
  have hrest : r.lead.toList.isPrefixOf? (r.lead.toList ++ rest) = some rest :=
    List.isPrefixOf?_eq_some_iff_append_eq.mpr rfl
  simp [Rule.remainder?, hrest, h]

theorem Rule.remainder?_eq_none (r : Rule) {name : List Char} (h : ¬ r.lead.toList <+: name) :
    r.remainder? name = none := by
  have hnone : r.lead.toList.isPrefixOf? name = none := by
    rwa [← Option.not_isSome_iff_eq_none, List.isSome_isPrefixOf?_eq_isPrefixOf,
      List.isPrefixOf_iff_prefix]
  rw [Rule.remainder?, hnone, Option.filter_none]

section

variable {g : Grammar} {name lead rest : String}

/-- The rule that gives a name its lead also gives it its base, if there is anything behind the
lead. -/
theorem boundChars?_of_findLead? (h : g.findLead? name = some lead) (hname : name = lead ++ rest)
    (hrest : rest ≠ "") :
    ∃ r ∈ g.bindings, r.lead = lead ∧ g.boundChars? name.toList = some (r.base rest.toList) := by
  rw [Grammar.findLead?, Grammar.leads, List.find?_map, Option.map_eq_some_iff] at h
  obtain ⟨r, hr, rfl⟩ := h
  have hmem := List.mem_of_find?_eq_some hr
  obtain ⟨-, before, after, hbindings, hbefore⟩ := List.find?_eq_some_iff_append.mp hr
  have hnone : (before.findSome? fun r => (r.remainder? name.toList).map r.base) = none := by
    rw [List.findSome?_eq_none_iff]
    intro earlier hearlier
    have hlead : ¬ earlier.lead.toList <+: name.toList := by
      simpa [← List.isPrefixOf_iff_prefix] using hbefore earlier hearlier
    rw [earlier.remainder?_eq_none hlead, Option.map_none]
  have hfound : r.remainder? name.toList = some rest.toList := by
    rw [hname, String.toList_append]
    exact r.remainder?_append (by simpa using hrest)
  refine ⟨r, hmem, rfl, ?_⟩
  rw [Grammar.boundChars?, hbindings, List.findSome?_append, hnone, Option.none_or,
    List.findSome?_cons, hfound, Option.map_some]

/-! ## Tokens -/

theorem tokenize_of_findLead?_eq_none (h : g.findLead? name = none) :
    g.tokenize name = ⟨none, name, none⟩ := by
  rw [Grammar.tokenize, h]

theorem lead_tokenize : (g.tokenize name).lead = g.findLead? name := by
  rw [Grammar.tokenize]
  split
  · next h => exact h.symm
  · next h => split <;> exact h.symm

/-- A token of a name has the base, and what stands behind it as the modifier. -/
theorem tokenize_eq_of_boundName? {base modifiers : String} (h : g.findLead? name = some lead)
    (hname : name = lead ++ (base ++ modifiers)) (hbase : g.boundName? name = some base) :
    g.tokenize name = ⟨some lead, base, if modifiers = "" then none else some modifiers⟩ := by
  have hdrop : (base ++ modifiers).toList.drop base.length = modifiers.toList := by
    rw [String.toList_append, ← String.length_toList, List.drop_left]
  rw [Grammar.tokenize, h]
  simp only [withoutLead_of_findLead?_eq_some h hname, hbase, hdrop, String.ofList_toList]
  simp

theorem text_tokenize_of_rest (h : g.findLead? name = some lead) (hname : name = lead ++ rest)
    (hrest : rest ≠ "") : (g.tokenize name).text = name := by
  obtain ⟨r, -, -, hr⟩ := boundChars?_of_findLead? h hname hrest
  obtain ⟨modifier, hmodifier⟩ := r.base_isPrefix rest.toList
  have hbase : g.boundName? name = some (String.ofList (r.base rest.toList)) := by
    rw [Grammar.boundName?, hr, Option.map_some]
  have hsplit : rest = String.ofList (r.base rest.toList) ++ String.ofList modifier := by
    rw [← String.ofList_append, hmodifier, String.ofList_toList]
  rw [hsplit] at hname
  rw [tokenize_eq_of_boundName? h hname hbase, NameToken.text, hname]
  by_cases hempty : String.ofList modifier = ""
  · simp [hempty]
  · simp [hempty, String.append_assoc]

/-- Behind a name that is nothing but its lead stands what a shorter lead finds in it. -/
theorem tokenize_of_findLead?_eq_self (h : g.findLead? name = some name) :
    g.tokenize name = ⟨some name, (g.boundName? name).getD "", none⟩ := by
  have hrest : g.withoutLead name = "" :=
    withoutLead_of_findLead?_eq_some h (String.append_empty).symm
  rw [Grammar.tokenize, h]
  cases hbase : g.boundName? name with
  | none => simp [hrest]
  | some base => simp [hrest]

end

section

variable (g : Grammar) (name : String)

/-- What a token of a name reads: the name, and behind a bare lead what a shorter one finds. -/
theorem text_tokenize :
    (g.tokenize name).text =
      if g.findLead? name = some name then name ++ (g.boundName? name).getD "" else name := by
  cases hlead : g.findLead? name with
  | none => simp [tokenize_of_findLead?_eq_none hlead, NameToken.text]
  | some lead =>
    obtain ⟨rest, hname⟩ := exists_eq_append_of_findLead?_eq_some hlead
    by_cases hempty : rest = ""
    · obtain rfl : name = lead := by rw [hname, hempty, String.append_empty]
      simp [tokenize_of_findLead?_eq_self hlead, NameToken.text]
    · have hne : lead ≠ name := by
        rw [hname, Ne, ← String.toList_inj, String.toList_append, List.self_eq_append_right]
        simpa using hempty
      rw [text_tokenize_of_rest hlead hname hempty, if_neg (by simpa using hne)]

theorem text_tokenize_eq_iff : (g.tokenize name).text = name ↔ ¬ g.Astray name := by
  rw [text_tokenize, Grammar.Astray]
  by_cases hlead : g.findLead? name = some name
  · cases g.boundName? name <;> simp [hlead]
  · simp [hlead]

variable {g name}

theorem mem_leads_of_astray (h : g.Astray name) : name ∈ g.leads := List.mem_of_find?_eq_some h.1

end

/-- **What a token keeps of its name.** A token gives its name back, nothing lost and nothing added,
unless the name is a lead in which a shorter lead finds a base; then it reads the name with that
base once more behind it. So a table keeps all names if and only if it keeps its own leads. -/
theorem tokens_keep_names_unless_astray (g : Grammar) :
    (∀ name, (g.tokenize name).text = name ↔ ¬ g.Astray name) ∧
    (∀ name, (g.tokenize name).text =
      if g.Astray name then name ++ (g.boundName? name).getD "" else name) ∧
    ((∀ name, (g.tokenize name).text = name) ↔ ∀ lead ∈ g.leads, ¬ g.Astray lead) := by
  refine ⟨text_tokenize_eq_iff g, fun name => ?_, ?_, ?_⟩
  · by_cases hastray : g.Astray name
    · rw [text_tokenize, if_pos hastray.1, if_pos hastray]
    · rw [if_neg hastray, text_tokenize_eq_iff]
      exact hastray
  · intro hall lead _
    exact (text_tokenize_eq_iff g lead).mp (hall lead)
  · intro hleads name
    rw [text_tokenize_eq_iff]
    exact fun hastray => hleads name (mem_leads_of_astray hastray) hastray

/-- The usual table keeps all names. -/
theorem text_tokenize_standard (name : String) : (Grammar.standard.tokenize name).text = name := by
  have hleads : ∀ lead ∈ Grammar.standard.leads, ¬ Grammar.standard.Astray lead := by decide
  rw [text_tokenize_eq_iff]
  exact fun hastray => hleads name (mem_leads_of_astray hastray) hastray

/-- A table in which one lead goes on where another one ends. -/
def nestedLeads : Grammar := ⟨[⟨"v-bind:", bindModifiers⟩, ⟨"v-", []⟩], []⟩

/-- The longer lead on its own is taken for a lead and, by the shorter one, for a base as well. -/
theorem tokenize_nestedLeads_adds :
    nestedLeads.tokenize "v-bind:" = ⟨some "v-bind:", "bind:", none⟩ ∧
      (nestedLeads.tokenize "v-bind:").text ≠ "v-bind:" := by
  decide

end ComponentAttrs.Attribute
