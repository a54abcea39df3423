import ComponentAttrs.Proofs.Attribute.Tokens

/-!
Where the base of a bound name ends. A rule for any modifier ends it at the first dot, another rule
at the first modifier of its table that is found, wherever in the text it stands.

* `Rule.base_append_eq_iff`: what a rule takes for the modifiers of a base without dots;
* `standard_takes_apart_what_it_puts_together`: a lead, a base and modifiers as one name and back.
-/
namespace ComponentAttrs.Attribute

/-! ## Finding a text -/

theorem findText_eq_some_zero_iff {text cs : List Char} :
    findText text cs = some 0 ↔ text <+: cs := by
  cases cs with
  | nil => cases text <;> simp [findText]
  | cons c cs =>
    rw [findText, ← List.isPrefixOf_iff_prefix]
    split
    · next h => simp [h]
    · next h => simp [h]

theorem findText_eq_none_iff {text cs : List Char} :
    findText text cs = none ↔ ¬ text <:+: cs := by
  induction cs with
  | nil => cases text <;> simp [findText]
  | cons c cs ih =>
    rw [findText, List.infix_cons_iff, ← List.isPrefixOf_iff_prefix]
    split
    · next h => simp [h]
    · next h => simp [h, ih]

/-- A text is not found where its first character does not stand. -/
theorem findText_append {c : Char} {text front : List Char} (h : c ∉ front) (cs : List Char) :
    findText (c :: text) (front ++ cs) = (findText (c :: text) cs).map (· + front.length) := by
  induction front with
  | nil => simp
  | cons d front ih =>
    rw [List.mem_cons, not_or] at h
    have hnot : (c :: text).isPrefixOf (d :: (front ++ cs)) = false := by
      simp [List.isPrefixOf, h.1]
    rw [List.cons_append, findText, hnot, if_neg Bool.false_ne_true, ih h.2, Option.map_map]
    rfl

theorem filter_place {place : Nat} (h : 0 < place) :
    (some place).filter (0 < ·) = some place := by
  simp [Option.filter, h]

/-! ## What closes a base -/

/-- A modifier as a table writes it: a dot, and letters. -/
def IsDotted (modifier : String) : Prop := modifier.toList.head? = some '.'

instance (modifier : String) : Decidable (IsDotted modifier) := inferInstanceAs (Decidable (_ = _))

/-- A text that a rule takes for the modifiers of a base: nothing; or what begins with a dot, for a
rule for any modifier; or what begins with that modifier, in the order of the table, which is the
first one to occur in it. -/
def Rule.Closes (r : Rule) (tail : List Char) : Prop :=
  tail = [] ∨
    if r.modifiers.contains anyModifier then tail.head? = some '.'
    else ∃ before m after, r.modifiers = before ++ m :: after ∧ m.toList <+: tail ∧
      ∀ other ∈ before, ¬ other.toList <:+: tail

/-- The first modifier of a table that occurs in a text opens it. -/
theorem findSome?_findText_eq_some_zero_iff {modifiers : List String} {tail : List Char} :
    (modifiers.findSome? fun m => findText m.toList tail) = some 0 ↔
      ∃ before m after, modifiers = before ++ m :: after ∧ m.toList <+: tail ∧
        ∀ other ∈ before, ¬ other.toList <:+: tail := by
  simp only [List.findSome?_eq_some_iff, findText_eq_some_zero_iff, findText_eq_none_iff]

section

variable {base : List Char} (hne : base ≠ []) (hbase : '.' ∉ base)

include hne hbase

/-- Behind a base without dots the modifiers are found where they are found without it. -/
theorem modifierPlace?_append {modifiers : List String} (h : ∀ m ∈ modifiers, IsDotted m)
    (tail : List Char) : modifierPlace? modifiers (base ++ tail) =
      (modifiers.findSome? fun m => findText m.toList tail).map (· + base.length) := by
  have hlength : 0 < base.length := List.length_pos_iff.mpr hne
  induction modifiers with
  | nil => rfl
  | cons m modifiers ih =>
    obtain ⟨letters, hm⟩ := List.head?_eq_some_iff.mp (h m List.mem_cons_self)
    have hrest := ih fun other hother => h other (List.mem_cons_of_mem _ hother)
    rw [modifierPlace?, List.findSome?_cons, ← modifierPlace?, hrest, List.findSome?_cons, hm,
      findText_append hbase]
    cases findText ('.' :: letters) tail with
    | none => rfl
    | some place =>
      have hpos : 0 < place + base.length := by omega
      rw [Option.map_some, filter_place hpos]

theorem Rule.base_append_eq_iff {r : Rule}
    (hr : r.modifiers.contains anyModifier ∨ ∀ m ∈ r.modifiers, IsDotted m) (tail : List Char) :
    r.base (base ++ tail) = base ↔ r.Closes tail := by
  unfold Rule.base Rule.Closes
  split
  · have hplain : ∀ c ∈ base, decide (c ≠ '.') = true := by
      intro c hc
      rw [decide_eq_true_iff]
      rintro rfl
      exact hbase hc
    rw [List.takeWhile_append_of_pos hplain, List.append_right_eq_self]
    cases tail with
    | nil => simp
    | cons c tail =>
      by_cases hc : c = '.' <;> simp [hc]
  · next hany =>
    have hdotted : ∀ m ∈ r.modifiers, IsDotted m := hr.resolve_left hany
    rw [modifierPlace?_append hne hbase hdotted, ← findSome?_findText_eq_some_zero_iff]
    cases r.modifiers.findSome? fun m => findText m.toList tail with
    | none => simp
    | some place =>
      have htake : (base ++ tail).take (place + base.length) = base ++ tail.take place := by
        rw [Nat.add_comm, List.take_length_add_append]
      simp [htake, List.take_eq_nil_iff, or_comm]

end

/-! ## Names put together -/

theorem mem_bindings_bind {lead : String} (h : lead ∈ [":", "v-bind:"]) :
    ⟨lead, bindModifiers⟩ ∈ Grammar.standard.bindings := by
  simp only [List.mem_cons, List.not_mem_nil, or_false] at h
  rcases h with rfl | rfl <;> decide

theorem mem_bindings_listen {lead : String} (h : lead ∈ ["@", "v-on:"]) :
    ⟨lead, [anyModifier]⟩ ∈ Grammar.standard.bindings := by
  simp only [List.mem_cons, List.not_mem_nil, or_false] at h
  rcases h with rfl | rfl <;> decide

/-- A lead, a base and modifiers come out again of the name that they make. -/
structure ComesApart (lead base modifiers : String) : Prop where
  bound : Grammar.standard.boundName? (lead ++ base ++ modifiers) = some base
  token : Grammar.standard.tokenize (lead ++ base ++ modifiers) =
    ⟨some lead, base, if modifiers = "" then none else some modifiers⟩

section

variable {r : Rule} (hr : r ∈ Grammar.standard.bindings)

include hr

theorem boundName?_append {rest : String} (hrest : rest ≠ "") :
    Grammar.standard.boundName? (r.lead ++ rest) = some (String.ofList (r.base rest.toList)) := by
  -- the rule is the only one with its lead
  have hunique : ∀ s ∈ Grammar.standard.bindings, ∀ t ∈ Grammar.standard.bindings,
      s.lead = t.lead → s = t := by decide
  have hlead := findLead?_append (List.mem_map_of_mem (f := Rule.lead) hr) rest
  obtain ⟨s, hs, hsame, hbase⟩ := boundChars?_of_findLead? hlead rfl hrest
  rw [Grammar.boundName?, hbase, hunique s hs r hr hsame, Option.map_some]

theorem boundName?_append_eq_some_iff {base : String} (hne : base ≠ "")
    (hbase : '.' ∉ base.toList) (modifiers : String) :
    Grammar.standard.boundName? (r.lead ++ (base ++ modifiers)) = some base ↔
      r.Closes modifiers.toList := by
  have hdotted : ∀ s ∈ Grammar.standard.bindings,
      s.modifiers.contains anyModifier ∨ ∀ m ∈ s.modifiers, IsDotted m := by decide
  have hrest : base ++ modifiers ≠ "" := by
    rw [Ne, String.append_eq_empty_iff]
    exact fun h => hne h.1
  rw [boundName?_append hr hrest, Option.some_inj, ← String.toList_inj, String.toList_ofList,
    String.toList_append]
  exact Rule.base_append_eq_iff (by simpa using hne) hbase (hdotted r hr) modifiers.toList

/-- A name comes apart exactly if the rule of its lead takes the modifiers for what they are. -/
theorem comesApart_iff {base : String} (hne : base ≠ "") (hbase : '.' ∉ base.toList)
    (modifiers : String) : ComesApart r.lead base modifiers ↔ r.Closes modifiers.toList := by
  rw [← boundName?_append_eq_some_iff hr hne hbase, ← String.append_assoc]
  constructor
  · exact ComesApart.bound
  · intro h
    refine ⟨h, tokenize_eq_of_boundName? ?_ String.append_assoc h⟩
    rw [String.append_assoc]
    exact findLead?_append (List.mem_map_of_mem hr) _

end

/-- A rule for binding takes what begins with `.prop` for modifiers, what begins with `.camel` only
if no `.prop` follows, and `.sync` on its own. -/
theorem closes_of_bindModifiers {r : Rule} (hr : r.modifiers = bindModifiers) {tail : List Char}
    (h : tail = [] ∨ tail = ".sync".toList ∨ ".prop".toList <+: tail ∨
      (".camel".toList <+: tail ∧ ¬ ".prop".toList <:+: tail)) : r.Closes tail := by
  unfold Rule.Closes
  rw [hr, if_neg (by decide)]
  rcases h with rfl | rfl | hprop | ⟨hcamel, hnone⟩
  · exact .inl rfl
  · refine .inr ⟨[".prop", ".camel"], ".sync", [], rfl, List.prefix_rfl, ?_⟩
    have hnone : ∀ other ∈ [".prop", ".camel"], findText other.toList ".sync".toList = none := by
      decide
    exact fun other hother => findText_eq_none_iff.mp (hnone other hother)
  · refine .inr ⟨[], ".prop", [".camel", ".sync"], rfl, hprop, ?_⟩
    exact fun _ hother => absurd hother List.not_mem_nil
  · refine .inr ⟨[".prop"], ".camel", [".sync"], rfl, hcamel, ?_⟩
    intro other hother
    obtain rfl := List.mem_singleton.mp hother
    exact hnone

/-- **Taking apart undoes putting together.** A lead, a base and modifiers come out of the name that
they make, whatever else than dots the base is made of. -/
theorem standard_takes_apart_what_it_puts_together {base : String} (hne : base ≠ "")
    (hbase : '.' ∉ base.toList) :
    (∀ lead ∈ [":", "v-bind:"], ∀ modifiers : String,
      (modifiers = "" ∨ modifiers = ".sync" ∨ ".prop".toList <+: modifiers.toList ∨
        (".camel".toList <+: modifiers.toList ∧ ¬ ".prop".toList <:+: modifiers.toList)) →
      ComesApart lead base modifiers) ∧
    (∀ lead ∈ ["@", "v-on:"], ∀ modifiers : String,
      (modifiers = "" ∨ modifiers.toList.head? = some '.') → ComesApart lead base modifiers) := by
  constructor
  · intro lead hlead modifiers h
    apply (comesApart_iff (mem_bindings_bind hlead) hne hbase modifiers).mpr
    apply closes_of_bindModifiers rfl
    rcases h with rfl | rfl | h
    · exact .inl rfl
    · exact .inr (.inl rfl)
    · exact .inr (.inr h)
  · intro lead hlead modifiers h
    have hany : [anyModifier].contains anyModifier := by decide
    apply (comesApart_iff (mem_bindings_listen hlead) hne hbase modifiers).mpr
    unfold Rule.Closes
    rw [if_pos hany]
    rcases h with rfl | h
    · exact .inl rfl
    · exact .inr h

/-- A base that looks like a lead, with two modifiers. -/
theorem sync_behind_camel_comes_apart :
    "@v-on:x" ≠ "" ∧ '.' ∉ "@v-on:x".toList ∧ ".camel".toList <+: ".camel.sync".toList ∧
    ¬ ".prop".toList <:+: ".camel.sync".toList ∧ ComesApart ":" "@v-on:x" ".camel.sync" := by
  have hne : "@v-on:x" ≠ "" := by decide
  have hbase : '.' ∉ "@v-on:x".toList := by decide
  have hcamel : ".camel".toList <+: ".camel.sync".toList := by decide
  have hprop : ¬ ".prop".toList <:+: ".camel.sync".toList :=
    findText_eq_none_iff.mp (by decide)
  have hcloses := (standard_takes_apart_what_it_puts_together hne hbase).1 ":" (by decide)
    ".camel.sync" (.inr (.inr (.inr ⟨hcamel, hprop⟩)))
  exact ⟨hne, hbase, hcamel, hprop, hcloses⟩

end ComponentAttrs.Attribute
