import ComponentAttrs.Proofs.Attribute.Segments

/-!
Names that may stand without a value, told in two ways. The table looks at how a name ends; its token
shows where its modifiers begin, and of these the last segment counts.

* `lastSegment?_eq_some_iff`: how a text ends, told by its last segment;
* `tokenize_listen`: the token of any listener, with a base or without;
* `allowsNoValue_iff_lastSegment`: both ways agree on all names.
-/
namespace ComponentAttrs.Attribute

/-! ## The last segment -/

/-- The last segment behind a dot. -/
def lastSegment? (cs : List Char) : Option (List Char) := (segments cs).tail.getLast?

theorem lastSegment?_append {event : List Char} (h : '.' ∉ event) (front : List Char) :
    lastSegment? (front ++ '.' :: event) = some event := by
  obtain ⟨first, later, rfl, hplain⟩ := exists_segments front
  have hsplit : first ++ dotted later ++ '.' :: event = first ++ dotted (later ++ [event]) := by
    simp [dotted]
  have hall : ∀ s ∈ first :: (later ++ [event]), '.' ∉ s := by
    intro s hs
    rw [← List.cons_append, List.mem_append, List.mem_singleton] at hs
    rcases hs with hs | rfl
    · exact hplain s hs
    · exact h
  rw [hsplit, lastSegment?, segments_append_dotted hall, List.tail_cons, List.getLast?_concat]

theorem isSuffix_of_lastSegment?_eq_some {cs event : List Char} (h : lastSegment? cs = some event) :
    '.' :: event <:+ cs := by
  obtain ⟨first, later, rfl, hplain⟩ := exists_segments cs
  rw [lastSegment?, segments_append_dotted hplain, List.tail_cons,
    List.getLast?_eq_some_iff] at h
  obtain ⟨before, rfl⟩ := h
  refine ⟨first ++ dotted before, ?_⟩
  simp [dotted]

theorem lastSegment?_eq_some_iff {cs event : List Char} (h : '.' ∉ event) :
    lastSegment? cs = some event ↔ '.' :: event <:+ cs := by
  constructor
  · exact isSuffix_of_lastSegment?_eq_some
  · rintro ⟨front, rfl⟩
    exact lastSegment?_append h front

/-- Without its first segment a text ends as before. -/
theorem lastSegment?_dropWhile (cs : List Char) :
    lastSegment? (cs.dropWhile (· ≠ '.')) = lastSegment? cs := by
  obtain ⟨first, later, rfl, hplain⟩ := exists_segments cs
  have hfirst : ∀ c ∈ first, decide (c ≠ '.') = true := by
    intro c hc
    rw [decide_eq_true_iff]
    rintro rfl
    exact hplain first List.mem_cons_self hc
  have hlater : (dotted later).dropWhile (· ≠ '.') = [] ++ dotted later := by
    cases later <;> simp [dotted]
  have hnone : ∀ s ∈ [] :: later, '.' ∉ s := by
    rw [List.forall_mem_cons] at hplain ⊢
    exact ⟨List.not_mem_nil, hplain.2⟩
  rw [List.dropWhile_append_of_pos hfirst, hlater, lastSegment?, lastSegment?,
    segments_append_dotted hplain, segments_append_dotted hnone, List.tail_cons, List.tail_cons]

/-! ## Listeners -/

theorem findLead?_listen {lead : String} (h : lead ∈ ["@", "v-on:"]) (rest : String) :
    Grammar.standard.findLead? (lead ++ rest) = some lead :=
  findLead?_append (List.mem_map_of_mem (f := Rule.lead) (mem_bindings_listen h)) rest

theorem boundName?_listen {lead rest : String} (h : lead ∈ ["@", "v-on:"]) (hrest : rest ≠ "") :
    Grammar.standard.boundName? (lead ++ rest) =
      some (String.ofList (rest.toList.takeWhile (· ≠ '.'))) := by
  have hany : [anyModifier].contains anyModifier := by decide
  rw [boundName?_append (mem_bindings_listen h) hrest, Rule.base, if_pos hany]

/-- The modifiers of a listener begin at the first dot, where its base ends, if it has one. -/
theorem tokenize_listen {lead : String} (h : lead ∈ ["@", "v-on:"]) (rest : String) :
    let modifiers := String.ofList (rest.toList.dropWhile (· ≠ '.'))
    Grammar.standard.tokenize (lead ++ rest) =
      ⟨some lead, String.ofList (rest.toList.takeWhile (· ≠ '.')),
        if modifiers = "" then none else some modifiers⟩ := by
  intro modifiers
  by_cases hrest : rest = ""
  · simp only [List.mem_cons, List.not_mem_nil, or_false] at h
    rcases h with rfl | rfl <;> subst hrest <;> decide
  · have hsplit : rest = String.ofList (rest.toList.takeWhile (· ≠ '.')) ++ modifiers := by
      rw [← String.ofList_append, List.takeWhile_append_dropWhile, String.ofList_toList]
    exact tokenize_eq_of_boundName? (findLead?_listen h rest) (congrArg (lead ++ ·) hsplit)
      (boundName?_listen h hrest)

/-- The last segment of a listener's modifiers is the last one of the listener. -/
theorem exists_modifier_tokenize_listen_iff {lead : String} (h : lead ∈ ["@", "v-on:"])
    (rest : String) (event : List Char) :
    (∃ modifiers, (Grammar.standard.tokenize (lead ++ rest)).modifier = some modifiers ∧
      lastSegment? modifiers.toList = some event) ↔ lastSegment? rest.toList = some event := by
  rw [← lastSegment?_dropWhile rest.toList, tokenize_listen h]
  simp only
  generalize rest.toList.dropWhile (· ≠ '.') = tail
  have hne : lastSegment? tail = some event → tail ≠ [] := by
    rintro hlast rfl
    cases hlast
  simpa using hne

/-! ## Names without a value -/

/-- What may be done to an event without a handler. -/
def bareEvents : List String := ["stop", "prevent", "capture", "self", "once"]

theorem eventModifiers_eq : eventModifiers = bareEvents.map ("." ++ ·) := by decide

theorem Rule.remainder?_eq_some_iff {r : Rule} {name after : List Char} :
    r.remainder? name = some after ↔ name = r.lead.toList ++ after ∧ after ≠ [] := by
  rw [Rule.remainder?, Option.filter_eq_some_iff, List.isPrefixOf?_eq_some_iff_append_eq,
    eq_comm, Bool.not_eq_true', List.isEmpty_eq_false_iff]

/-- Of the names that listen, those that end with an event and the dot in front of it. -/
theorem allowsNoValue_iff {name : String} :
    Grammar.standard.allowsNoValue name ↔ ∃ lead ∈ ["@", "v-on:"], ∃ rest : String,
      name = lead ++ rest ∧ ∃ event ∈ bareEvents, '.' :: event.toList <:+ rest.toList := by
  have hrules : Grammar.standard.valueless = ["@", "v-on:"].map (⟨·, eventModifiers⟩) := rfl
  rw [Grammar.allowsNoValue, hrules, List.any_map, List.any_eq_true]
  refine exists_congr fun lead => and_congr_right fun _ => ?_
  simp only [Function.comp_apply, Option.any_eq_true, Rule.remainder?_eq_some_iff, eventModifiers_eq,
    List.any_map, List.any_eq_true, List.isSuffixOf_iff_suffix]
  constructor
  · rintro ⟨after, ⟨hname, -⟩, event, hevent, hend⟩
    refine ⟨String.ofList after, ?_, event, hevent, ?_⟩
    · rw [← String.toList_inj, hname, String.toList_append, String.toList_ofList]
    · simpa using hend
  · rintro ⟨rest, rfl, event, hevent, hend⟩
    refine ⟨rest.toList, ⟨String.toList_append, ?_⟩, event, hevent, ?_⟩
    · intro hnil
      rw [hnil, List.suffix_nil] at hend
      exact List.cons_ne_nil _ _ hend
    · simpa using hend

/-- **Without a value.** A name may stand without a value exactly if its token is a listener's and the
last segment of its modifiers is an event that needs no handler. Such a name is bound. -/
theorem allowsNoValue_iff_lastSegment (name : String) :
    let token := Grammar.standard.tokenize name
    (Grammar.standard.allowsNoValue name ↔
      (token.lead = some "@" ∨ token.lead = some "v-on:") ∧
        ∃ modifiers, token.modifier = some modifiers ∧
          ∃ event ∈ ["stop", "prevent", "capture", "self", "once"],
            lastSegment? modifiers.toList = some event.toList) ∧
    (Grammar.standard.allowsNoValue name → (Grammar.standard.boundName? name).isSome) := by
  intro token
  have hplain : ∀ event ∈ bareEvents, '.' ∉ event.toList := by decide
  constructor
  · rw [allowsNoValue_iff]
    constructor
    · rintro ⟨lead, hlead, rest, rfl, event, hevent, hend⟩
      have hlast := (lastSegment?_eq_some_iff (hplain event hevent)).mpr hend
      obtain ⟨modifiers, hmodifiers, hsame⟩ :=
        (exists_modifier_tokenize_listen_iff hlead rest event.toList).mpr hlast
      have htoken : token.lead = some lead := lead_tokenize.trans (findLead?_listen hlead rest)
      refine ⟨?_, modifiers, hmodifiers, event, hevent, hsame⟩
      simpa [htoken] using hlead
    · rintro ⟨hlisten, modifiers, hmodifiers, event, hevent, hlast⟩
      obtain ⟨lead, hlead, htoken⟩ : ∃ lead ∈ ["@", "v-on:"], token.lead = some lead := by
        simpa using hlisten
      obtain ⟨rest, rfl⟩ := exists_eq_append_of_findLead?_eq_some (lead_tokenize.symm.trans htoken)
      have hsame := (exists_modifier_tokenize_listen_iff hlead rest event.toList).mp
        ⟨modifiers, hmodifiers, hlast⟩
      have hend := (lastSegment?_eq_some_iff (hplain event hevent)).mp hsame
      exact ⟨lead, hlead, rest, rfl, event, hevent, hend⟩
  · rw [allowsNoValue_iff]
    rintro ⟨lead, hlead, rest, rfl, event, -, hend⟩
    have hrest : rest ≠ "" := by
      rintro rfl
      exact absurd hend (by simp)
    rw [boundName?_listen hlead hrest]
    rfl

/-- Two modifiers behind a base with a colon in it; the first is no event of that kind, and the last
one counts. -/
theorem native_self_without_value :
    Grammar.standard.allowsNoValue "v-on:a:b.native.self" ∧
    Grammar.standard.tokenize "v-on:a:b.native.self" = ⟨some "v-on:", "a:b", some ".native.self"⟩ ∧
    lastSegment? ".native.self".toList = some "self".toList ∧
    (Grammar.standard.boundName? "v-on:a:b.native.self").isSome := by
  have hallows : Grammar.standard.allowsNoValue "v-on:a:b.native.self" := by decide
  exact ⟨hallows, by decide, by decide, (allowsNoValue_iff_lastSegment _).2 hallows⟩

end ComponentAttrs.Attribute
