import ComponentAttrs.Proofs.Attribute.Spelling

/-!
Which names can be looked up under the spellings that they are listed under. A listing spells a name
in kebab or camel case and may put a lead in front of it; a lookup cuts off a lead and tries the two
spellings of what is left.

* `Recoverable.matchesName_iff_of_mem`: every listed spelling denotes a recoverable name, and
  nothing but names with its kebab form;
* `recoverable_of_matchesName`: no other name is denoted by all spellings that it is listed under.
-/
namespace ComponentAttrs.Attribute

open ComponentAttrs.Text

/-- A name that is one of the two spellings of its kebab form, where either spelling gives the other
and the kebab form has no lead. -/
structure Recoverable (name : String) : Prop where
  unled : Grammar.standard.findLead? (toKebab name) = none
  spelled : name = toKebab name ∨ name = toCamel (toKebab name)
  restored : toKebab (toCamel (toKebab name)) = toKebab name

instance (name : String) : Decidable (Recoverable name) :=
  decidable_of_iff
    (Grammar.standard.findLead? (toKebab name) = none ∧
      (name = toKebab name ∨ name = toCamel (toKebab name)) ∧
      toKebab (toCamel (toKebab name)) = toKebab name)
    ⟨fun ⟨hunled, hspelled, hrestored⟩ => ⟨hunled, hspelled, hrestored⟩,
      fun h => ⟨h.unled, h.spelled, h.restored⟩⟩

/-! ## Leads -/

theorem findLead?_eq_none_iff {g : Grammar} {name : String} :
    g.findLead? name = none ↔ ∀ lead ∈ g.leads, ¬ lead.toList <+: name.toList := by
  simp only [Grammar.findLead?, List.find?_eq_none, List.isPrefixOf_iff_prefix]

theorem exists_eq_append_of_findLead?_eq_some {g : Grammar} {name lead : String}
    (h : g.findLead? name = some lead) : ∃ rest, name = lead ++ rest := by
  obtain ⟨rest, hrest⟩ : lead.toList <+: name.toList := by
    simpa [List.isPrefixOf_iff_prefix] using List.find?_some h
  refine ⟨String.ofList rest, ?_⟩
  rw [← String.toList_inj, String.toList_append, String.toList_ofList, hrest]

theorem withoutLead_of_findLead?_eq_none {g : Grammar} {name : String}
    (h : g.findLead? name = none) : g.withoutLead name = name := by
  rw [Grammar.withoutLead, h]
  exact String.ofList_toList

theorem withoutLead_of_findLead?_eq_some {g : Grammar} {name lead rest : String}
    (h : g.findLead? name = some lead) (hname : name = lead ++ rest) :
    g.withoutLead name = rest := by
  rw [Grammar.withoutLead, h, hname]
  simp [← String.length_toList]

theorem eq_of_mem_leads {lead : String} (h : lead ∈ Grammar.standard.leads) :
    lead = ":" ∨ lead = "v-bind:" ∨ lead = "@" ∨ lead = "v-on:" := by
  simpa [Grammar.leads, Grammar.standard] using h

/-- No lead hides another one. -/
theorem findLead?_append {lead : String} (h : lead ∈ Grammar.standard.leads) (name : String) :
    Grammar.standard.findLead? (lead ++ name) = some lead := by
  rcases eq_of_mem_leads h with rfl | rfl | rfl | rfl <;>
    simp [Grammar.findLead?, Grammar.leads, Grammar.standard]

theorem withoutLead_append {lead : String} (h : lead ∈ Grammar.standard.leads) (name : String) :
    Grammar.standard.withoutLead (lead ++ name) = name :=
  withoutLead_of_findLead?_eq_some (findLead?_append h name) rfl

/-- Every lead but one has a colon, and that one is an at sign. -/
theorem findLead?_eq_none_of_head?_ne {name : String} (hcolon : ':' ∉ name.toList)
    (hat : name.toList.head? ≠ some '@') : Grammar.standard.findLead? name = none := by
  rw [findLead?_eq_none_iff]
  intro lead hlead hpre
  rcases eq_of_mem_leads hlead with rfl | rfl | rfl | rfl
  · exact hcolon (hpre.subset (by decide))
  · exact hcolon (hpre.subset (by decide))
  · obtain ⟨rest, hrest⟩ := hpre
    exact hat (by rw [← hrest]; rfl)
  · exact hcolon (hpre.subset (by decide))

/-- Camel case brings up no lead. -/
theorem findLead?_toCamel {name : String} (h : Grammar.standard.findLead? name = none) :
    Grammar.standard.findLead? (toCamel name) = none := by
  rw [findLead?_eq_none_iff] at h ⊢
  -- a first character that is no letter is the first character of the name
  have hfirst : ∀ c : Char, ¬ isCapitalLetter c → [c] <+: camelChars name.toList →
      [c] <+: name.toList := by
    rintro c hc ⟨t, ht⟩
    cases hn : name.toList with
    | nil => rw [hn] at ht; cases ht
    | cons d ds =>
      obtain ⟨e, es, heq, he⟩ := camelChars_cons d ds
      rw [hn, heq, List.singleton_append] at ht
      obtain ⟨rfl, _⟩ := List.cons.inj ht
      rcases he with rfl | he
      · exact ⟨ds, rfl⟩
      · exact absurd he hc
  -- and a hyphen in front of a small letter would have been folded
  have hfolded : ∀ c d : Char, isSmallLetter d → c ≠ '-' → ∀ t,
      ¬ [c, '-', d] ++ t = camelChars name.toList := by
    intro c d hd hc t ht
    have hidem := camelChars_camelChars name.toList
    rw [← ht] at hidem
    have hcapital := isCapitalLetter_toUpper hd
    simp only [List.cons_append, List.nil_append, camelChars_cons_of_ne hc, camelChars, hd,
      Bool.and_true, decide_true, ↓reduceIte, List.cons.injEq, true_and] at hidem
    exact ne_hyphen_of_isCapitalLetter hcapital hidem.1
  intro lead hlead hcamel
  rw [toCamel, String.toList_ofList] at hcamel
  rcases eq_of_mem_leads hlead with rfl | rfl | rfl | rfl
  · exact h ":" (by decide) (hfirst ':' (by decide) hcamel)
  · obtain ⟨t, ht⟩ := hcamel
    exact hfolded 'v' 'b' (by decide) (by decide) _ ht
  · exact h "@" (by decide) (hfirst '@' (by decide) hcamel)
  · obtain ⟨t, ht⟩ := hcamel
    exact hfolded 'v' 'o' (by decide) (by decide) _ ht

/-! ## Listed names denote what they list -/

theorem matchesName_iff {g : Grammar} {written declared : String} :
    g.matchesName written declared ↔ declared ∈ variants (g.withoutLead written) := by
  rw [Grammar.matchesName, List.contains_iff_mem]

/-- The spellings of either form of a kebab name are its two forms. -/
theorem mem_variants_iff {kebab base name : String} (hkebab : toKebab kebab = kebab)
    (hcamel : toKebab (toCamel kebab) = kebab) (hbase : base = kebab ∨ base = toCamel kebab) :
    name ∈ variants base ↔ name = kebab ∨ name = toCamel kebab := by
  rcases hbase with rfl | rfl
  · simp only [variants, hkebab, List.mem_cons, List.not_mem_nil, or_false]
    grind
  · simp only [variants, hcamel, toCamel_toCamel, List.mem_cons, List.not_mem_nil, or_false]
    grind

/-- What is left of a listed spelling once its lead is cut off. -/
theorem Recoverable.withoutLead_mem {name written : String} {inTemplate : Bool}
    (h : Recoverable name) (hw : written ∈ displayNames inTemplate name) :
    Grammar.standard.withoutLead written = toKebab name ∨
      Grammar.standard.withoutLead written = toCamel (toKebab name) := by
  have hkebab := withoutLead_of_findLead?_eq_none h.unled
  have hcamel := withoutLead_of_findLead?_eq_none (findLead?_toCamel h.unled)
  cases inTemplate with
  | true =>
    simp only [displayNames, ↓reduceIte, List.mem_cons, List.not_mem_nil, or_false] at hw
    rcases hw with rfl | rfl | rfl
    · exact .inl hkebab
    · exact .inl (withoutLead_append (by decide) _)
    · exact .inl (withoutLead_append (by decide) _)
  | false =>
    have hspelled : written = toKebab name ∨ written = toCamel (toKebab name) := by
      simp only [displayNames, Bool.false_eq_true, ↓reduceIte] at hw
      split at hw
      · obtain rfl := List.mem_singleton.mp hw
        rcases h.spelled with heq | heq
        · exact .inr (congrArg toCamel heq)
        · exact .inr ((congrArg toCamel heq).trans (toCamel_toCamel _))
      · obtain rfl := List.mem_singleton.mp hw
        exact h.spelled
    rcases hspelled with heq | heq
    · exact .inl (by rw [heq, hkebab])
    · exact .inr (by rw [heq, hcamel])

/-- What a recoverable name denotes behind a lead, or on its own. -/
theorem Recoverable.matchesName_append_iff {name lead : String} (h : Recoverable name)
    (hlead : lead ∈ "" :: Grammar.standard.leads) (declared : String) :
    Grammar.standard.matchesName (lead ++ name) declared ↔
      declared = toKebab name ∨ declared = toCamel (toKebab name) := by
  have hbase : Grammar.standard.withoutLead (lead ++ name) = name := by
    rcases List.mem_cons.mp hlead with rfl | hlead
    · have hnone : Grammar.standard.findLead? name = none := by
        rcases h.spelled with heq | heq
        · rw [heq]
          exact h.unled
        · rw [heq]
          exact findLead?_toCamel h.unled
      rw [String.empty_append, withoutLead_of_findLead?_eq_none hnone]
    · exact withoutLead_append hlead name
  rw [matchesName_iff, hbase]
  exact mem_variants_iff (toKebab_toKebab name) h.restored h.spelled

theorem Recoverable.matchesName_iff_of_mem {name written : String} {inTemplate : Bool}
    (h : Recoverable name) (hw : written ∈ displayNames inTemplate name) (declared : String) :
    Grammar.standard.matchesName written declared ↔
      declared = toKebab name ∨ declared = toCamel (toKebab name) := by
  rw [matchesName_iff]
  exact mem_variants_iff (toKebab_toKebab name) h.restored (h.withoutLead_mem hw)

theorem Recoverable.toKebab_eq {name declared : String} (h : Recoverable name)
    (hd : declared = toKebab name ∨ declared = toCamel (toKebab name)) :
    toKebab declared = toKebab name := by
  rcases hd with rfl | rfl
  · exact toKebab_toKebab name
  · exact h.restored

/-! ## Lengths -/

/-- One letter is longer in lowercase than as a capital. -/
theorem length_lowerAfter (before cs : List Char) :
    (lowerAfter before cs).length = cs.length + cs.count 'İ' := by
  induction cs generalizing before with
  | nil => rfl
  | cons c rest ih =>
    have hletter : (if c = 'Σ' then [lowerSigma before rest] else lowerLetter c).length =
        1 + if c = 'İ' then 1 else 0 := by
      split
      · next hsigma => simp [hsigma]
      · rw [lowerLetter]
        split <;> rfl
    rw [lowerAfter, List.length_append, hletter, ih, List.length_cons, List.count_cons]
    simp only [beq_iff_eq]
    omega

theorem mem_hyphenate {before : Option Char} {cs : List Char} {d : Char}
    (h : d ∈ hyphenate before cs) : d ∈ cs ∨ d = '-' := by
  induction cs generalizing before with
  | nil => exact .inl h
  | cons c rest ih =>
    unfold hyphenate at h
    split at h
    · rcases List.mem_cons.mp h with rfl | h
      · exact .inr rfl
      · rcases List.mem_cons.mp h with rfl | h
        · exact .inl (List.mem_cons_self ..)
        · exact (ih h).imp_left (List.mem_cons_of_mem _)
    · rcases List.mem_cons.mp h with rfl | h
      · exact .inl (List.mem_cons_self ..)
      · exact (ih h).imp_left (List.mem_cons_of_mem _)

theorem length_hyphenate_le (before : Option Char) (cs : List Char) :
    (hyphenate before cs).length ≤ cs.length + cs.countP isCapitalLetter := by
  induction cs generalizing before with
  | nil => exact Nat.le_refl _
  | cons c rest ih =>
    have hrest := ih (some c)
    unfold hyphenate
    split
    · next h =>
      rw [Bool.and_eq_true] at h
      rw [List.countP_cons_of_pos h.1]
      simp only [List.length_cons]
      omega
    · rw [List.countP_cons]
      simp only [List.length_cons]
      omega

theorem mem_camelChars {cs : List Char} {d : Char} (h : d ∈ camelChars cs) :
    d ∈ cs ∨ isCapitalLetter d := by
  fun_induction camelChars cs with
  | case1 => exact .inl h
  | case2 c => exact .inl h
  | case3 c e rest hfold ih =>
    rw [Bool.and_eq_true] at hfold
    rcases List.mem_cons.mp h with rfl | h
    · exact .inr (isCapitalLetter_toUpper hfold.2)
    · exact (ih h).imp_left fun h => List.mem_cons_of_mem _ (List.mem_cons_of_mem _ h)
  | case4 c e rest _ ih =>
    rcases List.mem_cons.mp h with rfl | h
    · exact .inl (List.mem_cons_self ..)
    · exact (ih h).imp_left (List.mem_cons_of_mem _)

/-- A fold takes away a character and makes a capital letter. -/
theorem length_camelChars (cs : List Char) :
    (camelChars cs).length + (camelChars cs).countP isCapitalLetter =
      cs.length + cs.countP isCapitalLetter := by
  fun_induction camelChars cs with
  | case1 => rfl
  | case2 c => rfl
  | case3 c d rest h ih =>
    rw [Bool.and_eq_true, decide_eq_true_iff] at h
    have hd : ¬ isCapitalLetter d := fun hd => not_isSmallLetter_of_isCapitalLetter hd h.2
    have hc : ¬ isCapitalLetter c := fun hc => ne_hyphen_of_isCapitalLetter hc h.1
    rw [List.countP_cons_of_pos (isCapitalLetter_toUpper h.2), List.countP_cons_of_neg hc,
      List.countP_cons_of_neg hd]
    simp only [List.length_cons]
    omega
  | case4 c d rest _ ih =>
    rw [List.countP_cons, List.countP_cons (a := c)]
    simp only [List.length_cons] at ih ⊢
    omega

theorem length_kebabChars_camelChars_le {cs : List Char} (h : ∀ c ∈ cs, IsLower c) :
    (kebabChars (camelChars cs)).length ≤ cs.length := by
  have hdotted : 'İ' ∉ hyphenate none (camelChars cs) := by
    intro hmem
    rcases mem_hyphenate hmem with hmem | heq
    · rcases mem_camelChars hmem with hmem | hcapital
      · exact absurd (h _ hmem) (by decide)
      · exact absurd hcapital (by decide)
    · exact absurd heq (by decide)
  have hnone : cs.countP isCapitalLetter = 0 := by
    rw [List.countP_eq_zero]
    exact fun c hc => not_isCapitalLetter_of_isLower (h c hc)
  have hcamel := length_camelChars cs
  have hhyphens := length_hyphenate_le none (camelChars cs)
  rw [kebabChars, lowercase, length_lowerAfter, List.count_eq_zero_of_not_mem hdotted]
  omega

theorem length_toKebab_le_of_mem_variants {base name : String}
    (h : ∀ c ∈ base.toList, IsLower c) (hname : name ∈ variants base) :
    (toKebab name).length ≤ base.length := by
  have hkebab : toKebab base = base := by
    rw [toKebab, kebabChars_eq_self h, String.ofList_toList]
  simp only [variants, hkebab, List.mem_cons, List.not_mem_nil, or_false] at hname
  rcases hname with rfl | rfl | rfl
  · exact Nat.le_of_eq (congrArg String.length hkebab)
  · have hlength := length_kebabChars_camelChars_le h
    rw [toKebab, toCamel, String.toList_ofList, String.length_ofList]
    exact hlength
  · exact Nat.le_of_eq (congrArg String.length hkebab)

/-! ## Names that are not recoverable -/

theorem findLead?_toKebab_of_mem_variants {name : String}
    (h : name ∈ variants (Grammar.standard.withoutLead (toKebab name))) :
    Grammar.standard.findLead? (toKebab name) = none := by
  cases hlead : Grammar.standard.findLead? (toKebab name) with
  | none => rfl
  | some lead =>
    -- a spelling of what is left has a kebab form that is too short to be this one
    obtain ⟨rest, hsplit⟩ := exists_eq_append_of_findLead?_eq_some hlead
    rw [withoutLead_of_findLead?_eq_some hlead hsplit] at h
    have hlower : ∀ c ∈ rest.toList, IsLower c := by
      intro c hc
      have hmem : c ∈ (toKebab name).toList := by
        rw [hsplit, String.toList_append]
        exact List.mem_append_right _ hc
      rw [toKebab, String.toList_ofList] at hmem
      exact isLower_of_mem_lowercase hmem
    have hlength := length_toKebab_le_of_mem_variants hlower h
    have hlonger : 0 < lead.length := by
      rcases eq_of_mem_leads (List.mem_of_find?_eq_some hlead) with rfl | rfl | rfl | rfl <;> decide
    rw [hsplit, String.length_append] at hlength
    omega

/-- A name that is denoted by all spellings it is listed under is recoverable. -/
theorem recoverable_of_matchesName {name : String}
    (h : ∀ inTemplate, ∀ written ∈ displayNames inTemplate name,
      Grammar.standard.matchesName written name) : Recoverable name := by
  have htemplate := matchesName_iff.mp (h true (toKebab name) (by simp [displayNames]))
  have hunled := findLead?_toKebab_of_mem_variants htemplate
  have hspelled : name = toKebab name ∨ name = toCamel (toKebab name) := by
    rw [withoutLead_of_findLead?_eq_none hunled] at htemplate
    simp only [variants, toKebab_toKebab, List.mem_cons, List.not_mem_nil, or_false] at htemplate
    grind
  refine ⟨hunled, hspelled, ?_⟩
  rcases hspelled with hkebab | hcamel
  · have hself : toKebab name = name := hkebab.symm
    rw [hself] at hunled ⊢
    by_cases hhyphen : '-' ∈ name.toList
    · have hscript := matchesName_iff.mp (h false (toCamel name) (by simp [displayNames, hhyphen]))
      rw [withoutLead_of_findLead?_eq_none (findLead?_toCamel hunled)] at hscript
      simp only [variants, toCamel_toCamel, List.mem_cons, List.not_mem_nil, or_false] at hscript
      rcases hscript with heq | heq | heq
      · rw [← heq, hself]
      · rw [← heq, hself]
      · exact heq.symm
    · rw [toCamel_eq_self hhyphen, hself]
  · exact congrArg toKebab hcamel.symm

example : Recoverable "my-prop" ∧ Recoverable "myProp" ∧ ¬ Recoverable "MyProp" ∧
    ¬ Recoverable "a--b" ∧ ¬ Recoverable ":size" := by decide

end ComponentAttrs.Attribute
