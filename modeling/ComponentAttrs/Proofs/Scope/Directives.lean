import Mathlib.Data.List.Basic
import Mathlib.Data.List.TakeWhile
import ComponentAttrs.Proofs.Scope.Modifier

/-!
Looking up directives as they are listed. A listing spells a directive as it spells any attribute:
in templates in kebab case, also behind the leads for bound attributes, in scripts in camel case. A
lookup takes a name for a directive only if it starts with `v-`, and reads it up to an argument or a
modifier.

* `resolve_isSome_iff`: when a lookup finds anything;
* `mem_directivesOf_of_mem_attributes`: whose directives a listing spells, and how;
* `listed_directive_found_iff`: which of these spellings are found;
* `bound_directive_not_found`: a directive behind a colon is listed and not found.
-/
namespace ComponentAttrs

open ComponentAttrs.Attribute ComponentAttrs.Text

namespace Attribute

/-! ## Spellings behind a lead -/

theorem hyphenate_ne_nil (before : Option Char) {cs : List Char} (h : cs ≠ []) :
    hyphenate before cs ≠ [] := by
  cases cs with
  | nil => exact absurd rfl h
  | cons c cs =>
    unfold hyphenate
    split
    · exact List.cons_ne_nil _ _
    · exact List.cons_ne_nil _ _

theorem lowercase_ne_nil {cs : List Char} (h : cs ≠ []) : lowercase cs ≠ [] := by
  cases cs with
  | nil => exact absurd rfl h
  | cons c cs =>
    have hletter : lowerLetter c ≠ [] := by
      unfold lowerLetter
      split
      · exact List.cons_ne_nil _ _
      · exact List.cons_ne_nil _ _
    rw [lowercase, lowerAfter]
    split
    · exact List.cons_ne_nil _ _
    · exact List.append_ne_nil_of_left_ne_nil hletter _

theorem toKebab_ne_empty {name : String} (h : name ≠ "") : toKebab name ≠ "" := by
  have hchars : name.toList ≠ [] := by simpa using h
  have hkebab : kebabChars name.toList ≠ [] := lowercase_ne_nil (hyphenate_ne_nil none hchars)
  simpa [toKebab] using hkebab

theorem toCamel_ne_empty {name : String} (h : name ≠ "") : toCamel name ≠ "" := by
  have hchars : name.toList ≠ [] := by simpa using h
  obtain ⟨c, cs, hname⟩ := List.exists_cons_of_ne_nil hchars
  obtain ⟨d, ds, hcamel, _⟩ := camelChars_cons c cs
  simp [toCamel, hname, hcamel]

/-- A name that is read to its end: there is one, and no argument or modifier breaks it off. -/
structure Whole (name : String) : Prop where
  nonempty : name ≠ ""
  no_argument : ':' ∉ name.toList
  no_modifier : '.' ∉ name.toList

instance (name : String) : Decidable (Whole name) :=
  decidable_of_iff (name ≠ "" ∧ ':' ∉ name.toList ∧ '.' ∉ name.toList)
    ⟨fun ⟨hne, hcolon, hdot⟩ => ⟨hne, hcolon, hdot⟩,
      fun h => ⟨h.nonempty, h.no_argument, h.no_modifier⟩⟩

theorem Whole.of_mem_variants {name spelling : String} (h : Whole name)
    (hs : spelling ∈ variants name) : Whole spelling where
  nonempty := by
    simp only [variants, List.mem_cons, List.not_mem_nil, or_false] at hs
    rcases hs with rfl | rfl | rfl
    · exact h.nonempty
    · exact toCamel_ne_empty h.nonempty
    · exact toKebab_ne_empty h.nonempty
  no_argument := by
    rw [mem_toList_of_mem_variants (by decide) hs]
    exact h.no_argument
  no_modifier := by
    rw [mem_toList_of_mem_variants (by decide) hs]
    exact h.no_modifier

theorem isLower_of_mem_toKebab {name : String} {c : Char} (h : c ∈ (toKebab name).toList) :
    IsLower c := by
  rw [toKebab, String.toList_ofList] at h
  exact isLower_of_mem_lowercase h

/-- Does a name begin with a letter that can take up a hyphen in front of it? -/
def startsSmall (name : String) : Bool := name.toList.head?.any isSmallLetter

end Attribute

namespace Catalog

open ComponentAttrs.Scope

/-! ## Names that directives are written with -/

@[simp] theorem toList_directiveLead : directiveLead.toList = ['v', '-'] := rfl

theorem toList_directiveLead_append (name : String) :
    (directiveLead ++ name).toList = 'v' :: '-' :: name.toList := by simp

theorem toKebab_directiveLead_append (name : String) :
    toKebab (directiveLead ++ toKebab name) = directiveLead ++ toKebab name := by
  have hlower : ∀ c ∈ (directiveLead ++ toKebab name).toList, IsLower c := by
    intro c hc
    simp only [toList_directiveLead_append, List.mem_cons] at hc
    rcases hc with rfl | rfl | hc
    · decide
    · decide
    · exact isLower_of_mem_toKebab hc
  rw [toKebab, kebabChars_eq_self hlower, String.ofList_toList]

theorem directiveName?_eq_none {written : String}
    (h : ¬ directiveLead.toList <+: written.toList) : directiveName? written = none := by
  have hnone : directiveLead.toList.isPrefixOf? written.toList = none := by
    rwa [← Option.not_isSome_iff_eq_none, List.isSome_isPrefixOf?_eq_isPrefixOf,
      List.isPrefixOf_iff_prefix]
  rw [directiveName?, hnone, Option.bind_none]

/-- What may follow the name of a directive: nothing, an argument or a modifier. -/
def EndsName (tail : String) : Prop :=
  tail = "" ∨ tail.toList.head? = some ':' ∨ tail.toList.head? = some '.'

instance (tail : String) : Decidable (EndsName tail) := inferInstanceAs (Decidable (_ ∨ _))

theorem directiveName?_of_endsName {name tail : String} (h : Whole name) (htail : EndsName tail) :
    directiveName? (directiveLead ++ (name ++ tail)) = some name := by
  have hname : ∀ c ∈ name.toList, (c ≠ ':' && c ≠ '.') = true := by
    intro c hc
    have hcolon : c ≠ ':' := fun heq => h.no_argument (heq ▸ hc)
    have hdot : c ≠ '.' := fun heq => h.no_modifier (heq ▸ hc)
    simp [hcolon, hdot]
  have hend : tail.toList.takeWhile (fun c => c ≠ ':' && c ≠ '.') = [] := by
    rcases htail with rfl | hhead | hhead
    · rfl
    · obtain ⟨rest, hrest⟩ := List.head?_eq_some_iff.mp hhead
      simp [hrest]
    · obtain ⟨rest, hrest⟩ := List.head?_eq_some_iff.mp hhead
      simp [hrest]
  have hkept : (name ++ tail).toList.takeWhile (fun c => c ≠ ':' && c ≠ '.') = name.toList := by
    rw [String.toList_append, List.takeWhile_append_of_pos hname, hend, List.append_nil]
  have hbehind : directiveLead.toList.isPrefixOf? (directiveLead ++ (name ++ tail)).toList =
      some (name ++ tail).toList := by
    rw [toList_directiveLead_append]
    rfl
  simp only [directiveName?, hbehind, Option.bind_some, hkept]
  simp [h.nonempty]

theorem directiveName?_directiveLead_append {name : String} (h : Whole name) :
    directiveName? (directiveLead ++ name) = some name := by
  simpa using directiveName?_of_endsName h (.inl rfl)

/-- In camel case a directive keeps its lead only if the hyphen has no letter to go into. -/
theorem directiveName?_toCamel {name : String} (h : Whole name) :
    directiveName? (toCamel (directiveLead ++ name)) =
      if startsSmall name then none else some (toCamel name) := by
  rw [toCamel, toList_directiveLead_append, camelChars_cons_of_ne (by decide)]
  split
  · next hsmall =>
    -- the letter is raised, so that behind the v comes a capital letter
    unfold startsSmall at hsmall
    cases hname : name.toList with
    | nil => simp [hname] at hsmall
    | cons d rest =>
      have hd : isSmallLetter d := by simpa [hname] using hsmall
      have hcapital : '-' ≠ d.toUpper :=
        (ne_hyphen_of_isCapitalLetter (isCapitalLetter_toUpper hd)).symm
      rw [camelChars_hyphen_cons_of_isSmallLetter hd]
      apply directiveName?_eq_none
      simp [hcapital]
  · next hlarge =>
    -- there is nothing to fold, and the rest is spelled on its own
    have hspelled : toCamel name ∈ variants name := by simp [variants]
    have hlead : String.ofList ('v' :: '-' :: camelChars name.toList) =
        directiveLead ++ toCamel name := by
      rw [← String.toList_inj, toList_directiveLead_append, String.toList_ofList, toCamel,
        String.toList_ofList]
    rw [camelChars_hyphen_of_not_isSmallLetter hlarge, hlead]
    exact directiveName?_directiveLead_append (h.of_mem_variants hspelled)

theorem findLead?_directiveLead_append {name : String} (h : Whole name) :
    Grammar.standard.findLead? (directiveLead ++ name) = none := by
  apply findLead?_eq_none_of_head?_ne
  · simpa using h.no_argument
  · simp

/-! ## What a lookup finds -/

section

variable (c : Catalog) (root : Option Component) (publicOnly : Bool)

/-- Some attribute of the component, own or inherited, is declared under a spelling of the name. -/
def Declares (name : String) : Prop :=
  ∃ d ∈ c.scope.members root, ∃ a ∈ c.ownAttributes d anyName publicOnly false,
    a.name ∈ variants name

/-- Some directive of the component answers to the name, itself or in kebab case. -/
def HasDirective (name : String) : Prop :=
  ∃ own ∈ (c.directivesOf root).map Prod.fst, own ∈ variants name ∨ toKebab own ∈ variants name

variable {c root publicOnly}

theorem resolveDirective_isSome_iff {written : String} :
    (c.resolveDirective root written).isSome ↔
      ∃ name, directiveName? written = some name ∧ c.HasDirective root name := by
  unfold resolveDirective
  cases directiveName? written with
  | none => simp
  | some name =>
    simp only [Option.bind_some, Option.isSome_map, List.find?_isSome]
    simp [HasDirective]

/-- **What a lookup finds.** It finds something if an attribute is declared under a spelling of what
is written behind the lead, or if what is written names a directive, and only then. -/
theorem resolve_isSome_iff {written : String} :
    (c.scope.resolve root written publicOnly).isSome ↔
      c.Declares root publicOnly (Grammar.standard.withoutLead written) ∨
        ∃ name, directiveName? written = some name ∧ c.HasDirective root name := by
  have hdeclares : ((c.scope.members root).findSome?
      (c.scope.firstMatch written publicOnly)).isSome ↔
      c.Declares root publicOnly (Grammar.standard.withoutLead written) := by
    rw [List.findSome?_isSome_iff]
    simp only [firstMatch, List.find?_isSome]
    have hmatches : ∀ declared, c.scope.grammar.matchesName written declared ↔
        declared ∈ variants (Grammar.standard.withoutLead written) := fun _ => matchesName_iff
    simp only [hmatches]
    rfl
  rw [resolve_eq written publicOnly (c.selects_of_own_eq rfl), Option.isSome_or, Bool.or_eq_true,
    hdeclares, ← resolveDirective_isSome_iff]
  rfl

/-- Behind a lead only the lead itself can name a directive. -/
theorem resolve_append_isSome_iff {lead : String} (h : lead ∈ Grammar.standard.leads)
    (after : String) :
    (c.scope.resolve root (lead ++ after) publicOnly).isSome ↔
      c.Declares root publicOnly after ∨
        ∃ name, directiveName? lead = some name ∧ c.HasDirective root name := by
  have hread : directiveName? (lead ++ after) = directiveName? lead := by
    simpa using directiveName?_append h after ""
  rw [resolve_isSome_iff, withoutLead_append h, hread]

/-- Behind `v-` a directive is found under its kebab form. -/
theorem resolve_directiveLead_isSome {own : String}
    (hown : own ∈ (c.directivesOf root).map Prod.fst) (h : Whole (toKebab own)) :
    (c.scope.resolve root (directiveLead ++ toKebab own) publicOnly).isSome := by
  have hitself : c.HasDirective root (toKebab own) := ⟨own, hown, .inr (List.mem_cons_self ..)⟩
  have hread := directiveName?_directiveLead_append h
  exact resolve_isSome_iff.mpr (.inr ⟨_, hread, hitself⟩)

/-- In camel case a directive is recognised only if the hyphen of its lead is still there. -/
theorem resolve_toCamel_isSome_iff {name : String} (h : Whole name) :
    (c.scope.resolve root (toCamel (directiveLead ++ name)) publicOnly).isSome ↔
      c.Declares root publicOnly (toCamel (directiveLead ++ name)) ∨
        ¬ startsSmall name ∧ c.HasDirective root (toCamel name) := by
  have hunled := findLead?_toCamel (findLead?_directiveLead_append h)
  rw [resolve_isSome_iff, withoutLead_of_findLead?_eq_none hunled, directiveName?_toCamel h]
  cases startsSmall name <;> simp

end

/-! ## What a listing spells -/

/-- Directives are listed for the component that has them, under spellings of their kebab form. -/
theorem mem_directivesOf_of_mem_attributes {c : Catalog} {root : Option Component}
    {publicOnly inTemplate : Bool} {a : Descriptor Component}
    (ha : a ∈ (c.scope.attributes root publicOnly inTemplate).value) (hkind : a.kind = .directive) :
    a.declaredName ∈ (c.directivesOf root).map Prod.fst ∧
      a.name ∈ displayNames inTemplate (directiveLead ++ toKebab a.declaredName) := by
  obtain ⟨b, hspelled, ⟨d, _, hb⟩ | ⟨d, hd, hb⟩⟩ := c.exists_of_mem_attributes ha
  · obtain ⟨name, _, rfl⟩ := mem_displayVariants_iff.mp hspelled
    have hbkind : b.kind = .directive := hkind
    exact absurd hbkind (c.kind_of_mem_ownAttributes hb)
  · obtain rfl := hd
    obtain ⟨⟨own, owner⟩, hown, rfl⟩ := List.mem_map.mp hb
    obtain ⟨name, hname, rfl⟩ := mem_displayVariants_iff.mp hspelled
    exact ⟨List.mem_map_of_mem hown, hname⟩

theorem displayNames_directiveLead (inTemplate : Bool) (name : String) :
    let listed := directiveLead ++ toKebab name
    displayNames inTemplate listed =
      if inTemplate then [listed, ":" ++ listed, "v-bind:" ++ listed] else [toCamel listed] := by
  intro listed
  have hhyphen : '-' ∈ listed.toList := by simp [listed]
  rw [displayNames, toKebab_directiveLead_append, if_pos (List.contains_iff_mem.mpr hhyphen)]

/-- **Which listed directives are found.** In kebab case behind `v-` each of them is. Behind the
lead of a bound attribute it is found only if an attribute is declared under such a name, or through
a directive called `bind`, which the longer lead spells out. In camel case the hyphen of `v-` goes
into a small letter that follows, and then no directive is recognised. -/
theorem listed_directive_found_iff (c : Catalog) (root : Option Component)
    (publicOnly inTemplate : Bool) {a : Descriptor Component}
    (ha : a ∈ (c.scope.attributes root publicOnly inTemplate).value) (hkind : a.kind = .directive)
    (hwhole : Whole a.declaredName) :
    let kebab := toKebab a.declaredName
    let listed := directiveLead ++ kebab
    let found := (c.scope.resolve root a.name publicOnly).isSome
    if inTemplate then
      (a.name = listed ∧ found) ∨
      (a.name = ":" ++ listed ∧ (found ↔ c.Declares root publicOnly listed)) ∨
      (a.name = "v-bind:" ++ listed ∧
        (found ↔ c.Declares root publicOnly listed ∨ c.HasDirective root "bind"))
    else
      a.name = toCamel listed ∧
      (found ↔ c.Declares root publicOnly (toCamel listed) ∨
        ¬ startsSmall kebab ∧ c.HasDirective root (toCamel kebab)) := by
  intro kebab listed found
  obtain ⟨hown, hspelled⟩ := mem_directivesOf_of_mem_attributes ha hkind
  rw [displayNames_directiveLead] at hspelled
  have hkebab : Whole kebab := hwhole.of_mem_variants (by simp [kebab, variants])
  cases inTemplate with
  | true =>
    have hlisted : a.name = listed ∨ a.name = ":" ++ listed ∨ a.name = "v-bind:" ++ listed := by
      simpa using hspelled
    rw [if_pos rfl]
    rcases hlisted with hname | hname | hname
    · refine .inl ⟨hname, ?_⟩
      have hfound : (c.scope.resolve root listed publicOnly).isSome :=
        resolve_directiveLead_isSome hown hkebab
      rwa [← hname] at hfound
    · have hread : directiveName? ":" = none := rfl
      have hiff : found ↔ c.Declares root publicOnly listed := by
        simp [found, hname, resolve_append_isSome_iff, Grammar.leads, Grammar.standard, hread]
      exact .inr (.inl ⟨hname, hiff⟩)
    · have hread : directiveName? "v-bind:" = some "bind" := rfl
      have hiff : found ↔ c.Declares root publicOnly listed ∨ c.HasDirective root "bind" := by
        simp [found, hname, resolve_append_isSome_iff, Grammar.leads, Grammar.standard, hread]
      exact .inr (.inr ⟨hname, hiff⟩)
  | false =>
    have hname : a.name = toCamel listed := by simpa using hspelled
    have hiff : found ↔ c.Declares root publicOnly (toCamel listed) ∨
        ¬ startsSmall kebab ∧ c.HasDirective root (toCamel kebab) := by
      have hfound : found = (c.scope.resolve root (toCamel listed) publicOnly).isSome := by
        rw [← hname]
      rw [hfound]
      exact resolve_toCamel_isSome_iff hkebab
    rw [if_neg Bool.false_ne_true]
    exact ⟨hname, hiff⟩

/-! ## A component with one directive -/

/-- A catalog of one component that declares one directive. -/
def withDirective (name : String) : Catalog where
  entries := [{ Entry.blank "box" with directives := [name] }]
  globalMixins := []
  globalDirectives := []
  sourcePath := none
  names_nodup := by simp

theorem reachable_withDirective (name : String) :
    reachable (withDirective name).index standardLinks (some box) = [] :=
  reachable_eq_nil rfl

theorem not_declares_withDirective (name written : String) :
    ¬ (withDirective name).Declares (some box) false written := by
  rintro ⟨d, hd, a, ha, _⟩
  have hmembers : (withDirective name).scope.members (some box) = [box] :=
    congrArg (box :: ·) (reachable_withDirective name)
  rw [hmembers, List.mem_singleton] at hd
  subst hd
  exact nomatch ha

theorem attributes_withDirective (name : String) (inTemplate : Bool) :
    ((withDirective name).scope.attributes (some box) false inTemplate).value =
      displayVariants inTemplate (directiveDescriptor name (some box)) := by
  have hnone : reachable (withDirective name).scope.index (withDirective name).scope.links
      (some box) = [] := reachable_withDirective name
  rw [attributes_value, hnone]
  exact List.append_nil _

/-- A directive that is found as it is listed. -/
theorem directive_found_in_kebab_case :
    let c := withDirective "focus"
    let a := directiveDescriptor "focus" (some box)
    (a ∈ (c.scope.attributes (some box) false true).value ∧ a.kind = .directive ∧
      Whole a.declaredName) ∧
    (c.scope.resolve (some box) a.name false).isSome := by
  intro c a
  have ha : a ∈ (c.scope.attributes (some box) false true).value := by
    rw [attributes_withDirective]
    decide
  have hwhole : Whole a.declaredName := by decide
  refine ⟨⟨ha, rfl, hwhole⟩, ?_⟩
  rcases listed_directive_found_iff c (some box) false true ha rfl hwhole with
    ⟨_, hfound⟩ | ⟨hname, _⟩ | ⟨hname, _⟩
  · exact hfound
  · exact absurd hname (by decide)
  · exact absurd hname (by decide)

/-- A directive is listed behind a colon, and nothing is found under that. -/
theorem bound_directive_not_found :
    let c := withDirective "focus"
    (∃ document, Catalog.ofValue none document = .ok c) ∧
    (∀ own ∈ c.globalDirectives ++ c.entries.flatMap Entry.directives, Whole own) ∧
    ∃ a ∈ (c.scope.attributes (some box) false true).value,
      a.kind = .directive ∧ a.name = ":v-focus" ∧
        c.scope.resolve (some box) a.name false = none := by
  intro c
  have hdocument : Catalog.ofValue none (.record [("components", .record
      [("box", .record [("directives", .list none [.text "focus"])])])]) = .ok c := rfl
  have hlisted : (directiveDescriptor "focus" (some box)).rename ":v-focus" ∈
      (c.scope.attributes (some box) false true).value := by
    rw [attributes_withDirective]
    decide
  have hnone : c.scope.resolve (some box) (":" ++ "v-focus") false = none := by
    rw [← Option.not_isSome_iff_eq_none, resolve_append_isSome_iff (by decide)]
    rintro (hdeclared | ⟨name, hread, _⟩)
    · exact not_declares_withDirective _ _ hdeclared
    · have hunread : directiveName? ":" = none := rfl
      rw [hunread] at hread
      cases hread
  exact ⟨⟨_, hdocument⟩, by decide, _, hlisted, rfl, rfl, hnone⟩

end Catalog

end ComponentAttrs
