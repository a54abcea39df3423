import ComponentAttrs.Proofs.Attribute.Canonical
import ComponentAttrs.Proofs.Scope.Directives

/-!
Directives by their canonical names. Behind `v-` a name may be written in kebab or camel case, with
an argument or modifiers behind it; a directive may be declared in any spelling. What counts are the
kebab forms: the first directive with that of the written name is found, and the component's own come
before global ones.
-/
namespace ComponentAttrs.Catalog

open ComponentAttrs.Attribute

/-- The first of some directives that has the kebab form of a wanted name, as it is described. It is
shown in kebab case behind `v-` and keeps the name that it is declared by. -/
def firstNamed (names : List String) (owner : Option Component) (wanted : String) :
    Option (Descriptor Component) :=
  (names.find? fun name => toKebab name = toKebab wanted).map fun name =>
    ⟨"v-" ++ toKebab wanted, name, owner, .directive, true, false⟩

theorem map_find?_directiveDescriptor (names : List String) (owner : Option Component)
    (wanted : String) :
    (names.find? fun name => toKebab name = toKebab wanted).map (directiveDescriptor · owner) =
      firstNamed names owner wanted := by
  apply Option.map_congr
  intro name hname
  have hsame : toKebab name = toKebab wanted := by simpa using List.find?_some hname
  rw [directiveDescriptor, hsame, directiveLead]

/-- **Directives by canonical name.** A name finds the first directive with its kebab form, among
those of the component and then among the global ones, which have no owner. Its hyphens have to join,
as they do if each stands directly behind a letter or digit. -/
theorem resolveDirective_eq_firstNamed (c : Catalog) (d : Option Component) {wanted tail : String}
    (hwanted : Whole wanted) (hjoin : HyphensJoin wanted) (htail : EndsName tail) :
    c.resolveDirective d ("v-" ++ wanted ++ tail) =
      (firstNamed (((c.entry? d).map Entry.directives).getD []) d wanted).or
        (firstNamed c.globalDirectives none wanted) := by
  have hread : directiveName? ("v-" ++ wanted ++ tail) = some wanted := by
    rw [String.append_assoc]
    exact directiveName?_of_endsName hwanted htail
  have hanswers : ∀ name, ((variants wanted).contains name ||
      (variants wanted).contains (toKebab name)) = decide (toKebab name = toKebab wanted) := by
    intro name
    rw [Bool.eq_iff_iff, Bool.or_eq_true, List.contains_iff_mem, List.contains_iff_mem,
      decide_eq_true_iff]
    exact mem_variants_or_toKebab_mem_iff hjoin
  simp only [resolveDirective, hread, Option.bind_some, hanswers, directivesOf, List.find?_append,
    List.find?_map, Function.comp_def, Option.map_or, Option.map_map]
  rw [map_find?_directiveDescriptor, map_find?_directiveDescriptor]

/-- The component's own directive is found in front of a global one, in the case of letters that it
is declared in; without the component the global one is. -/
theorem own_directive_found_before_global :
    let c : Catalog := { withDirective "autoFocus" with globalDirectives := ["AutoFocus"] }
    (Whole "auto-focus" ∧ HyphensJoin "auto-focus" ∧ EndsName ":now.once") ∧
    c.resolveDirective (some box) ("v-" ++ "auto-focus" ++ ":now.once") =
      some ⟨"v-auto-focus", "autoFocus", some box, .directive, true, false⟩ ∧
    c.resolveDirective none ("v-" ++ "auto-focus" ++ ":now.once") =
      some ⟨"v-auto-focus", "AutoFocus", none, .directive, true, false⟩ := by
  intro c
  have hwanted : Whole "auto-focus" := by decide
  have hjoin : HyphensJoin "auto-focus" := by decide
  have htail : EndsName ":now.once" := by decide
  refine ⟨⟨hwanted, hjoin, htail⟩, ?_, ?_⟩
  · rw [resolveDirective_eq_firstNamed c (some box) hwanted hjoin htail]
    decide
  · rw [resolveDirective_eq_firstNamed c none hwanted hjoin htail]
    decide

end ComponentAttrs.Catalog
