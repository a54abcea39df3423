import ComponentAttrs.Proofs.Attribute.Canonical
import ComponentAttrs.Proofs.Scope.Members

/-!
The listings of one component for templates and for scripts. Each attribute takes three places in the
former and one in the latter, so the two run alongside each other, however the attributes were found.

* `getElem?_flatMap_of_length`: a place in a list that is made of pieces of one length;
* `template_and_script_list_alike`: what stands at the places of one attribute.
-/
namespace ComponentAttrs.Scope

open ComponentAttrs.Attribute

/-! ## Pieces of one length -/

section

variable {α β : Type} {f : α → List β} {n : Nat}

theorem length_flatMap_of_length (h : ∀ a, (f a).length = n) (as : List α) :
    (as.flatMap f).length = n * as.length := by
  induction as with
  | nil => rfl
  | cons a as ih =>
    rw [List.flatMap_cons, List.length_append, h, ih, List.length_cons, Nat.mul_succ, Nat.add_comm]

theorem getElem?_flatMap_of_length (h : ∀ a, (f a).length = n) (as : List α) (i : Nat) {j : Nat}
    (hj : j < n) : (as.flatMap f)[n * i + j]? = as[i]?.bind fun a => (f a)[j]? := by
  induction as generalizing i with
  | nil => rfl
  | cons a as ih =>
    rw [List.flatMap_cons]
    cases i with
    | zero =>
      rw [Nat.mul_zero, Nat.zero_add, List.getElem?_append_left (by rwa [h])]
      rfl
    | succ i =>
      have hplace : n * (i + 1) + j = (f a).length + (n * i + j) := by
        rw [h, Nat.mul_succ]
        omega
      rw [hplace, List.getElem?_append_right (Nat.le_add_right _ _), Nat.add_sub_cancel_left, ih,
        List.getElem?_cons_succ]

end

/-! ## Both listings -/

variable {δ : Type}

/-- Without a hyphen a name is its own camel form. -/
theorem displayVariants_script (a : Descriptor δ) :
    displayVariants false a = [a.rename (toCamel a.name)] := by
  unfold displayVariants
  simp only [Bool.false_eq_true, ↓reduceIte]
  split
  · rfl
  · next h => rw [toCamel_eq_self fun hmem => h (List.contains_iff_mem.mpr hmem)]; rfl

variable [DecidableEq δ]

/-- **Two listings of the same attributes.** What is reported at some place stands at this place for
scripts and at three places for templates; only names differ. Its template spelling is the kebab form
of the script spelling if and only if every hyphen in front of a small letter stands directly behind
a letter or digit. -/
theorem template_and_script_list_alike (s : Scope δ) (root : Option δ) (publicOnly : Bool) :
    let own (d : δ) := s.ownAttributes d anyName publicOnly false
    let reported := root.toList.flatMap own ++ root.toList.flatMap s.directiveAttributes ++
      (reachable s.index s.links root).flatMap own
    let template := (s.attributes root publicOnly true).value
    let script := (s.attributes root publicOnly false).value
    template.length = 3 * script.length ∧ script.length = reported.length ∧
    ∀ i b, script[i]? = some b → ∃ a, reported[i]? = some a ∧ b = a.rename b.name ∧
      template[3 * i]? = some (b.rename (toKebab a.name)) ∧
      template[3 * i + 1]? = some (b.rename (":" ++ toKebab a.name)) ∧
      template[3 * i + 2]? = some (b.rename ("v-bind:" ++ toKebab a.name)) ∧
      (toKebab b.name = toKebab a.name ↔ HyphensJoin a.name) ∧
      ((∀ front back, a.name.toList = front ++ '-' :: back → front.getLast?.any Char.isAlphanum) →
        toKebab b.name = toKebab a.name) := by
  intro own reported template script
  have htemplate : template = reported.flatMap (displayVariants true) := attributes_value ..
  have hscript : script = reported.map fun a => a.rename (toCamel a.name) := by
    have h : script = reported.flatMap (displayVariants false) := attributes_value ..
    rw [h, List.map_eq_flatMap]
    exact congrArg (reported.flatMap ·) (funext displayVariants_script)
  have hthree : ∀ a : Descriptor δ, (displayVariants true a).length = 3 := fun _ => rfl
  have hlength : script.length = reported.length := by rw [hscript, List.length_map]
  refine ⟨?_, hlength, ?_⟩
  · rw [htemplate, length_flatMap_of_length hthree, hlength]
  · intro i b hb
    rw [hscript, List.getElem?_map, Option.map_eq_some_iff] at hb
    obtain ⟨a, ha, rfl⟩ := hb
    have hplace : ∀ j < 3, template[3 * i + j]? = (displayVariants true a)[j]? := by
      intro j hj
      rw [htemplate, getElem?_flatMap_of_length hthree _ _ hj, ha, Option.bind_some]
    have hback : toKebab (toCamel a.name) = toKebab a.name ↔ HyphensJoin a.name :=
      toKebab_toCamel_eq_iff
    exact ⟨a, ha, rfl, hplace 0 (by decide), hplace 1 (by decide), hplace 2 (by decide), hback,
      fun h => hback.mpr (.of_forall h)⟩

end ComponentAttrs.Scope
