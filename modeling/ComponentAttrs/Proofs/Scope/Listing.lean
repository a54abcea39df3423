import ComponentAttrs.Proofs.Walk.Reachability
import ComponentAttrs.Scope.Basic

/-!
What a listing is made of. It is collected on the way, by a visitor that adds to it; here it is one
expression in the root and the definitions reachable from it.
-/
namespace ComponentAttrs.Scope

variable {δ : Type} [DecidableEq δ]

/-- The attributes as they are declared: the root's own and its directives, then the own attributes
of each reachable definition. -/
theorem attributes_value (s : Scope δ) (root : Option δ) (publicOnly inTemplate : Bool) :
    (s.attributes root publicOnly inTemplate).value =
      ((root.toList.flatMap fun d => s.ownAttributes d anyName publicOnly false) ++
        root.toList.flatMap s.directiveAttributes ++
        (reachable s.index s.links root).flatMap fun d =>
          s.ownAttributes d anyName publicOnly false).flatMap (displayVariants inTemplate) := by
  have hwalk := walk_observe s.index s.links root
    (fun found d => found ++ s.ownAttributes d anyName publicOnly false)
    (root.toList.flatMap fun d =>
      s.ownAttributes d anyName publicOnly false ++ s.directiveAttributes d)
  have hmemory := congrArg Walk.memory hwalk
  have hroot : (root.toList.flatMap fun d =>
      s.ownAttributes d anyName publicOnly false ++ s.directiveAttributes d) =
        (root.toList.flatMap fun d => s.ownAttributes d anyName publicOnly false) ++
          root.toList.flatMap s.directiveAttributes := by
    cases root <;> simp
  simp only [List.foldl_append_eq_append, ← List.flatMap_def] at hmemory
  rw [← hroot]
  exact congrArg (List.flatMap (displayVariants inTemplate)) hmemory

/-- **Each contribution once.** The root lists its own attributes and its directives, every
reachable definition its own attributes, in the order of visits. No answer counts as no attributes.
The root and the reachable definitions are distinct, however they refer to each other. -/
theorem attributes_eq_contributions (s : Scope δ) (root : Option δ)
    (publicOnly inTemplate : Bool) :
    let own (d : δ) := (s.own.attributes d anyName publicOnly false).getD []
    let directives (d : δ) := (s.directives.bind fun source => source.attributes d).getD []
    let composed := reachable s.index s.links root
    (s.attributes root publicOnly inTemplate).value =
      (root.toList.flatMap own ++ root.toList.flatMap directives ++ composed.flatMap own).flatMap
        (displayVariants inTemplate) ∧
    (root.toList ++ composed).Nodup ∧
    ∀ d, d ∈ root.toList ++ composed ↔ some d = root ∨ Reaches s.index s.links root d :=
  ⟨attributes_value s root publicOnly inTemplate,
    nodup_root_append_reachable s.index s.links root,
    fun _ => mem_root_append_reachable s.index s.links root⟩

end ComponentAttrs.Scope
