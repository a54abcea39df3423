import ComponentAttrs.Proofs.Walk.Expansion

/-!
References that make no difference to a walk: those that stand for nothing, and those for what an
earlier one of their row stands for. Nor does a link that is followed a second time.

* `fresh_tidyRow`, `fresh_targets_eraseDups`: an expansion finds the same without them;
* `walk_tidy_sameVisits`: so does every walk.
-/
namespace ComponentAttrs

variable {σ δ : Type} [DecidableEq δ]

/-! ## The tidy index -/

namespace Index

/-- The references of a row that stand for something, each target only at its first place. `seen` are
the targets of the row so far. -/
def tidyRow (ix : Index δ) (seen : List δ) : List (Reference δ) → List (Reference δ)
  | [] => []
  | r :: rest =>
    match ix.find r with
    | none => ix.tidyRow seen rest
    | some d => if d ∈ seen then ix.tidyRow seen rest else r :: ix.tidyRow (d :: seen) rest

/-- The same index with all its rows tidied up. -/
def tidy (ix : Index δ) : Index δ :=
  { ix with
    localMixins d := (ix.localMixins d).map (ix.tidyRow [])
    globalMixins := ix.globalMixins.map (ix.tidyRow [])
    extensions d := (ix.extensions d).map (ix.tidyRow []) }

theorem row_tidy (ix : Index δ) (kind : LinkKind) (source : Option δ) :
    ix.tidy.row kind source = ix.tidyRow [] (ix.row kind source) := by
  have hrow : ∀ row : Option (List (Reference δ)),
      (row.map (ix.tidyRow [])).getD [] = ix.tidyRow [] (row.getD []) := by
    intro row
    cases row <;> rfl
  cases kind with
  | globalMixin => exact hrow _
  | localMixin | extension =>
    cases source with
    | none => rfl
    | some d => exact hrow _

/-! ## One expansion -/

/-- What was seen is reached, so that leaving it out changes nothing that is found. -/
theorem fresh_tidyRow (ix : Index δ) {unreached seen : List δ} (h : ∀ d ∈ seen, d ∉ unreached)
    (refs : List (Reference δ)) :
    fresh unreached ((ix.tidyRow seen refs).filterMap ix.find) =
      fresh unreached (refs.filterMap ix.find) := by
  induction refs generalizing unreached seen with
  | nil => rfl
  | cons r rest ih =>
    unfold tidyRow
    cases hr : ix.find r with
    | none => rw [List.filterMap_cons_none hr, ih h]
    | some d =>
      rw [List.filterMap_cons_some hr]
      by_cases hseen : d ∈ seen
      · simp only [hseen, ↓reduceIte]
        rw [ih h, fresh_cons_of_not_mem (h d hseen)]
      · simp only [hseen, ↓reduceIte]
        rw [List.filterMap_cons_some hr]
        by_cases hd : d ∈ unreached
        · rw [fresh_cons_of_mem hd, fresh_cons_of_mem hd, ih]
          intro c hc
          rcases List.mem_cons.mp hc with rfl | hc
          · simp
          · exact fun hmem => h c hc (List.mem_filter.mp hmem).1
        · rw [fresh_cons_of_not_mem hd, fresh_cons_of_not_mem hd, ih]
          exact List.forall_mem_cons.mpr ⟨hd, h⟩

theorem fresh_targets_tidy (ix : Index δ) (links : List LinkKind) (source : Option δ)
    (unreached : List δ) :
    fresh unreached (ix.tidy.targets links source) = fresh unreached (ix.targets links source) := by
  induction links generalizing unreached with
  | nil => rfl
  | cons kind links ih =>
    have hrow : fresh unreached ((ix.tidyRow [] (ix.row kind source)).filterMap ix.find) =
        fresh unreached ((ix.row kind source).filterMap ix.find) :=
      ix.fresh_tidyRow (List.forall_mem_nil _) _
    rw [targets_cons, targets_cons, fresh_append, fresh_append, row_tidy, ih]
    exact congrArg (fun new => new ++ fresh (unreached.filter (· ∉ new)) _) hrow

/-- The second time a link is followed from the same entry it leads to nothing new. -/
theorem fresh_targets_eraseDups (ix : Index δ) (links : List LinkKind) (source : Option δ)
    (unreached : List δ) :
    fresh unreached (ix.targets links.eraseDups source) =
      fresh unreached (ix.targets links source) := by
  match links with
  | [] => rfl
  | kind :: links =>
    have hreached : ∀ d ∈ (ix.row kind source).filterMap ix.find,
        d ∉ unreached.filter (· ∉ fresh unreached ((ix.row kind source).filterMap ix.find)) := by
      intro d hd hmem
      obtain ⟨hunreached, hnew⟩ := List.mem_filter.mp hmem
      exact of_decide_eq_true hnew (mem_fresh_iff.mpr ⟨hd, hunreached⟩)
    have hfilter : (links.filter fun k => !k == kind) = links.filter (· ≠ kind) := by
      apply List.filter_congr
      intro k _
      rw [Bool.eq_iff_iff]
      simp
    rw [List.eraseDups_cons, targets_cons, targets_cons, fresh_append, fresh_append, hfilter,
      fresh_targets_eraseDups, fresh_targets_filter_ne hreached]
termination_by links.length
decreasing_by exact Nat.lt_succ_of_le (List.length_filter_le _ _)

theorem fresh_targets_tidy_eraseDups (ix : Index δ) (links : List LinkKind) (source : Option δ)
    (unreached : List δ) :
    fresh unreached (ix.tidy.targets links.eraseDups source) =
      fresh unreached (ix.targets links source) := by
  rw [fresh_targets_tidy, fresh_targets_eraseDups]

end Index

/-! ## Whole walks -/

theorem reachable_tidy (ix : Index δ) (links : List LinkKind) (root : Option δ) :
    reachable ix.tidy links.eraseDups root = reachable ix links root := by
  have hroot := visitsOf_walkThen_watch ix ix links root
  have htidy := visitsOf_walkThen_watch ix.tidy ix.tidy links.eraseDups root
  have hinitial : Frontier.initial ix.tidy root () = Frontier.initial ix root () := rfl
  simp only [hinitial, ix.fresh_targets_tidy_eraseDups] at htidy
  rw [visitsOf_drain_congr _ fun unreached _ d =>
    ix.fresh_targets_tidy_eraseDups links (some d) unreached] at htidy
  exact htidy.trans hroot.symm

/-- **Stale and repeated references never count.** Through the tidy index, along each link once, a
walk visits the same definitions in the same order and ends the same, whatever its visitor. -/
theorem walk_tidy_sameVisits (ix : Index δ) (links : List LinkKind) (root : Option δ)
    (visit : Visitor σ δ) (memory : σ) :
    (walk ix.tidy links.eraseDups root visit memory).SameVisits
      (walk ix links root visit memory) := by
  rw [walk_eq_replay ix.tidy, walk_eq_replay ix]
  exact .of_replay (reachable_tidy ix links root) visit memory

end ComponentAttrs
