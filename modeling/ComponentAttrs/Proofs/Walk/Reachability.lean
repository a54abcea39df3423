import ComponentAttrs.Proofs.Walk.Layers

/-!
What a walk visits: the definitions that references lead to from the root, each once, and never the
root itself.
-/
namespace ComponentAttrs

variable {σ δ : Type}

/-- References lead from the root to a definition, one or more of them. -/
inductive Reaches (ix : Index δ) (links : List LinkKind) (root : Option δ) : δ → Prop
  | direct {d : δ} : d ∈ ix.targets links root → Reaches ix links root d
  | onward {c d : δ} : Reaches ix links root c → d ∈ ix.targets links (some c) →
      Reaches ix links root d

section

variable {ix : Index δ} {links : List LinkKind} {root : Option δ} {d : δ}

theorem Reaches.reachedBy (h : Reaches ix links root d) :
    ∃ n, ReachedBy ix links root (n + 1) (some d) := by
  induction h with
  | direct hd => exact ⟨0, .onward .start hd⟩
  | onward _ hd ih =>
    obtain ⟨n, hn⟩ := ih
    exact ⟨n + 1, .onward hn hd⟩

theorem ReachedBy.reaches {n : Nat} (h : ReachedBy ix links root (n + 1) (some d)) :
    Reaches ix links root d := by
  induction n generalizing d with
  | zero =>
    cases h with
    | onward hc hd =>
      cases hc with
      | start => exact .direct hd
  | succ n ih =>
    cases h with
    | onward hc hd =>
      cases hc with
      | onward hb hc => exact .onward (ih (.onward hb hc)) hd

theorem Reaches.trans {c : δ} (hc : Reaches ix links root c) (hd : Reaches ix links (some c) d) :
    Reaches ix links root d := by
  induction hd with
  | direct hd => exact .onward hc hd
  | onward _ hd ih => exact .onward ih hd

theorem Reaches.mono {more : List LinkKind} (hlinks : links ⊆ more) (h : Reaches ix links root d) :
    Reaches ix more root d := by
  have htargets : ∀ source, ix.targets links source ⊆ ix.targets more source := by
    intro source e he
    obtain ⟨kind, hkind, hr⟩ := Index.mem_targets.mp he
    exact Index.mem_targets.mpr ⟨kind, hlinks hkind, hr⟩
  induction h with
  | direct hd => exact .direct (htargets _ hd)
  | onward _ hd ih => exact .onward ih (htargets _ hd)

variable [DecidableEq δ]

theorem mem_reachable_iff :
    d ∈ reachable ix links root ↔ some d ≠ root ∧ Reaches ix links root d := by
  have hmem := mem_root_cons_reachable ix links root (e := some d)
  have hroot := (List.nodup_cons.mp (nodup_root_cons_reachable ix links root)).1
  constructor
  · intro hd
    have hd' : some d ∈ (reachable ix links root).map some := List.mem_map_of_mem hd
    have hne : some d ≠ root := by
      rintro rfl
      exact hroot hd'
    refine ⟨hne, ?_⟩
    obtain ⟨n, hn⟩ := hmem.mp (List.mem_cons_of_mem _ hd')
    cases n with
    | zero =>
      cases hn with
      | start => exact absurd rfl hne
    | succ n => exact hn.reaches
  · rintro ⟨hne, hd⟩
    obtain ⟨n, hn⟩ := hd.reachedBy
    rcases List.mem_cons.mp (hmem.mpr ⟨n + 1, hn⟩) with heq | hd'
    · exact absurd heq hne
    · simpa using hd'

end

section

variable [DecidableEq δ] (ix : Index δ) (links : List LinkKind) (root : Option δ)

theorem nodup_reachable : (reachable ix links root).Nodup := by
  have h := (List.nodup_cons.mp (nodup_root_cons_reachable ix links root)).2
  exact List.Pairwise.of_map some (fun a b hab heq => hab (congrArg some heq)) h

theorem reachable_eq_nil {ix : Index δ} {links : List LinkKind} {root : Option δ}
    (h : ix.targets links root = []) : reachable ix links root = [] := by
  have hnone : ∀ d, ¬ Reaches ix links root d := by
    intro d hd
    induction hd with
    | direct hd => simp [h] at hd
    | onward _ _ ih => exact ih
  rw [List.eq_nil_iff_forall_not_mem]
  intro d hd
  exact hnone d (mem_reachable_iff.mp hd).2

theorem mem_definitions_of_mem_reachable {ix : Index δ} {links : List LinkKind} {root : Option δ}
    {d : δ} (h : d ∈ reachable ix links root) : d ∈ ix.definitions := by
  cases (mem_reachable_iff.mp h).2 with
  | direct hd => exact Index.mem_definitions_of_mem_targets hd
  | onward _ hd => exact Index.mem_definitions_of_mem_targets hd

/-- The root, if there is one, and what is reachable from it. -/
theorem nodup_root_append_reachable : (root.toList ++ reachable ix links root).Nodup := by
  cases root with
  | none => exact nodup_reachable ix links none
  | some r =>
    rw [Option.toList_some, List.singleton_append, List.nodup_cons]
    refine ⟨?_, nodup_reachable ix links (some r)⟩
    intro hr
    exact (mem_reachable_iff.mp hr).1 rfl

theorem mem_root_append_reachable {d : δ} :
    d ∈ root.toList ++ reachable ix links root ↔ some d = root ∨ Reaches ix links root d := by
  rw [List.mem_append, mem_reachable_iff, Option.mem_toList, eq_comm (a := root)]
  by_cases h : some d = root <;> simp [h]

/-- **Exactly what is reachable.** A visitor that never ends the walk is given each definition that
references lead to from the root, once, and not the root. From an absent root only what is
registered for every component leads on. -/
theorem visits_eq_reaches (note : σ → δ → σ) (memory : σ) :
    let w := walk ix links root (observe note) memory
    let visits := visitsOf w.trace
    w.outcome = .proceed ∧ w.memory = visits.foldl note memory ∧ visits.Nodup ∧
      (∀ d, d ∈ visits ↔ some d ≠ root ∧ Reaches ix links root d) ∧
      ∀ d, d ∈ ix.targets links none ↔
        .globalMixin ∈ links ∧ ∃ r ∈ ix.globalMixins.getD [], ix.find r = some d := by
  intro w visits
  have hvisits : visits = reachable ix links root := visitsOf_walk_observe ix links root note memory
  have hw : w = _ := walk_observe ix links root note memory
  rw [hvisits, hw]
  refine ⟨rfl, rfl, nodup_reachable ix links root, ?_, ?_⟩
  · intro d
    exact mem_reachable_iff
  · intro d
    exact Index.mem_targets_none

end

end ComponentAttrs
