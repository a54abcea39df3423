import ComponentAttrs.Proofs.Scope.Members

/-!
Local components are offered nearest first, each once, up to the one that the processor stops at.
The processor is asked as a test of the source, the source gives back what passed, and the walk ends
if that is anything; none of this shows in what is offered.

* `offerOwnLocals_eq`: the test, the search for its first success and the question whether there was
  one, as one offer;
* `offerLocals_eq_offer`: all members as one list;
* `offerLocals_cuts_declarations`: what a processor is offered that remembers it.
-/
namespace ComponentAttrs.Scope

/-! ## Answers that depend on what has been offered -/

section

variable {α : Type}

/-- A visitor that answers from all it has been given so far. -/
def remember (answer : List α → α → Outcome) : Visitor (List α) α :=
  fun given a => (answer given a, given ++ [a])

/-- Along a list, with each element given behind those before it, no answer is to stop. -/
def PassesAll (answer : List α → α → Outcome) (as : List α) : Prop :=
  ∀ before a after, as = before ++ a :: after → answer before a = .proceed

theorem passesAll_nil (answer : List α → α → Outcome) : PassesAll answer [] := by
  intro before a after h
  simp at h

theorem passesAll_append_singleton {answer : List α → α → Outcome} {as : List α} {a : α} :
    PassesAll answer (as ++ [a]) ↔ PassesAll answer as ∧ answer as a = .proceed := by
  constructor
  · intro h
    refine ⟨?_, h as a [] rfl⟩
    rintro before b after rfl
    exact h before b (after ++ [a]) (by simp)
  · rintro ⟨has, ha⟩ before b after heq
    -- the answer is the last one or one about the list before
    rcases List.eq_nil_or_concat after with rfl | ⟨later, c, rfl⟩
    · obtain ⟨rfl, hb⟩ := List.append_inj' heq rfl
      obtain rfl := List.singleton_inj.mp hb
      exact ha
    · have hsplit : as ++ [a] = (before ++ b :: later) ++ [c] := by simpa using heq
      exact has before b later (List.append_inj' hsplit rfl).1

/-- What has been given once a list has been offered: all of it if no answer was to stop, or else
everything up to the first such answer. -/
inductive Offered (answer : List α → α → Outcome) (as : List α) : Outcome → List α → Prop
  | all : PassesAll answer as → Offered answer as .proceed as
  | cut {before after : List α} {a : α} : as = before ++ a :: after → PassesAll answer before →
      answer before a = .stop → Offered answer as .stop (before ++ [a])

theorem offered_offer_remember (answer : List α → α → Outcome) (given as : List α)
    (h : PassesAll answer given) :
    let r := offer (remember answer) as given
    Offered answer (given ++ as) r.1 r.2 := by
  -- on what is still to be offered; nothing given before was to stop
  induction as generalizing given with
  | nil =>
    rw [List.append_nil]
    exact .all h
  | cons a as ih =>
    cases ha : answer given a with
    | stop =>
      simp only [offer, remember, ha]
      exact .cut rfl h ha
    | proceed =>
      simp only [offer, remember, ha]
      have hrest := ih (given ++ [a]) (passesAll_append_singleton.mpr ⟨h, ha⟩)
      rwa [List.append_assoc] at hrest

theorem stop_of_not_passesAll {answer : List α → α → Outcome} {as given : List α}
    {outcome : Outcome} (h : Offered answer as outcome given) (hno : ¬ PassesAll answer as) :
    outcome = .stop := by
  cases h with
  | all hall => exact absurd hall hno
  | cut => rfl

end

/-! ## One definition, all definitions -/

section

variable {σ δ : Type} (s : Scope δ) (process : Processor σ δ)

theorem select_stopsAt (ls : List (LocalComponent δ)) (memory : σ) :
    let selected := select (stopsAt process) true ls memory
    (if selected.1.isEmpty then Outcome.proceed else .stop, selected.2) =
      offer process ls memory := by
  induction ls generalizing memory with
  | nil => rfl
  | cons l ls ih =>
    cases hl : process memory l with
    | mk outcome later =>
      cases outcome with
      | stop => simp [select, stopsAt, offer, hl]
      | proceed => simpa [select, stopsAt, offer, hl] using ih later

theorem offerOwnLocals_eq :
    s.offerOwnLocals process = fun memory d => offer process (s.ownLocals d) memory := by
  funext memory d
  exact select_stopsAt process (s.ownLocals d) memory

/-- Offering lists one by one is offering them as one. -/
theorem offer_flatMap {α β : Type} (visit : Visitor σ β) (f : α → List β) (as : List α)
    (memory : σ) :
    offer (fun memory a => offer visit (f a) memory) as memory =
      offer visit (as.flatMap f) memory := by
  induction as generalizing memory with
  | nil => rfl
  | cons a as ih =>
    rw [List.flatMap_cons, offer_append]
    simp only [offer]
    cases offer visit (f a) memory with
    | mk outcome later =>
      cases outcome with
      | stop => rfl
      | proceed => exact ih later

variable [DecidableEq δ] (root : Option δ) (memory : σ)

theorem offerLocals_eq_offer :
    let w := s.offerLocals root process memory
    (w.outcome, w.memory) = offer process ((s.members root).flatMap s.ownLocals) memory := by
  rw [members, ← offer_flatMap, ← offerOwnLocals_eq, offer_append, offerLocals]
  cases offer (s.offerOwnLocals process) root.toList memory with
  | mk outcome later =>
    cases outcome with
    | stop => rfl
    | proceed =>
      exact (offer_reachable s.index s.links root (s.offerOwnLocals process) later).symm

/-- Where the component's own sub-components make the processor stop, nothing is walked. -/
theorem trace_offerLocals_of_stop
    (h : (offer process (root.toList.flatMap s.ownLocals) memory).1 = .stop) :
    (s.offerLocals root process memory).trace = [] := by
  rw [← offer_flatMap, ← offerOwnLocals_eq] at h
  rw [offerLocals]
  cases ho : offer (s.offerOwnLocals process) root.toList memory with
  | mk outcome later =>
    rw [ho] at h
    obtain rfl : outcome = .stop := h
    rfl

end

end ComponentAttrs.Scope

namespace ComponentAttrs.Catalog

open ComponentAttrs.Scope

theorem ownLocals_eq (c : Catalog) : c.ownLocals = fun d =>
    (((c.entry? (some d)).map Entry.components).getD []).map
      fun (name, target) => (name, c.get? target) := by
  funext d
  unfold ownLocals
  cases c.entry? (some d) <;> rfl

/-- **Local components, nearest first.** A processor is offered the local components of a component
and then of each that it is composed of, in the order of visits and of declaration, with the
components they stand for. It may answer from what it has been offered so far. What it is offered
ends with the first that it stops at, and it stops nowhere only if it has been offered all; each
definition comes once. If it stops among the component's own, nothing is asked about
composition. -/
theorem offerLocals_cuts_declarations (c : Catalog)
    (directives : Option (DirectiveSource Component)) (links : List LinkKind)
    (g : Attribute.Grammar) (root : Option Component)
    (answer : List (LocalComponent Component) → LocalComponent Component → Outcome) :
    let s : Scope Component := ⟨c.index, c.ownSource, directives, links, g⟩
    let everyone := root.toList ++ reachable c.index links root
    let declared (d : Component) : List (LocalComponent Component) :=
      (((c.entry? (some d)).map Entry.components).getD []).map
        fun (name, target) => (name, c.get? target)
    let w := s.offerLocals root (remember answer) []
    everyone.Nodup ∧
      Offered answer (everyone.flatMap declared) w.outcome w.memory ∧
      (¬ PassesAll answer (root.toList.flatMap declared) → w.trace = []) := by
  intro s everyone declared w
  have hown : s.ownLocals = declared := c.ownLocals_eq
  have hw : (w.outcome, w.memory) = _ := s.offerLocals_eq_offer (remember answer) root []
  rw [hown] at hw
  obtain ⟨houtcome, hmemory⟩ := Prod.ext_iff.mp hw
  refine ⟨nodup_root_append_reachable c.index links root, ?_, fun hstop => ?_⟩
  · rw [show w.outcome = _ from houtcome, show w.memory = _ from hmemory]
    exact offered_offer_remember answer [] (everyone.flatMap declared) (passesAll_nil answer)
  · have hfirst := offered_offer_remember answer [] (root.toList.flatMap declared)
      (passesAll_nil answer)
    refine s.trace_offerLocals_of_stop (remember answer) root [] ?_
    rw [hown]
    exact stop_of_not_passesAll hfirst hstop

end ComponentAttrs.Catalog
