import ComponentAttrs.Proofs.Walk.Expansion

/-!
Breadth-first order. The walk has one queue; here its visits are described by layers, the root entry
first, then what the root refers to, then what that refers to.

* `mem_layer_iff`: a layer holds what lies at one distance from the root;
* `pairwise_distance_entries`: the distance never decreases along the layers;
* `root_cons_reachable_eq_entries`: the walk visits the layers, one after the other.
-/
namespace ComponentAttrs

variable {σ δ : Type}

/-! ## Distance -/

/-- An entry is reached from the root by following so many references. -/
inductive ReachedBy (ix : Index δ) (links : List LinkKind) (root : Option δ) : Nat → Option δ → Prop
  | start : ReachedBy ix links root 0 root
  | onward {n : Nat} {c : Option δ} {d : δ} :
      ReachedBy ix links root n c → d ∈ ix.targets links c → ReachedBy ix links root (n + 1) (some d)

/-- The least number of references by which an entry is reached. -/
def AtDistance (ix : Index δ) (links : List LinkKind) (root : Option δ) (n : Nat) (e : Option δ) :
    Prop :=
  ReachedBy ix links root n e ∧ ∀ m, ReachedBy ix links root m e → n ≤ m

theorem AtDistance.unique {ix : Index δ} {links : List LinkKind} {root e : Option δ} {m n : Nat}
    (hm : AtDistance ix links root m e) (hn : AtDistance ix links root n e) : m = n :=
  Nat.le_antisymm (hm.2 n hn.1) (hn.2 m hm.1)

/-! ## Layers -/

/-- The entries met so far, in order, and those of the last layer among them. -/
structure Layering (δ : Type) where
  entries : List (Option δ)
  last : List (Option δ)

variable [DecidableEq δ]

/-- Goes through the last layer in order and keeps the targets that have not been met, each at its
first place. -/
def Layering.next (ix : Index δ) (links : List LinkKind) (l : Layering δ) : List δ :=
  ((l.last.flatMap (ix.targets links)).filter fun d => some d ∉ l.entries).eraseDups

def layering (ix : Index δ) (links : List LinkKind) (root : Option δ) : Nat → Layering δ
  | 0 => ⟨[root], [root]⟩
  | n + 1 =>
    let l := layering ix links root n
    let next := (l.next ix links).map some
    ⟨l.entries ++ next, next⟩

def layer (ix : Index δ) (links : List LinkKind) (root : Option δ) (n : Nat) : List (Option δ) :=
  (layering ix links root n).last

/-- All entries up to a layer. -/
def entries (ix : Index δ) (links : List LinkKind) (root : Option δ) (n : Nat) : List (Option δ) :=
  (layering ix links root n).entries

section

variable (ix : Index δ) (links : List LinkKind) (root : Option δ)

theorem entries_succ (n : Nat) :
    entries ix links root (n + 1) = entries ix links root n ++ layer ix links root (n + 1) := rfl

theorem entries_eq_flatMap (n : Nat) :
    entries ix links root n = (List.range (n + 1)).flatMap (layer ix links root) := by
  induction n with
  | zero => simp [entries, layer, layering]
  | succ n ih =>
    rw [entries_succ, ih, List.range_succ (n := n + 1), List.flatMap_append]
    simp

theorem mem_layer_succ {n : Nat} {e : Option δ} :
    e ∈ layer ix links root (n + 1) ↔
      e ∉ entries ix links root n ∧
        ∃ c ∈ layer ix links root n, ∃ d ∈ ix.targets links c, e = some d := by
  simp only [layer, layering, Layering.next, entries, List.mem_map, List.mem_eraseDups,
    List.mem_filter, List.mem_flatMap, decide_eq_true_eq]
  constructor
  · rintro ⟨d, ⟨⟨c, hc, hd⟩, hnew⟩, rfl⟩
    exact ⟨hnew, c, hc, d, hd, rfl⟩
  · rintro ⟨hnew, c, hc, d, hd, rfl⟩
    exact ⟨d, ⟨⟨c, hc, hd⟩, hnew⟩, rfl⟩

theorem nodup_entries (n : Nat) : (entries ix links root n).Nodup := by
  induction n with
  | zero => simp [entries, layering]
  | succ n ih =>
    rw [entries_succ, List.nodup_append]
    refine ⟨ih, ?_, ?_⟩
    · apply List.Pairwise.map some _ (nodup_eraseDups _)
      intro a b hab
      simpa using hab
    · intro a ha b hb hab
      subst hab
      exact ((mem_layer_succ ix links root).mp hb).1 ha

theorem entries_mono {m n : Nat} (h : m ≤ n) {e : Option δ} (he : e ∈ entries ix links root m) :
    e ∈ entries ix links root n := by
  induction h with
  | refl => exact he
  | step _ ih =>
    rw [entries_succ]
    exact List.mem_append_left _ ih

/-! ## Layers and distance -/

theorem reachedBy_of_mem_layer {n : Nat} {e : Option δ} (h : e ∈ layer ix links root n) :
    ReachedBy ix links root n e := by
  induction n generalizing e with
  | zero =>
    obtain rfl : e = root := by simpa [layer, layering] using h
    exact .start
  | succ n ih =>
    obtain ⟨_, c, hc, d, hd, rfl⟩ := (mem_layer_succ ix links root).mp h
    exact .onward (ih hc) hd

theorem mem_layer_of_mem_entries {n : Nat} {e : Option δ} (h : e ∈ entries ix links root n) :
    ∃ m, m ≤ n ∧ e ∈ layer ix links root m := by
  rw [entries_eq_flatMap, List.mem_flatMap] at h
  obtain ⟨m, hm, he⟩ := h
  exact ⟨m, Nat.le_of_lt_succ (List.mem_range.mp hm), he⟩

/-- What an entry refers to is met one layer later at the latest. -/
theorem mem_entries_succ {n : Nat} {c : Option δ} {d : δ} (hc : c ∈ entries ix links root n)
    (hd : d ∈ ix.targets links c) : some d ∈ entries ix links root (n + 1) := by
  obtain ⟨m, hm, hcm⟩ := mem_layer_of_mem_entries ix links root hc
  have hsucc : some d ∈ entries ix links root (m + 1) := by
    rw [entries_succ, List.mem_append]
    by_cases hmet : some d ∈ entries ix links root m
    · exact .inl hmet
    · exact .inr ((mem_layer_succ ix links root).mpr ⟨hmet, c, hcm, d, hd, rfl⟩)
  exact entries_mono ix links root (Nat.succ_le_succ hm) hsucc

theorem mem_entries_of_reachedBy {n : Nat} {e : Option δ} (h : ReachedBy ix links root n e) :
    e ∈ entries ix links root n := by
  induction h with
  | start => simp [entries, layering]
  | onward _ hd ih => exact mem_entries_succ ix links root ih hd

/-- A layer holds what lies at one distance from the root. -/
theorem mem_layer_iff {n : Nat} {e : Option δ} :
    e ∈ layer ix links root n ↔ AtDistance ix links root n e := by
  constructor
  · intro h
    refine ⟨reachedBy_of_mem_layer ix links root h, ?_⟩
    intro m hm
    cases n with
    | zero => exact Nat.zero_le m
    | succ n =>
      have hnew := ((mem_layer_succ ix links root).mp h).1
      apply Nat.lt_of_not_le
      intro hle
      exact hnew (entries_mono ix links root hle (mem_entries_of_reachedBy ix links root hm))
  · rintro ⟨hn, hleast⟩
    obtain ⟨m, hm, he⟩ := mem_layer_of_mem_entries ix links root
      (mem_entries_of_reachedBy ix links root hn)
    have hle := hleast m (reachedBy_of_mem_layer ix links root he)
    rwa [Nat.le_antisymm hle hm]

/-- The distance never decreases along the layers. -/
theorem pairwise_distance_entries (n : Nat) :
    (entries ix links root n).Pairwise fun a b => ∀ i j, AtDistance ix links root i a →
      AtDistance ix links root j b → i ≤ j := by
  induction n with
  | zero =>
    simp only [entries, layering, List.pairwise_singleton]
  | succ n ih =>
    rw [entries_succ, List.pairwise_append]
    refine ⟨ih, ?_, ?_⟩
    · apply List.pairwise_of_forall_mem_list
      intro a ha b hb i j hi hj
      have hi' := hi.unique ((mem_layer_iff ix links root).mp ha)
      have hj' := hj.unique ((mem_layer_iff ix links root).mp hb)
      omega
    · intro a ha b hb i j hi hj
      obtain ⟨m, hm, ha⟩ := mem_layer_of_mem_entries ix links root ha
      have hi' := hi.unique ((mem_layer_iff ix links root).mp ha)
      have hj' := hj.unique ((mem_layer_iff ix links root).mp hb)
      omega

end

/-! ## The queue goes layer by layer -/

section

variable (ix : Index δ) (links : List LinkKind) (root : Option δ)

/-- Definitions that are not among some entries. -/
def unmet (met : List (Option δ)) : List δ := ix.definitions.filter (some · ∉ met)

theorem filter_unmet (met : List (Option δ)) (ds : List δ) :
    (unmet ix met).filter (· ∉ ds) = unmet ix (met ++ ds.map some) := by
  simp only [unmet, List.filter_filter]
  apply List.filter_congr
  intro d _
  simp [Bool.and_comm]

theorem fresh_unmet (met : List (Option δ)) {ds : List δ} (h : ∀ d ∈ ds, d ∈ ix.definitions) :
    fresh (unmet ix met) ds = (ds.filter (some · ∉ met)).eraseDups := by
  unfold fresh
  congr 1
  apply List.filter_congr
  intro d hd
  simp [unmet, h d hd]

/-- The definitions of the layer after one. -/
def following (n : Nat) : List δ := (layering ix links root n).next ix links

theorem layer_succ (n : Nat) :
    layer ix links root (n + 1) = (following ix links root n).map some := rfl

theorem following_eq_fresh (n : Nat) :
    following ix links root n =
      fresh (unmet ix (entries ix links root n))
        ((layer ix links root n).flatMap (ix.targets links)) := by
  rw [fresh_unmet]
  · rfl
  · intro d hd
    obtain ⟨c, _, hd⟩ := List.mem_flatMap.mp hd
    exact Index.mem_definitions_of_mem_targets hd

/-- Once a layer has been queued, the walk goes on with that layer as its queue. -/
theorem root_cons_reachable_eq_append (n : Nat) :
    root :: (reachable ix links root).map some =
      entries ix links root (n + 1) ++
        (visitsOf (drain ix watch links ⟨unmet ix (entries ix links root (n + 1)),
          following ix links root n, ()⟩).trace).map some := by
  -- the invariant: unreached is what is not among the entries, queued is the last layer
  induction n with
  | zero =>
    have hinitial : Frontier.initial ix root () = ⟨unmet ix [root], [], ()⟩ := by
      simp [Frontier.initial, unmet]
    have hwalk : reachable ix links root = _ := visitsOf_walkThen_watch ix ix links root
    have hnew : fresh (unmet ix [root]) (ix.targets links root) = following ix links root 0 := by
      rw [following_eq_fresh]
      simp [layer, layering, entries]
    have hentries : entries ix links root 1 = [root] ++ (following ix links root 0).map some := rfl
    rw [hentries, ← filter_unmet]
    simp only [hwalk, hinitial, hnew, Frontier.reachAll, List.map_append, List.nil_append,
      List.cons_append]
  | succ n ih =>
    have hnew : fresh (unmet ix (entries ix links root (n + 1)))
        ((following ix links root n).flatMap fun d => ix.targets links (some d)) =
          following ix links root (n + 1) := by
      rw [following_eq_fresh ix links root (n + 1), layer_succ, List.flatMap_map]
    have hlayer := visitsOf_drain_append ix links (unmet ix (entries ix links root (n + 1)))
      (following ix links root n) []
    simp only [hnew, List.append_nil, Frontier.reachAll, filter_unmet, List.nil_append] at hlayer
    rw [ih, hlayer, List.map_append, ← List.append_assoc]
    rfl

theorem layer_succ_eq_nil {n : Nat} (h : layer ix links root n = []) :
    layer ix links root (n + 1) = [] := by
  rw [layer_succ, following_eq_fresh, h]
  rfl

/-- As long as layers are not empty they add to the entries. -/
theorem layer_eq_nil_or_lt_length (n : Nat) :
    layer ix links root n = [] ∨ n < (entries ix links root n).length := by
  induction n with
  | zero => exact .inr (by simp [entries, layering])
  | succ n ih =>
    rcases ih with hnil | hlt
    · exact .inl (layer_succ_eq_nil ix links root hnil)
    · rw [entries_succ, List.length_append]
      cases layer ix links root (n + 1) with
      | nil => exact .inl rfl
      | cons e rest =>
        right
        rw [List.length_cons]
        omega

/-- After as many layers as there are visits the walk is over. -/
theorem root_cons_reachable_eq_entries {n : Nat} (h : (reachable ix links root).length ≤ n) :
    root :: (reachable ix links root).map some = entries ix links root n := by
  have hsplit := root_cons_reachable_eq_append ix links root n
  -- one more layer would be one more visit than there are
  have hempty : layer ix links root (n + 1) = [] := by
    rcases layer_eq_nil_or_lt_length ix links root (n + 1) with hnil | hlt
    · exact hnil
    · have hlength := congrArg List.length hsplit
      simp only [List.length_cons, List.length_map, List.length_append] at hlength
      omega
  have hnone : following ix links root n = [] := List.map_eq_nil_iff.mp hempty
  rw [hsplit, hnone, visitsOf_drain_nil, entries_succ, hempty]
  simp

theorem mem_root_cons_reachable {e : Option δ} :
    e ∈ root :: (reachable ix links root).map some ↔ ∃ n, ReachedBy ix links root n e := by
  constructor
  · intro h
    rw [root_cons_reachable_eq_entries ix links root (Nat.le_refl _)] at h
    obtain ⟨n, _, he⟩ := mem_layer_of_mem_entries ix links root h
    exact ⟨n, reachedBy_of_mem_layer ix links root he⟩
  · rintro ⟨n, hn⟩
    rw [root_cons_reachable_eq_entries ix links root (Nat.le_max_left _ n)]
    exact entries_mono ix links root (Nat.le_max_right _ n)
      (mem_entries_of_reachedBy ix links root hn)

theorem nodup_root_cons_reachable : (root :: (reachable ix links root).map some).Nodup := by
  rw [root_cons_reachable_eq_entries ix links root (Nat.le_refl _)]
  exact nodup_entries ix links root _

/-! ## Walks through two indexes -/

section

variable {ix ix' : Index δ} {links : List LinkKind} {root : Option δ}

theorem layering_congr
    (h : ∀ n e, ReachedBy ix links root n e → ix.targets links e = ix'.targets links e) (n : Nat) :
    layering ix links root n = layering ix' links root n := by
  induction n with
  | zero => rfl
  | succ n ih =>
    have hlast : ∀ e ∈ (layering ix links root n).last, ix.targets links e = ix'.targets links e :=
      fun e he => h n e (reachedBy_of_mem_layer ix links root he)
    have hnext : (layering ix links root n).next ix links =
        (layering ix' links root n).next ix' links := by
      rw [← ih, Layering.next, Layering.next, List.flatMap_def, List.flatMap_def,
        List.map_congr_left hlast]
    rw [layering, layering, hnext, ih]

/-- Where two indexes refer to the same from the root and from all that is reached from it, a walk
visits the same. -/
theorem reachable_congr
    (h : ∀ n e, ReachedBy ix links root n e → ix.targets links e = ix'.targets links e) :
    reachable ix links root = reachable ix' links root := by
  have hentries := congrArg Layering.entries (layering_congr h
    (max (reachable ix links root).length (reachable ix' links root).length))
  have hmap : root :: (reachable ix links root).map some =
      root :: (reachable ix' links root).map some := by
    rw [root_cons_reachable_eq_entries ix links root (Nat.le_max_left _ _),
      root_cons_reachable_eq_entries ix' links root (Nat.le_max_right _ _)]
    exact hentries
  exact (List.map_inj_right fun _ _ => Option.some.inj).mp (List.cons.inj hmap).2

end

/-! ## Complete walks -/

theorem visitsOf_walk_observe (note : σ → δ → σ) (memory : σ) :
    visitsOf (walk ix links root (observe note) memory).trace = reachable ix links root := by
  rw [walk_observe]
  rfl

theorem layer_succ_eq (n : Nat) :
    layer ix links root (n + 1) =
      ((((layer ix links root n).flatMap (ix.targets links)).filter fun d =>
        some d ∉ (List.range (n + 1)).flatMap (layer ix links root)).eraseDups).map some := by
  rw [← entries_eq_flatMap]
  rfl

/-- **Breadth-first order.** A walk that is never ended visits layer after layer. The root entry is
a layer; the next one holds what the last one refers to, in order, each definition at its first
place and none of an earlier layer. A layer is what lies at one distance from the root. -/
theorem visits_eq_layers (note : σ → δ → σ) (memory : σ) :
    let visits := visitsOf (walk ix links root (observe note) memory).trace
    (layer ix links root 0 = [root] ∧
      ∀ n, layer ix links root (n + 1) =
        ((((layer ix links root n).flatMap (ix.targets links)).filter fun d =>
          some d ∉ (List.range (n + 1)).flatMap (layer ix links root)).eraseDups).map some) ∧
    (∀ n, visits.length ≤ n →
      root :: visits.map some = (List.range (n + 1)).flatMap (layer ix links root)) ∧
    (∀ n e, e ∈ layer ix links root n ↔ AtDistance ix links root n e) ∧
    (root :: visits.map some).Pairwise fun a b => ∀ i j, AtDistance ix links root i a →
      AtDistance ix links root j b → i ≤ j := by
  rw [visitsOf_walk_observe]
  refine ⟨⟨rfl, layer_succ_eq ix links root⟩, ?_, fun n e => mem_layer_iff ix links root, ?_⟩
  · intro n hn
    rw [root_cons_reachable_eq_entries ix links root hn, entries_eq_flatMap]
  · rw [root_cons_reachable_eq_entries ix links root (Nat.le_refl _)]
    exact pairwise_distance_entries ix links root _

end

end ComponentAttrs
