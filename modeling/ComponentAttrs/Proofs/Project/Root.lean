import Mathlib.Data.List.Induction
import Mathlib.Data.List.Infix
import ComponentAttrs.Project.Root

/-!
The root of a project is the nearest marked directory. A search looks at one place after the other,
going up, and breaks off only where the marker cannot even be looked for.

* `isMarked_eq_ok_iff`: what a look at one place tells, in terms of the tree;
* `searched`: what a search up from a place comes to;
* `root_is_nearest_marked`: when the root is found, which place it is, and that it is found again
  from every place on the way to it.
-/
namespace ComponentAttrs

open ComponentAttrs.Files

namespace Files

/-! ## Names and places -/

/-- One part of a path that leads on. -/
structure IsName (s : String) : Prop where
  ne_empty : s ≠ ""
  ne_dot : s ≠ "."
  ne_dots : s ≠ ".."
  no_slash : '/' ∉ s.toList

instance (s : String) : Decidable (IsName s) :=
  decidable_of_iff (s ≠ "" ∧ s ≠ "." ∧ s ≠ ".." ∧ '/' ∉ s.toList)
    ⟨fun ⟨h₁, h₂, h₃, h₄⟩ => ⟨h₁, h₂, h₃, h₄⟩, fun ⟨h₁, h₂, h₃, h₄⟩ => ⟨h₁, h₂, h₃, h₄⟩⟩

/-- A place that can be looked up, step by step. -/
def IsPlace (place : Location) : Prop := ∀ name ∈ place, name ≠ ".." ∧ nameFault? name = none

instance (place : Location) : Decidable (IsPlace place) :=
  inferInstanceAs (Decidable (∀ _ ∈ _, _))

theorem IsPlace.of_prefix {p q : Location} (hq : IsPlace q) (h : p <+: q) : IsPlace p :=
  fun name hname => hq name (h.subset hname)

namespace Path

theorem splitSlashes_eq {cs : List Char} (h : '/' ∉ cs) : splitSlashes cs = [cs] := by
  induction cs with
  | nil => rfl
  | cons c cs ih =>
    rw [List.mem_cons, not_or] at h
    have hrest := ih h.2
    simp only [splitSlashes] at hrest
    simp [splitSlashes, hrest, Ne.symm h.1]

theorem rootSlashes_eq_zero {cs : List Char} (h : '/' ∉ cs) : rootSlashes cs = 0 := by
  cases cs with
  | nil => rfl
  | cons c cs =>
    have hc : c ≠ '/' := fun hc => h (by simp [hc])
    simp [rootSlashes, hc]

theorem ofString_of_isName {s : String} (h : IsName s) : ofString s = ⟨0, [s]⟩ := by
  simp [ofString, rootSlashes_eq_zero h.no_slash, splitSlashes_eq h.no_slash, h.ne_empty, h.ne_dot]

theorem fault?_ofParts {place : Location} (h : IsPlace place) : (ofParts place).fault? = none := by
  simp only [fault?, ofParts, List.findSome?_eq_none_iff]
  exact fun name hname => (h name hname).2

end Path

/-! ## Where a path leads -/

theorem resolve_ofParts {place : Location} (h : IsPlace place) (base : Location) :
    resolve base (.ofParts place) = place := by
  have hfold : ∀ before : Location, place.foldl
      (fun place part => if part = ".." then place.dropLast else place ++ [part]) before =
        before ++ place := by
    induction place with
    | nil => simp
    | cons name rest ih =>
      intro before
      obtain ⟨⟨hname, _⟩, hrest⟩ := List.forall_mem_cons.mp h
      simp [hname, ih hrest]
  exact hfold []

theorem isPlace_resolve {base : Location} (hbase : IsPlace base) {p : Path}
    (hp : p.fault? = none) : IsPlace (resolve base p) := by
  have hfold : ∀ (parts : List String) (before : Location), IsPlace before →
      (∀ part ∈ parts, nameFault? part = none) → IsPlace (parts.foldl
        (fun place part => if part = ".." then place.dropLast else place ++ [part]) before) := by
    intro parts
    induction parts with
    | nil => exact fun _ hbefore _ => hbefore
    | cons part rest ih =>
      intro before hbefore hparts
      obtain ⟨hpart, hrest⟩ := List.forall_mem_cons.mp hparts
      refine ih _ ?_ hrest
      show IsPlace (if part = ".." then before.dropLast else before ++ [part])
      split
      case isTrue => exact hbefore.of_prefix (List.dropLast_prefix before)
      case isFalse hdots =>
        intro name hname
        rcases List.mem_append.mp hname with hname | hname
        · exact hbefore name hname
        · obtain rfl := List.mem_singleton.mp hname
          exact ⟨hdots, hpart⟩
  refine hfold p.parts _ ?_ (List.findSome?_eq_none_iff.mp hp)
  split
  · exact nofun
  · exact hbase

namespace Tree

/-- A directory stands here, and directories stand all the way to it. -/
def HasDirectory (t : Tree) (place : Location) : Prop :=
  ∀ p, p <+: place → t.node? p = some .directory

/-- A way without steps back leads to a directory if there are directories all along it. -/
theorem look_follow_iff {t : Tree} {parts : List String} (h : ".." ∉ parts) {before : Location}
    (hbefore : t.node? before = some .directory) :
    (t.follow before parts).bind t.node? = some .directory ↔
      ∀ s, s <+: parts → t.node? (before ++ s) = some .directory := by
  induction parts generalizing before with
  | nil =>
    simp only [follow, Option.bind_some, List.prefix_nil, forall_eq, List.append_nil]
  | cons part rest ih =>
    rw [List.mem_cons, not_or] at h
    have hpart : ¬ part = ".." := Ne.symm h.1
    simp only [follow, hpart, if_false, List.prefix_cons_iff]
    cases hnext : t.node? (before ++ [part]) with
    | none =>
      simp only [Option.bind_none, reduceCtorEq, false_iff]
      intro hall
      have hlost := hall [part] (.inr ⟨[], rfl, List.nil_prefix⟩)
      rw [hnext] at hlost
      cases hlost
    | some node =>
      cases node with
      | file bytes =>
        have hnot : ¬ ∀ s, (s = [] ∨ ∃ s', s = part :: s' ∧ s' <+: rest) →
            t.node? (before ++ s) = some .directory := by
          intro hall
          have hfile := hall [part] (.inr ⟨[], rfl, List.nil_prefix⟩)
          rw [hnext] at hfile
          cases hfile
        simp only [hnot, iff_false]
        cases rest with
        | nil => simp [Node.isDirectory, follow, hnext]
        | cons _ _ => simp [Node.isDirectory]
      | directory =>
        simp only [Node.isDirectory, Bool.true_or, if_true]
        rw [ih h.2 hnext]
        constructor
        · rintro hall s (rfl | ⟨s, rfl, hs⟩)
          · rw [List.append_nil]
            exact hbefore
          · rw [List.append_cons]
            exact hall s hs
        · intro hall s hs
          rw [← List.append_cons]
          exact hall (part :: s) (.inr ⟨s, rfl, hs⟩)

theorem isDirectory_iff_hasDirectory {t : Tree} {base : Location} {p : Path}
    (h : ".." ∉ partsFrom base p) : t.isDirectory base p ↔ t.HasDirectory (partsFrom base p) := by
  have hlook := look_follow_iff h (rfl : t.node? [] = some .directory)
  have hany : t.isDirectory base p ↔ t.look base p = some .directory := by
    unfold isDirectory
    cases t.look base p with
    | none => simp
    | some node => cases node <;> simp [Node.isDirectory]
  rw [hany]
  exact hlook

/-- Short enough to be looked up, each name and as a whole. -/
def Fits (place : Location) : Prop :=
  nameSize (Path.ofParts place).text ≤ pathLimit ∧ ∀ name ∈ place, nameSize name ≤ nameLimit

theorem asksTooMuch_eq_false_iff {t : Tree} {place : Location} {name : String}
    (h : ".." ∉ place ++ [name]) {before : Location}
    (hplace : ∀ s, s <+: place → t.node? (before ++ s) = some .directory) :
    t.asksTooMuch before (place ++ [name]) = false ↔
      ∀ part ∈ place ++ [name], nameSize part ≤ nameLimit := by
  induction place generalizing before with
  | nil =>
    have hname : ¬ name = ".." := fun heq => h (by simp [heq])
    simp [asksTooMuch, hname]
  | cons part rest ih =>
    rw [List.cons_append, List.mem_cons, not_or] at h
    have hpart : ¬ part = ".." := Ne.symm h.1
    have hnext : t.node? (before ++ [part]) = some .directory :=
      hplace [part] ((List.prefix_append [part] rest))
    have hrest : ∀ s, s <+: rest → t.node? (before ++ [part] ++ s) = some .directory := by
      intro s hs
      rw [← List.append_cons]
      exact hplace (part :: s) (List.cons_prefix_cons.mpr ⟨rfl, hs⟩)
    simp only [List.cons_append, asksTooMuch, hpart, if_false, hnext, Option.any_some,
      Node.isDirectory, Bool.true_and, List.forall_mem_cons]
    split
    case isTrue hlong => simp [Nat.not_le_of_lt hlong]
    case isFalse hshort => rw [ih h.2 hrest, and_iff_right (Nat.le_of_not_lt hshort)]

end Tree

end Files

namespace Project

/-! ## Searching upwards -/

theorem prefix_antisymm {p q : Location} (h : p <+: q) (h' : q <+: p) : p = q :=
  h.eq_of_length (Nat.le_antisymm h.length_le h'.length_le)

@[simp] theorem ancestors_nil : ancestors [] = [[]] := rfl

@[simp] theorem ancestors_concat (place : Location) (name : String) :
    ancestors (place ++ [name]) = (place ++ [name]) :: ancestors place := by
  have hmap : (List.range (place.length + 1)).map (place ++ [name]).take =
      (List.range (place.length + 1)).map place.take := by
    apply List.map_congr_left
    intro n hn
    rw [List.take_append_of_le_length (Nat.le_of_lt_succ (List.mem_range.mp hn))]
  have hall : (place ++ [name]).take (place.length + 1) = place ++ [name] :=
    List.take_of_length_le (by simp)
  simp only [ancestors, List.length_append, List.length_singleton]
  rw [List.range_succ, List.map_append, List.reverse_append, hmap, List.map_singleton, hall]
  rfl

section

variable {ε : Type} {test : Location → Except ε Bool} {place : Location} {rest : List Location}

theorem findM?_cons_of_eq_error {e : ε} (h : test place = .error e) :
    (place :: rest).findM? test = .error e := by
  simp only [List.findM?, h]
  rfl

theorem findM?_cons_of_eq_true (h : test place = .ok true) :
    (place :: rest).findM? test = .ok (some place) := by
  simp only [List.findM?, h]
  rfl

theorem findM?_cons_of_eq_false (h : test place = .ok false) :
    (place :: rest).findM? test = rest.findM? test := by
  simp only [List.findM?, h]
  rfl

/-- A search upwards finds the same place from wherever it starts below it. -/
theorem findM?_of_ancestors_append {q s r : Location}
    (h : (ancestors (q ++ s)).findM? test = .ok (some r)) (hr : r <+: q) :
    (ancestors q).findM? test = .ok (some r) := by
  induction s using List.reverseRecOn with
  | nil => rwa [List.append_nil] at h
  | append_singleton s name ih =>
    rw [← List.append_assoc, ancestors_concat] at h
    cases htest : test (q ++ s ++ [name]) with
    | error e =>
      rw [findM?_cons_of_eq_error htest] at h
      cases h
    | ok marked =>
      cases marked with
      | true =>
        -- then `r` would be longer than `q`
        rw [findM?_cons_of_eq_true htest] at h
        cases h
        have hlength := hr.length_le
        simp only [List.length_append, List.length_singleton] at hlength
        omega
      | false => exact ih ((findM?_cons_of_eq_false htest).symm.trans h)

end

/-! ## The root -/

section

variable {files : Tree} {marker : String}

theorem dots_not_mem (hmarker : IsName marker) {place : Location} (hplace : IsPlace place) :
    ".." ∉ place ++ [marker] := by
  simp only [List.mem_append, List.mem_singleton, not_or]
  exact ⟨fun h => (hplace _ h).1 rfl, Ne.symm hmarker.ne_dots⟩

/-- A place on the way up where the marker is looked for, with all below it looked at in vain. -/
def IsTried (files : Tree) (marker : String) (start p : Location) : Prop :=
  p <+: start ∧ ∀ q, p <+: q → q <+: start → q ≠ p → ¬ files.HasDirectory (q ++ [marker])

/-- The nearest marked place, going up. -/
def IsNearest (files : Tree) (marker : String) (start place : Location) : Prop :=
  IsTried files marker start place ∧ files.HasDirectory (place ++ [marker])

/-- No place on the way up is marked. -/
def NoneMarked (files : Tree) (marker : String) (start : Location) : Prop :=
  ∀ p, p <+: start → ¬ files.HasDirectory (p ++ [marker])

/-- Can the marker be looked for at a place? -/
def CanLook (files : Tree) (marker : String) (place : Location) : Prop :=
  files.isTooLong [] ((Path.ofParts place).join (.ofString marker)) = false

theorem join_ofString (hmarker : IsName marker) (place : Location) :
    (Path.ofParts place).join (.ofString marker) = .ofParts (place ++ [marker]) := by
  rw [Path.ofString_of_isName hmarker]
  rfl

theorem fault?_ofParts_concat {place : Location} (hplace : IsPlace place) (name : String) :
    (Path.ofParts (place ++ [name])).fault? = nameFault? name := by
  have hnone : place.findSome? nameFault? = none := Path.fault?_ofParts hplace
  simp [Path.fault?, Path.ofParts, hnone]

theorem canLook_iff (hmarker : IsName marker) {place : Location} (hplace : IsPlace place)
    (hdirectory : files.HasDirectory place) :
    CanLook files marker place ↔ (nameFault? marker = none → Tree.Fits (place ++ [marker])) := by
  have hasks : files.asksTooMuch [] (place ++ [marker]) = false ↔ _ :=
    Tree.asksTooMuch_eq_false_iff (dots_not_mem hmarker hplace) hdirectory
  have hfits : (decide (Tree.pathLimit < nameSize (Path.ofParts (place ++ [marker])).text) ||
      files.asksTooMuch [] (place ++ [marker])) = false ↔ Tree.Fits (place ++ [marker]) := by
    rw [Bool.or_eq_false_iff, Tree.Fits]
    exact and_congr (by simp) hasks
  rw [CanLook, join_ofString hmarker, Tree.isTooLong, Bool.and_eq_false_imp,
    fault?_ofParts_concat hplace, Option.isNone_iff_eq_none]
  exact imp_congr_right fun _ => hfits

theorem isMarked_eq_error_iff {place : Location} {fault : PathFault} :
    isMarked files (.ofString marker) place = .error fault ↔
      ¬ CanLook files marker place ∧ PathFault.tooLong = fault := by
  unfold isMarked CanLook
  dsimp only
  split <;> simp_all

theorem isMarked_eq_ok_iff (hmarker : IsName marker) {place : Location} (hplace : IsPlace place)
    {marked : Bool} :
    isMarked files (.ofString marker) place = .ok marked ↔
      CanLook files marker place ∧ (files.HasDirectory (place ++ [marker]) ↔ marked = true) := by
  have hdirectory : files.isDirectory [] (.ofParts (place ++ [marker])) ↔
      files.HasDirectory (place ++ [marker]) :=
    Tree.isDirectory_iff_hasDirectory (dots_not_mem hmarker hplace)
  rw [← hdirectory, ← join_ofString hmarker, ← Bool.eq_iff_iff]
  unfold isMarked CanLook
  dsimp only
  split <;> simp_all

theorem isTried_self (start : Location) : IsTried files marker start start :=
  ⟨List.prefix_rfl, fun _ hq hq' hne => absurd (prefix_antisymm hq' hq) hne⟩

/-- From below, one place more is tried, and nothing else if it is marked. -/
theorem isTried_concat_iff {start p : Location} {name : String} :
    IsTried files marker (start ++ [name]) p ↔ p = start ++ [name] ∨
      ¬ files.HasDirectory (start ++ [name] ++ [marker]) ∧ IsTried files marker start p := by
  constructor
  · rintro ⟨hp, hvain⟩
    rcases List.prefix_concat_iff.mp hp with rfl | hp'
    · exact .inl rfl
    · have hne : start ++ [name] ≠ p := by
        rintro rfl
        simpa [Nat.not_succ_le_self] using hp'.length_le
      exact .inr ⟨hvain _ hp List.prefix_rfl hne,
        hp', fun q hq hq' => hvain q hq (hq'.trans (List.prefix_append _ _))⟩
  · rintro (rfl | ⟨hhere, hp, hvain⟩)
    · exact isTried_self _
    · refine ⟨hp.trans (List.prefix_append _ _), fun q hq hq' hne => ?_⟩
      rcases List.prefix_concat_iff.mp hq' with rfl | hq'
      · exact hhere
      · exact hvain q hq hq' hne

theorem IsTried.concat {start p : Location} (hp : IsTried files marker start p) {name : String}
    (h : ¬ files.HasDirectory (start ++ [name] ++ [marker])) :
    IsTried files marker (start ++ [name]) p :=
  isTried_concat_iff.mpr (.inr ⟨h, hp⟩)

/-- What a search up from a place comes to. -/
inductive Searched (files : Tree) (marker : String) (start : Location) :
    Except PathFault (Option Location) → Prop
  | brokenOff {p : Location} (tried : IsTried files marker start p)
    (hidden : ¬ CanLook files marker p) (fault : PathFault) :
    Searched files marker start (.error fault)
  | nearest (clear : ∀ p, IsTried files marker start p → CanLook files marker p) {place : Location}
    (found : IsNearest files marker start place) : Searched files marker start (.ok (some place))
  | nowhere (clear : ∀ p, IsTried files marker start p → CanLook files marker p)
    (unmarked : NoneMarked files marker start) : Searched files marker start (.ok none)

/-- A place where the marker is looked for in vain leaves the search to the places above it. -/
theorem Searched.concat {start : Location} {result : Except PathFault (Option Location)}
    (hsearched : Searched files marker start result) {name : String}
    (hlook : CanLook files marker (start ++ [name]))
    (hvain : ¬ files.HasDirectory (start ++ [name] ++ [marker])) :
    Searched files marker (start ++ [name]) result := by
  have hclear (h : ∀ p, IsTried files marker start p → CanLook files marker p) (p : Location)
      (hp : IsTried files marker (start ++ [name]) p) : CanLook files marker p := by
    rcases isTried_concat_iff.mp hp with rfl | ⟨_, hp⟩
    · exact hlook
    · exact h p hp
  cases hsearched with
  | brokenOff tried hidden fault => exact .brokenOff (tried.concat hvain) hidden fault
  | nearest clear found => exact .nearest (hclear clear) ⟨found.1.concat hvain, found.2⟩
  | nowhere clear unmarked =>
    refine .nowhere (hclear clear) fun p hp => ?_
    rcases List.prefix_concat_iff.mp hp with rfl | hp
    · exact hvain
    · exact unmarked p hp

/-- A place that holds the marker ends the search. -/
theorem searched_of_marked {start : Location} (hlook : CanLook files marker start)
    (hmarked : files.HasDirectory (start ++ [marker])) :
    Searched files marker start (.ok (some start)) := by
  refine .nearest (fun p ⟨hp, hvain⟩ => ?_) ⟨isTried_self start, hmarked⟩
  by_cases hself : start = p
  · exact hself ▸ hlook
  · exact absurd hmarked (hvain start hp List.prefix_rfl hself)

/-- One place is looked at, and those above it only if it is looked at in vain. -/
theorem searched_cons (hmarker : IsName marker) {start : Location} (hstart : IsPlace start)
    {above : List Location}
    (habove : CanLook files marker start → ¬ files.HasDirectory (start ++ [marker]) →
      Searched files marker start (above.findM? (isMarked files (.ofString marker)))) :
    Searched files marker start
      ((start :: above).findM? (isMarked files (.ofString marker))) := by
  cases htest : isMarked files (.ofString marker) start with
  | error fault =>
    rw [findM?_cons_of_eq_error htest]
    exact .brokenOff (isTried_self start) (isMarked_eq_error_iff.mp htest).1 fault
  | ok marked =>
    obtain ⟨hlook, hmarked⟩ := (isMarked_eq_ok_iff hmarker hstart).mp htest
    cases marked with
    | true =>
      rw [findM?_cons_of_eq_true htest]
      exact searched_of_marked hlook (hmarked.mpr rfl)
    | false =>
      rw [findM?_cons_of_eq_false htest]
      exact habove hlook fun hhere => Bool.false_ne_true (hmarked.mp hhere)

/-- Every search comes to one of these. -/
theorem searched (files : Tree) (hmarker : IsName marker) {start : Location}
    (hstart : IsPlace start) :
    Searched files marker start
      ((ancestors start).findM? (isMarked files (.ofString marker))) := by
  induction start using List.reverseRecOn with
  | nil =>
    rw [ancestors_nil]
    refine searched_cons hmarker hstart fun hlook hvain => .nowhere (fun p hp => ?_) fun p hp => ?_
    · exact List.prefix_nil.mp hp.1 ▸ hlook
    · exact List.prefix_nil.mp hp ▸ hvain
  | append_singleton start name ih =>
    rw [ancestors_concat]
    exact searched_cons hmarker hstart
      (ih (hstart.of_prefix (List.prefix_append _ _))).concat

/-- What the root of a start is, if a search comes to one. -/
def IsRoot (files : Tree) (marker : String) (start place : Location) : Prop :=
  IsNearest files marker start place ∨ place = start ∧ NoneMarked files marker start

/-- A search ends if the marker can be looked for wherever it is tried, and else breaks off. -/
theorem exists_findRoot_iff (hmarker : IsName marker) {start : Location} (hstart : IsPlace start) :
    (∃ place, findRoot files (.ofString marker) start = .ok place) ↔
      ∀ p, IsTried files marker start p → CanLook files marker p := by
  have hsearched := searched files hmarker hstart
  unfold findRoot
  generalize (ancestors start).findM? (isMarked files (.ofString marker)) = result at hsearched ⊢
  cases hsearched with
  | brokenOff tried hidden fault =>
    constructor
    · exact nofun
    · exact fun clear => absurd (clear _ tried) hidden
  | nearest clear found => exact ⟨fun _ => clear, fun _ => ⟨_, rfl⟩⟩
  | nowhere clear unmarked => exact ⟨fun _ => clear, fun _ => ⟨_, rfl⟩⟩

theorem isRoot_of_findRoot (hmarker : IsName marker) {start place : Location}
    (hstart : IsPlace start) (h : findRoot files (.ofString marker) start = .ok place) :
    IsRoot files marker start place := by
  have hsearched := searched files hmarker hstart
  unfold findRoot at h
  generalize (ancestors start).findM? (isMarked files (.ofString marker)) = result at hsearched h
  cases hsearched with
  | brokenOff => cases h
  | nearest clear found =>
    cases h
    exact .inl found
  | nowhere clear unmarked =>
    cases h
    exact .inr ⟨rfl, unmarked⟩

/-- Whoever starts between the place found and the start finds the same place. -/
theorem findRoot_between {path : Path} {start between place : Location}
    (h : findRoot files path start = .ok place) (habove : place <+: between)
    (hbelow : between <+: start) : findRoot files path between = .ok place := by
  unfold findRoot at h ⊢
  cases hfound : (ancestors start).findM? (isMarked files path) with
  | error fault =>
    rw [hfound] at h
    cases h
  | ok found =>
    rw [hfound] at h
    cases h
    cases found with
    | none =>
      obtain rfl : start = between := prefix_antisymm habove hbelow
      rw [hfound]
      rfl
    | some place =>
      obtain ⟨s, rfl⟩ := hbelow
      rw [findM?_of_ancestors_append hfound habove]
      rfl

theorem rootFrom_eq_ok_iff {base : Location} {path start r : Path} :
    rootFrom files base path start = .ok r ↔ start.fault? = none ∧
      ∃ place, findRoot files path (resolve base start) = .ok place ∧ .ofParts place = r := by
  unfold rootFrom
  cases start.fault? with
  | some fault => simp
  | none => cases findRoot files path (resolve base start) <;> simp [Except.map]

/-- A search that ends is repeated from any place between the one found and the start, whichever
directory it is made from. -/
theorem rootFrom_between {base : Location} {path start : Path} {place between : Location}
    (hstart : IsPlace (resolve base start))
    (h : findRoot files path (resolve base start) = .ok place) (habove : place <+: between)
    (hbelow : between <+: resolve base start) (elsewhere : Location) :
    rootFrom files elsewhere path (.ofParts between) = .ok (.ofParts place) := by
  have hbetween : IsPlace between := hstart.of_prefix hbelow
  rw [rootFrom_eq_ok_iff, resolve_ofParts hbetween]
  exact ⟨Path.fault?_ofParts hbetween, place, findRoot_between h habove hbelow, rfl⟩

end

/-- A project with a file of the marker's name further down. -/
def nestedSite : Tree where
  nodes :=
    [(["web"], .directory), (["web", markerName], .directory), (["web", "src"], .directory),
      (["web", "src", markerName], .file ⟨#[]⟩)]

/-- One byte longer than the name of any file. -/
def longMarker : String := String.ofList (List.replicate (Tree.nameLimit + 1) 'm')

theorem toList_longMarker : longMarker.toList = List.replicate 256 'm' := String.toList_ofList

theorem isName_longMarker : IsName longMarker := by
  have hother {s : String} (h : s.length ≠ 256) : longMarker ≠ s := by
    rintro rfl
    exact h (by rw [← String.length_toList, toList_longMarker, List.length_replicate])
  refine ⟨hother (by decide), hother (by decide), hother (by decide), ?_⟩
  rw [toList_longMarker, List.mem_replicate]
  decide

end Project

end ComponentAttrs
