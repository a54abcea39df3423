import ComponentAttrs.Proofs.Attribute.Bases

/-!
Names as segments between dots. A rule for binding looks for its modifiers as texts and not as
segments, so what counts is the letters that a segment begins with: `a.property` is cut at
`.property`, which is taken for `.prop`.

* `modifierPlace?_of_cutSegment?_eq_some`: where a modifier is found, told by segments;
* `cutsWholeSegment_iff`: which names are cut at a modifier that is a segment of its own.
-/
namespace ComponentAttrs.Attribute

/-! ## Segments -/

/-- The stretches of a text between its dots. -/
def segments (cs : List Char) : List (List Char) := cs.splitOn '.'

/-- Segments with a dot in front of each. -/
def dotted (later : List (List Char)) : List Char := later.flatMap ('.' :: ·)

/-- Nothing more, or another segment. -/
def Ended (rest : List Char) : Prop := rest = [] ∨ rest.head? = some '.'

theorem dotted_cons (s : List Char) (later : List (List Char)) :
    dotted (s :: later) = '.' :: (s ++ dotted later) := rfl

theorem dotted_append (before later : List (List Char)) :
    dotted (before ++ later) = dotted before ++ dotted later := List.flatMap_append

theorem ended_dotted (later : List (List Char)) : Ended (dotted later) := by
  cases later with
  | nil => exact .inl rfl
  | cons s later => exact .inr rfl

theorem exists_segments (cs : List Char) :
    ∃ first later, cs = first ++ dotted later ∧ ∀ s ∈ first :: later, '.' ∉ s := by
  induction cs with
  | nil => exact ⟨[], [], rfl, by simp⟩
  | cons c cs ih =>
    obtain ⟨first, later, rfl, h⟩ := ih
    by_cases hc : c = '.'
    · refine ⟨[], first :: later, by rw [hc, dotted_cons, List.nil_append], ?_⟩
      simpa using h
    · refine ⟨c :: first, later, rfl, ?_⟩
      simpa [Ne.symm hc] using h

theorem segments_append_dotted {first : List Char} {later : List (List Char)}
    (h : ∀ s ∈ first :: later, '.' ∉ s) : segments (first ++ dotted later) = first :: later := by
  induction later generalizing first with
  | nil => simpa [segments, dotted] using List.splitOn_eq_singleton (h first List.mem_cons_self)
  | cons s later ih =>
    have hrest := ih fun t ht => h t (List.mem_cons_of_mem _ ht)
    rw [segments] at hrest ⊢
    rw [dotted_cons, List.splitOn_append_cons_self_of_not_mem (h first List.mem_cons_self), hrest]

/-- Without a dot a text does not reach beyond a segment. -/
theorem isPrefix_append_iff {letters s rest : List Char} (h : '.' ∉ letters) (hrest : Ended rest) :
    letters <+: s ++ rest ↔ letters <+: s := by
  induction letters generalizing s with
  | nil => simp
  | cons c letters ih =>
    rw [List.mem_cons, not_or] at h
    cases s with
    | nil =>
      rcases hrest with rfl | hdot
      · rfl
      · obtain ⟨after, rfl⟩ := List.head?_eq_some_iff.mp hdot
        simp [Ne.symm h.1]
    | cons d s => rw [List.cons_append, List.cons_prefix_cons, List.cons_prefix_cons, ih h.2]

/-- A text has one first segment. -/
theorem segment_eq_of_append_eq {s t rest other : List Char} (hs : '.' ∉ s) (ht : '.' ∉ t)
    (hrest : Ended rest) (hother : Ended other) (h : s ++ rest = t ++ other) : s = t := by
  have hst : s <+: t := (isPrefix_append_iff hs hother).mp (h ▸ List.prefix_append s rest)
  have hts : t <+: s := (isPrefix_append_iff ht hrest).mp (h ▸ List.prefix_append t other)
  exact hst.eq_of_length_le hts.length_le

/-! ## Modifiers among segments -/

/-- A modifier without its dot. -/
def letters (modifier : String) : List Char := modifier.toList.tail

/-- A modifier of a single segment. -/
structure IsSegment (modifier : String) : Prop where
  toList_eq : modifier.toList = '.' :: letters modifier
  plain : '.' ∉ letters modifier

theorem isSegment_of_mem_bindModifiers {m : String} (h : m ∈ bindModifiers) : IsSegment m := by
  simp only [bindModifiers, List.mem_cons, List.not_mem_nil, or_false] at h
  rcases h with rfl | rfl | rfl <;> exact ⟨rfl, by decide⟩

/-- The first segment behind a dot that begins with the letters of a modifier, unless the text
itself begins with the modifier. -/
def segmentAt? (cs : List Char) (modifier : String) : Option (List Char) :=
  if modifier.toList <+: cs then none
  else (segments cs).tail.find? fun s => (letters modifier).isPrefixOf s

/-- A text ends its base in front of a segment: the first one behind a dot that begins with the
letters of a modifier. -/
structure CutAt (modifier : String) (segment base cs : List Char) : Prop where
  split : ∃ rest, cs = base ++ '.' :: (segment ++ rest) ∧ Ended rest
  plain : '.' ∉ segment
  opens : letters modifier <+: segment
  first : ∀ t ∈ (segments base).tail, ¬ letters modifier <+: t

theorem CutAt.base_ne {m : String} {s base cs : List Char} (h : CutAt m s base cs) : base ≠ cs := by
  obtain ⟨rest, hsplit, -⟩ := h.split
  rintro rfl
  simp at hsplit

/-- Segments that do not begin with some letters are passed over when the letters are looked for. -/
theorem findText_dotted_append {text : List Char} (htext : '.' ∉ text)
    {before : List (List Char)} (hplain : ∀ s ∈ before, '.' ∉ s)
    (hbefore : ∀ s ∈ before, ¬ text <+: s) (later : List (List Char)) :
    findText ('.' :: text) (dotted (before ++ later)) =
      (findText ('.' :: text) (dotted later)).map (· + (dotted before).length) := by
  induction before with
  | nil => simp [dotted]
  | cons s before ih =>
    rw [List.forall_mem_cons] at hplain hbefore
    have hnot : ('.' :: text).isPrefixOf ('.' :: (s ++ dotted (before ++ later))) = false := by
      rw [← Bool.not_eq_true, List.isPrefixOf_iff_prefix, List.cons_prefix_cons,
        isPrefix_append_iff htext (ended_dotted _)]
      exact fun h => hbefore.1 h.2
    rw [List.cons_append, dotted_cons, findText, hnot, if_neg Bool.false_ne_true,
      findText_append hplain.1, ih hplain.2 hbefore.2, dotted_cons, Option.map_map, Option.map_map]
    congr 1
    funext place
    simp only [Function.comp_apply, List.length_cons, List.length_append]
    omega

section

variable {m : String} (hm : IsSegment m) {cs : List Char}

include hm

/-- A modifier is found where the first segment stands that begins with its letters. -/
theorem findText_append_dotted {first s : List Char} {before : List (List Char)}
    (hplain : ∀ t ∈ first :: before, '.' ∉ t) (hbefore : ∀ t ∈ before, ¬ letters m <+: t)
    (hs : letters m <+: s) (after : List (List Char)) :
    findText m.toList (first ++ dotted (before ++ s :: after)) =
      some (first ++ dotted before).length := by
  rw [List.forall_mem_cons] at hplain
  have hhere : findText ('.' :: letters m) (dotted (s :: after)) = some 0 := by
    rw [findText_eq_some_zero_iff, dotted_cons, List.cons_prefix_cons]
    exact ⟨rfl, hs.trans (List.prefix_append _ _)⟩
  rw [hm.toList_eq, findText_append hplain.1, findText_dotted_append hm.plain hplain.2 hbefore,
    hhere]
  simp [Nat.add_comm]

theorem findText_of_segmentAt?_eq_none (h : segmentAt? cs m = none) :
    (findText m.toList cs).filter (0 < ·) = none := by
  obtain ⟨first, later, rfl, hplain⟩ := exists_segments cs
  rw [segmentAt?, segments_append_dotted hplain] at h
  rw [List.forall_mem_cons] at hplain
  split at h
  · next hpre =>
    rw [findText_eq_some_zero_iff.mpr hpre]
    rfl
  · have hlater : ∀ s ∈ later, ¬ letters m <+: s := by
      simpa [List.isPrefixOf_iff_prefix] using h
    have hnone : findText m.toList (first ++ dotted later) = none := by
      rw [hm.toList_eq, findText_append hplain.1, ← List.append_nil later,
        findText_dotted_append hm.plain hplain.2 hlater]
      rfl
    rw [hnone, Option.filter_none]

theorem findText_of_segmentAt?_eq_some {s : List Char} (h : segmentAt? cs m = some s) :
    ∃ base, CutAt m s base cs ∧ (findText m.toList cs).filter (0 < ·) = some base.length := by
  obtain ⟨first, later, rfl, hplain⟩ := exists_segments cs
  rw [segmentAt?, segments_append_dotted hplain] at h
  rw [List.forall_mem_cons] at hplain
  split at h
  · cases h
  · next hpre =>
    obtain ⟨hs, before, after, rfl, hbefore⟩ := List.find?_eq_some_iff_append.mp h
    rw [List.isPrefixOf_iff_prefix] at hs
    have hnot : ∀ t ∈ before, ¬ letters m <+: t := by
      simpa [← List.isPrefixOf_iff_prefix] using hbefore
    have hbase : ∀ t ∈ first :: before, '.' ∉ t := by
      rw [List.forall_mem_cons]
      exact ⟨hplain.1, fun t ht => hplain.2 t (List.mem_append_left _ ht)⟩
    have hfound := findText_append_dotted hm hbase hnot hs after
    have hpos : 0 < (first ++ dotted before).length := by
      rw [Nat.pos_iff_ne_zero]
      intro hzero
      rw [hzero, findText_eq_some_zero_iff] at hfound
      exact hpre hfound
    refine ⟨first ++ dotted before, ⟨⟨dotted after, ?_, ended_dotted after⟩, ?_, hs, ?_⟩, ?_⟩
    · rw [dotted_append, dotted_cons, List.append_assoc]
    · exact hplain.2 s (List.mem_append_right _ List.mem_cons_self)
    · rw [segments_append_dotted hbase]
      exact hnot
    · rw [hfound, filter_place hpos]

end

/-! ## Where a binding is cut -/

/-- The segment at which a binding is cut, with the modifier that it is taken for: the first one of
the table that some segment begins with. -/
def cutSegment? (cs : List Char) : Option (String × List Char) :=
  bindModifiers.findSome? fun m => (segmentAt? cs m).map (m, ·)

theorem modifierPlace?_of_cutSegment?_eq_none {cs : List Char} (h : cutSegment? cs = none) :
    modifierPlace? bindModifiers cs = none := by
  rw [cutSegment?, List.findSome?_eq_none_iff] at h
  rw [modifierPlace?, List.findSome?_eq_none_iff]
  intro m hm
  exact findText_of_segmentAt?_eq_none (isSegment_of_mem_bindModifiers hm)
    (Option.map_eq_none_iff.mp (h m hm))

theorem modifierPlace?_of_cutSegment?_eq_some {cs : List Char} {m : String} {s : List Char}
    (h : cutSegment? cs = some (m, s)) : m ∈ bindModifiers ∧
      ∃ base, CutAt m s base cs ∧ modifierPlace? bindModifiers cs = some base.length := by
  obtain ⟨earlier, m', later, hsplit, hfound, hearlier⟩ := List.findSome?_eq_some_iff.mp h
  obtain ⟨s', hs', heq⟩ := Option.map_eq_some_iff.mp hfound
  obtain ⟨rfl, rfl⟩ := Prod.mk.inj heq
  have hm : m' ∈ bindModifiers := by
    rw [hsplit]
    exact List.mem_append_right _ List.mem_cons_self
  obtain ⟨base, hcut, hplace⟩ :=
    findText_of_segmentAt?_eq_some (isSegment_of_mem_bindModifiers hm) hs'
  refine ⟨hm, base, hcut, ?_⟩
  rw [modifierPlace?, List.findSome?_eq_some_iff]
  refine ⟨earlier, m', later, hsplit, hplace, ?_⟩
  intro other hother
  have hmem : other ∈ bindModifiers := by
    rw [hsplit]
    exact List.mem_append_left _ hother
  exact findText_of_segmentAt?_eq_none (isSegment_of_mem_bindModifiers hmem)
    (Option.map_eq_none_iff.mp (hearlier other hother))

section

variable {lead name : String} (hlead : lead ∈ [":", "v-bind:"])

include hlead

theorem boundName?_bind (hname : name ≠ "") : Grammar.standard.boundName? (lead ++ name) =
    match modifierPlace? bindModifiers name.toList with
    | some place => some (String.ofList (name.toList.take place))
    | none => some name := by
  have hany : bindModifiers.contains anyModifier = false := by decide
  rw [boundName?_append (mem_bindings_bind hlead) hname, Rule.base]
  simp only [hany, Bool.false_eq_true, ↓reduceIte]
  cases modifierPlace? bindModifiers name.toList with
  | none => simp only [String.ofList_toList]
  | some place => rfl

theorem boundName?_bind_empty : Grammar.standard.boundName? (lead ++ "") = none := by
  simp only [List.mem_cons, List.not_mem_nil, or_false] at hlead
  rcases hlead with rfl | rfl <;> decide

theorem boundName?_of_cutSegment?_eq_some {m : String} {s : List Char}
    (h : cutSegment? name.toList = some (m, s)) :
    ∃ base, Grammar.standard.boundName? (lead ++ name) = some base ∧
      CutAt m s base.toList name.toList := by
  obtain ⟨-, base, hcut, hplace⟩ := modifierPlace?_of_cutSegment?_eq_some h
  obtain ⟨rest, hsplit, -⟩ := hcut.split
  have hname : name ≠ "" := by
    rintro rfl
    simp at hsplit
  refine ⟨String.ofList base, ?_, by rwa [String.toList_ofList]⟩
  rw [boundName?_bind hlead hname, hplace]
  simp only [hsplit, List.take_left]

theorem boundName?_eq_self_iff (hname : name ≠ "") :
    Grammar.standard.boundName? (lead ++ name) = some name ↔ cutSegment? name.toList = none := by
  constructor
  · intro h
    rw [Option.eq_none_iff_forall_ne_some]
    rintro ⟨m, s⟩ hcut
    obtain ⟨base, hbase, hat⟩ := boundName?_of_cutSegment?_eq_some hlead hcut
    rw [h, Option.some_inj] at hbase
    exact hat.base_ne (congrArg String.toList hbase.symm)
  · intro h
    rw [boundName?_bind hlead hname, modifierPlace?_of_cutSegment?_eq_none h]

end

/-- What is cut off a binding begins with a modifier that is a segment of its own. -/
def CutsWholeSegment (lead name : String) : Prop :=
  ∀ base, Grammar.standard.boundName? (lead ++ name) = some base → base ≠ name →
    ∃ m ∈ bindModifiers, ∃ rest, name.toList = base.toList ++ (m.toList ++ rest) ∧ Ended rest

/-- **Where bindings are cut.** A binding is returned as it is if no segment behind a dot begins with
the letters of a modifier, modifiers that the whole begins with left aside; else it ends in front of
the first segment that begins with the letters of the first such modifier. So what is cut off begins
with a modifier that is a segment of its own exactly if that segment is no longer than the
modifier. -/
theorem cutsWholeSegment_iff {lead : String} (hlead : lead ∈ [":", "v-bind:"]) (name : String) :
    (name ≠ "" → (Grammar.standard.boundName? (lead ++ name) = some name ↔
      cutSegment? name.toList = none)) ∧
    (∀ m s, cutSegment? name.toList = some (m, s) →
      ∃ base, Grammar.standard.boundName? (lead ++ name) = some base ∧
        CutAt m s base.toList name.toList) ∧
    (CutsWholeSegment lead name ↔
      ∀ m s, cutSegment? name.toList = some (m, s) → s = letters m) := by
  refine ⟨boundName?_eq_self_iff hlead, fun m s => boundName?_of_cutSegment?_eq_some hlead, ?_⟩
  -- no modifier begins another one
  have hapart : ∀ m ∈ bindModifiers, ∀ other ∈ bindModifiers, letters m <+: letters other →
      m = other := by decide
  constructor
  · intro h m s hcut
    obtain ⟨base, hbase, hat⟩ := boundName?_of_cutSegment?_eq_some hlead hcut
    have hne : base ≠ name := fun heq => hat.base_ne (congrArg String.toList heq)
    obtain ⟨rest, hsplit, hrest⟩ := hat.split
    obtain ⟨other, hother, after, hcutoff, hafter⟩ := h base hbase hne
    have hsegment := isSegment_of_mem_bindModifiers hother
    rw [hsplit, hsegment.toList_eq, List.append_cancel_left_eq, List.cons_append,
      List.cons.injEq] at hcutoff
    have hs : s = letters other :=
      segment_eq_of_append_eq hat.plain hsegment.plain hrest hafter hcutoff.2
    have hm := (modifierPlace?_of_cutSegment?_eq_some hcut).1
    rw [hs, hapart m hm other hother (hs ▸ hat.opens)]
  · intro h base hbase hne
    have hname : name ≠ "" := by
      rintro rfl
      rw [boundName?_bind_empty hlead] at hbase
      cases hbase
    cases hcut : cutSegment? name.toList with
    | none =>
      rw [← boundName?_eq_self_iff hlead hname, hbase, Option.some_inj] at hcut
      exact absurd hcut hne
    | some cut =>
      obtain ⟨m, s⟩ := cut
      obtain ⟨other, hother, hat⟩ := boundName?_of_cutSegment?_eq_some hlead hcut
      obtain rfl : other = base := Option.some.inj (hother.symm.trans hbase)
      obtain ⟨rest, hsplit, hrest⟩ := hat.split
      have hm := (modifierPlace?_of_cutSegment?_eq_some hcut).1
      refine ⟨m, hm, rest, ?_, hrest⟩
      rw [hsplit, h m s hcut, (isSegment_of_mem_bindModifiers hm).toList_eq, List.cons_append]

/-- A binding that is cut at its third segment, in front of a modifier that comes earlier in the
table than the one behind it. -/
theorem camel_segment_cut_whole :
    ":" ∈ [":", "v-bind:"] ∧
    cutSegment? "value.x.camel.sync".toList = some (".camel", "camel".toList) ∧
    Grammar.standard.boundName? (":" ++ "value.x.camel.sync") = some "value.x" ∧
    CutsWholeSegment ":" "value.x.camel.sync" := by
  have hlead : ":" ∈ [":", "v-bind:"] := by decide
  have hcut : cutSegment? "value.x.camel.sync".toList = some (".camel", "camel".toList) := by
    decide
  refine ⟨hlead, hcut, by decide, (cutsWholeSegment_iff hlead _).2.2.mpr ?_⟩
  intro m s h
  obtain ⟨rfl, rfl⟩ := Prod.mk.inj (Option.some.inj (hcut.symm.trans h))
  rfl

/-- A segment that only begins with the letters of a modifier is cut off, though no segment is a
modifier. -/
theorem property_segment_cut_off :
    (∀ s ∈ (segments "a.property".toList).tail, ∀ m ∈ bindModifiers, s ≠ letters m) ∧
    Grammar.standard.boundName? (":" ++ "a.property") = some "a" ∧
    ¬ CutsWholeSegment ":" "a.property" := by
  have hbound : Grammar.standard.boundName? (":" ++ "a.property") = some "a" := by decide
  refine ⟨by decide, hbound, ?_⟩
  intro h
  obtain ⟨m, hm, rest, hsplit, hrest⟩ := h "a" hbound (by decide)
  simp only [bindModifiers, List.mem_cons, List.not_mem_nil, or_false] at hm
  rcases hm with rfl | rfl | rfl
  · obtain rfl : rest = "erty".toList := by simpa using hsplit.symm
    exact absurd hrest (by simp [Ended])
  · simp at hsplit
  · simp at hsplit

end ComponentAttrs.Attribute
