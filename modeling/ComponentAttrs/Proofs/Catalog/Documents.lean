import ComponentAttrs.Catalog.Reading
import ComponentAttrs.Proofs.Document.Written

/-!
Which documents are catalogs. A document is read field by field, and reading breaks off at the first
fault; here the documents without fault are described as a whole.

* `DocumentShape`, `FilesAreTexts`, `NamesAreShown`: what a document must be like, a condition for
  each kind of fault;
* `Heeds`: a reader that fails only with a fault that is there, and only gives a value if there is
  none;
* `accepts_exactly_documents`: a document is a catalog if and only if it meets all conditions.
-/
namespace ComponentAttrs

open ComponentAttrs.Files ComponentAttrs.Document

/-! ## Documents -/

/-- The entries of a mapping; what is no mapping has none. -/
def fieldsOf (v : Value) : Entries := v.entries?.getD []

def IsMapping (v : Value) : Prop := v.truthy = false ∨ ∃ o entries, v = .map o entries

/-- Nothing, a single name, or a list of names only. -/
inductive IsNames : Value → Prop
  | nothing : IsNames .null
  | single (s : String) : IsNames (.text s)
  | several (o : Origin) (names : List String) : IsNames (.list o (names.map .text))

def IsProps (v : Value) : Prop :=
  IsNames v ∨ ∃ o entries, v = .map o entries ∧ ∀ e ∈ entries, IsMapping e.2

def IsComponents (v : Value) : Prop := IsNames v ∨ ∃ o entries, v = .map o entries

def IsExtends (v : Value) : Prop := v = .null ∨ ∃ s, v = .text s

def IsFile (v : Value) : Prop := v.truthy = false ∨ ∃ s, v = .text s

structure DeclarationShape (v : Value) : Prop where
  mapping : IsMapping v
  extended : IsExtends (field (fieldsOf v) "extends")
  props : IsProps (field (fieldsOf v) "props")
  data : IsNames (field (fieldsOf v) "data")
  computed : IsNames (field (fieldsOf v) "computed")
  methods : IsNames (field (fieldsOf v) "methods")
  mixins : IsNames (field (fieldsOf v) "mixins")
  components : IsComponents (field (fieldsOf v) "components")
  directives : IsNames (field (fieldsOf v) "directives")

/-- Names that stand as keys may be values of any kind, and so may the components that local names
stand for. -/
structure DeclarationNames (v : Value) : Prop where
  props : ∀ e ∈ fieldsOf (field (fieldsOf v) "props"), IsShown e.1
  components : ∀ e ∈ fieldsOf (field (fieldsOf v) "components"), IsShown e.1 ∧ IsShown e.2

def declarationsOf (v : Value) : Entries := fieldsOf (field (fieldsOf v) "components")

structure DocumentShape (v : Value) : Prop where
  mapping : ∃ o entries, v = .map o entries
  components : IsMapping (field (fieldsOf v) "components")
  declarations : ∀ d ∈ declarationsOf v, DeclarationShape d.2
  globalMixins : IsNames (field (fieldsOf v) "global_mixins")
  globalDirectives : IsNames (field (fieldsOf v) "global_directives")

def FilesAreTexts (v : Value) : Prop :=
  ∀ d ∈ declarationsOf v, IsFile (field (fieldsOf d.2) "file")

def NamesAreShown (v : Value) : Prop :=
  ∀ d ∈ declarationsOf v, IsShown d.1 ∧ DeclarationNames d.2

/-- Scalars are names, as long as their numbers are not too long. -/
theorem namesAreShown_of_plain {v : Value}
    (hnames : ∀ d ∈ declarationsOf v, Plain 0 d.1)
    (hprops : ∀ d ∈ declarationsOf v, ∀ e ∈ fieldsOf (field (fieldsOf d.2) "props"), Plain 0 e.1)
    (hcomponents : ∀ d ∈ declarationsOf v, ∀ e ∈ fieldsOf (field (fieldsOf d.2) "components"),
      Plain 0 e.1 ∧ Plain 0 e.2) : NamesAreShown v := by
  intro d hd
  refine ⟨(hnames d hd).isShown, fun e he => (hprops d hd e he).isShown, fun e he => ?_⟩
  obtain ⟨hname, htarget⟩ := hcomponents d hd e he
  exact ⟨hname.isShown, htarget.isShown⟩

/-! ## Faults -/

/-- What can be wrong with a document. There is an error for a wrong shape only. -/
inductive Fault where
  | shape
  | file
  | name

def ReadFailure.fault : ReadFailure → Fault
  | .refused _ => .shape
  | .pathNotText => .file
  | .unshown _ => .name

/-- Only one kind of fault is possible, and it is there unless the condition holds. -/
def Fault.unless (fault : Fault) (condition : Prop) : Fault → Prop :=
  fun k => k = fault → condition

def DeclarationSound (v : Value) : Fault → Prop
  | .shape => DeclarationShape v
  | .file => IsFile (field (fieldsOf v) "file")
  | .name => DeclarationNames v

def DocumentSound (v : Value) : Fault → Prop
  | .shape => DocumentShape v
  | .file => FilesAreTexts v
  | .name => NamesAreShown v

/-- A result that heeds conditions, one for each kind of fault: a value if all of them hold, and a
fault whose condition does not. -/
def Heeds {α : Type} (sound : Fault → Prop) : Except ReadFailure α → Prop
  | .ok _ => ∀ k, sound k
  | .error e => ¬ sound e.fault

section

variable {α β : Type} {p q : Fault → Prop}

theorem Heeds.exists_ok_iff {x : Except ReadFailure α} (h : Heeds p x) :
    (∃ a, x = .ok a) ↔ ∀ k, p k := by
  cases x with
  | ok a => exact ⟨fun _ => h, fun _ => ⟨a, rfl⟩⟩
  | error e => exact ⟨nofun, fun hall => absurd (hall e.fault) h⟩

theorem Heeds.not_of_error {x : Except ReadFailure α} (h : Heeds p x) {e : ReadFailure}
    (he : x = .error e) : ¬ p e.fault := by
  subst he
  exact h

theorem Heeds.congr {x : Except ReadFailure α} (h : Heeds p x) (hpq : ∀ k, p k ↔ q k) :
    Heeds q x := by
  obtain rfl : p = q := funext fun k => propext (hpq k)
  exact h

theorem heeds_ok (a : α) : Heeds (fun _ => True) (.ok a : Except ReadFailure α) :=
  fun _ => trivial

/-- A reader after another heeds the conditions of both. -/
theorem Heeds.bind {x : Except ReadFailure α} {f : α → Except ReadFailure β} (h : Heeds p x)
    (hf : ∀ a, x = .ok a → Heeds q (f a)) : Heeds (fun k => p k ∧ q k) (x >>= f) := by
  cases x with
  | error e => exact fun hboth => h hboth.1
  | ok a =>
    have hnext := hf a rfl
    change Heeds _ (f a)
    cases hfa : f a with
    | error e =>
      rw [hfa] at hnext
      exact fun hboth => hnext hboth.2
    | ok b =>
      rw [hfa] at hnext
      exact fun k => ⟨h k, hnext k⟩

theorem heeds_mapM {f : α → Except ReadFailure β} {sound : α → Fault → Prop} {as : List α}
    (h : ∀ a ∈ as, Heeds (sound a) (f a)) :
    Heeds (fun k => ∀ a ∈ as, sound a k) (as.mapM f) := by
  induction as with
  | nil => exact fun k => nofun
  | cons a as ih =>
    have hrest := ih fun a ha => h a (List.mem_cons_of_mem _ ha)
    rw [List.mapM_cons]
    have hall := (h a (List.mem_cons_self ..)).bind fun b _ => hrest.bind fun bs _ =>
      heeds_ok (b :: bs)
    exact hall.congr fun k => by simp

end

/-! ## Readers -/

theorem text?_eq_some_iff {v : Value} {s : String} : v.text? = some s ↔ v = .text s := by
  cases v <;> simp [Value.text?]

theorem mapM_text?_eq_some_iff {items : List Value} {names : List String} :
    items.mapM Value.text? = some names ↔ items = names.map Value.text := by
  induction items generalizing names with
  | nil => cases names <;> simp
  | cons v items ih =>
    simp only [List.mapM_cons, bind, Option.bind_eq_some_iff, text?_eq_some_iff, ih, pure,
      Option.some.injEq]
    constructor
    · rintro ⟨s, rfl, rest, rfl, rfl⟩
      rfl
    · intro h
      cases names with
      | nil => cases h
      | cons s rest =>
        obtain ⟨rfl, rfl⟩ := List.cons.inj h
        exact ⟨s, rfl, rest, rfl, rfl⟩

theorem heeds_mapError_unshown {x : Shown String} {condition : Prop}
    (h : condition ↔ ∃ s, x = .ok s) :
    Heeds (Fault.unless .name condition) (x.mapError .unshown) := by
  cases x with
  | ok s => exact fun _ _ => h.mpr ⟨s, rfl⟩
  | error o =>
    intro hcondition
    obtain ⟨s, hs⟩ := h.mp (hcondition rfl)
    cases hs

theorem heeds_readName (v : Value) : Heeds (Fault.unless .name (IsShown v)) (readName v) :=
  heeds_mapError_unshown Iff.rfl

theorem heeds_mappingOr (error : CatalogError) (v : Value) :
    Heeds (Fault.unless .shape (IsMapping v)) (mappingOr error v) := by
  unfold mappingOr
  cases htruthy : v.truthy with
  | false => exact fun _ _ => .inl htruthy
  | true =>
    cases v with
    | map o entries => exact fun _ _ => .inr ⟨o, entries, rfl⟩
    | _ =>
      intro hmapping
      rcases hmapping rfl with hfalsy | ⟨_, _, heq⟩
      · rw [htruthy] at hfalsy
        cases hfalsy
      · cases heq

theorem eq_fieldsOf_of_mappingOr {error : CatalogError} {v : Value} {entries : Entries}
    (h : mappingOr error v = .ok entries) : entries = fieldsOf v := by
  unfold mappingOr at h
  cases htruthy : v.truthy with
  | false =>
    simp only [htruthy, Bool.false_eq_true, ↓reduceIte, Except.ok.injEq] at h
    subst h
    cases v with
    | map o entries => simpa [Value.truthy, fieldsOf, Value.entries?] using htruthy.symm
    | _ => rfl
  | true =>
    cases hentries : v.entries? with
    | none => simp [htruthy, hentries] at h
    | some es =>
      simp only [htruthy, ↓reduceIte, hentries, Except.ok.injEq] at h
      simp [fieldsOf, hentries, h]

theorem heeds_readNames (owner : String) (list : NameList) (v : Value) :
    Heeds (Fault.unless .shape (IsNames v)) (readNames owner list v) := by
  cases v with
  | null => exact fun _ _ => .nothing
  | text s => exact fun _ _ => .single s
  | list o items =>
    unfold readNames
    dsimp only
    cases hnames : items.mapM Value.text? with
    | some names =>
      obtain rfl := mapM_text?_eq_some_iff.mp hnames
      exact fun _ _ => .several o names
    | none =>
      intro hlist
      cases hlist rfl with
      | several o names =>
        rw [mapM_text?_eq_some_iff.mpr rfl] at hnames
        cases hnames
  | _ =>
    intro hnames
    cases hnames rfl

theorem heeds_readExtends (component : String) (v : Value) :
    Heeds (Fault.unless .shape (IsExtends v)) (readExtends component v) := by
  cases v with
  | null => exact fun _ _ => .inl rfl
  | text s => exact fun _ _ => .inr ⟨s, rfl⟩
  | _ =>
    intro hextends
    rcases hextends rfl with heq | ⟨_, heq⟩ <;> cases heq

theorem heeds_readSourcePath (source : Option Path) (v : Value) :
    Heeds (Fault.unless .file (IsFile v)) (readSourcePath source v) := by
  unfold readSourcePath
  cases htruthy : v.truthy with
  | false => exact fun _ _ => .inl htruthy
  | true =>
    cases v with
    | text s => exact fun _ _ => .inr ⟨s, rfl⟩
    | _ =>
      intro hfile
      rcases hfile rfl with hfalsy | ⟨_, heq⟩
      · rw [htruthy] at hfalsy
        cases hfalsy
      · cases heq

theorem heeds_readProp (owner : String) (prop options : Value) :
    Heeds (fun k => Fault.unless .name (IsShown prop) k ∧ Fault.unless .shape (IsMapping options) k)
      (readProp owner prop options) := by
  have hshown : Heeds (Fault.unless .name (IsShown prop)) (prop.inspected.mapError .unshown) :=
    heeds_mapError_unshown isShown_iff
  have hread := hshown.bind fun shown _ =>
    (heeds_mappingOr (.optionsNotMapping owner shown) options).bind fun entries _ =>
      (heeds_readName prop).bind fun name _ =>
        heeds_ok (PropSpec.mk name (field entries "required").truthy)
  exact hread.congr fun k => by
    constructor
    · rintro ⟨hname, hshape, _⟩
      exact ⟨hname, hshape⟩
    · rintro ⟨hname, hshape⟩
      exact ⟨hname, hshape, hname, trivial⟩

/-- Names, in a place where a mapping may stand too. -/
theorem heeds_readNames_bind {α : Type} {v : Value} (hv : ∀ o entries, v ≠ .map o entries)
    (owner : String) (list : NameList) (read : List String → α) {shape : Prop}
    (hshape : shape ↔ IsNames v) (shown : Value × Value → Prop) :
    Heeds (fun k => Fault.unless .shape shape k ∧ Fault.unless .name (∀ e ∈ fieldsOf v, shown e) k)
      (readNames owner list v >>= fun names => .ok (read names)) := by
  have hfields : fieldsOf v = [] := by
    cases v with
    | map o entries => exact absurd rfl (hv o entries)
    | _ => rfl
  have hread := (heeds_readNames owner list v).bind fun names _ => heeds_ok (read names)
  refine hread.congr fun k => ?_
  rw [hfields, hshape]
  exact ⟨fun h => ⟨h.1, fun _ => nofun⟩, fun h => ⟨h.1, trivial⟩⟩

theorem heeds_readProps (owner : String) (v : Value) :
    Heeds (fun k => Fault.unless .shape (IsProps v) k ∧
      Fault.unless .name (∀ e ∈ fieldsOf v, IsShown e.1) k) (readProps owner v) := by
  unfold readProps
  split
  · next o entries =>
    have hread := heeds_mapM fun e (_ : e ∈ entries) => heeds_readProp owner e.1 e.2
    refine hread.congr fun k => ⟨fun h => ⟨fun hk => ?_, fun hk e he => (h e he).1 hk⟩,
      fun ⟨hshape, hnames⟩ e he => ⟨fun hk => hnames hk e he, fun hk => ?_⟩⟩
    · exact .inr ⟨o, entries, rfl, fun e he => (h e he).2 hk⟩
    · rcases hshape hk with hnames | ⟨_, _, heq, hall⟩
      · cases hnames
      · cases heq
        exact hall e he
  · next hv =>
    refine heeds_readNames_bind hv owner .props _ ⟨fun h => ?_, .inl⟩ _
    rcases h with hnames | ⟨o, entries, rfl, _⟩
    · exact hnames
    · exact absurd rfl (hv o entries)

theorem heeds_readComponents (owner : String) (v : Value) :
    Heeds (fun k => Fault.unless .shape (IsComponents v) k ∧
      Fault.unless .name (∀ e ∈ fieldsOf v, IsShown e.1 ∧ IsShown e.2) k)
      (readComponents owner v) := by
  unfold readComponents
  split
  · next o entries =>
    have hread := heeds_mapM fun e (_ : e ∈ entries) =>
      (heeds_readName e.1).bind fun name _ => (heeds_readName e.2).bind fun target _ =>
        heeds_ok (name, target)
    refine hread.congr fun k => ⟨fun h => ⟨fun _ => .inr ⟨o, entries, rfl⟩, fun hk e he => ?_⟩,
      fun ⟨_, hnames⟩ e he => ⟨fun hk => (hnames hk e he).1, fun hk => (hnames hk e he).2, trivial⟩⟩
    exact ⟨(h e he).1 hk, (h e he).2.1 hk⟩
  · next hv =>
    refine heeds_readNames_bind hv owner .components _ ⟨fun h => ?_, .inl⟩ _
    rcases h with hnames | ⟨o, entries, rfl⟩
    · exact hnames
    · exact absurd rfl (hv o entries)

theorem heeds_readEntry (source : Option Path) (name : String) (v : Value) :
    Heeds (DeclarationSound v) (readEntry source name v) := by
  have hread : Heeds _ (readEntry source name v) :=
    (heeds_mappingOr (.entryNotMapping name) v).bind fun spec hspec => by
      obtain rfl := eq_fieldsOf_of_mappingOr hspec
      exact (heeds_readSourcePath source _).bind fun sourcePath _ =>
        (heeds_readExtends name _).bind fun extended _ =>
        (heeds_readProps name _).bind fun props _ =>
        (heeds_readNames name .data _).bind fun data _ =>
        (heeds_readNames name .computed _).bind fun computed _ =>
        (heeds_readNames name .methods _).bind fun methods _ =>
        (heeds_readNames name .mixins _).bind fun mixins _ =>
        (heeds_readComponents name _).bind fun components _ =>
        (heeds_readNames name .directives _).bind fun directives _ =>
        heeds_ok _
  refine hread.congr fun k => ?_
  cases k with
  | shape =>
    constructor
    · rintro ⟨hmapping, -, hextended, ⟨hprops, -⟩, hdata, hcomputed, hmethods, hmixins,
        ⟨hcomponents, -⟩, hdirectives, -⟩
      exact ⟨hmapping rfl, hextended rfl, hprops rfl, hdata rfl, hcomputed rfl, hmethods rfl,
        hmixins rfl, hcomponents rfl, hdirectives rfl⟩
    · intro h
      exact ⟨fun _ => h.mapping, nofun, fun _ => h.extended, ⟨fun _ => h.props, nofun⟩,
        fun _ => h.data, fun _ => h.computed, fun _ => h.methods, fun _ => h.mixins,
        ⟨fun _ => h.components, nofun⟩, fun _ => h.directives, trivial⟩
  | file =>
    constructor
    · rintro ⟨-, hfile, -⟩
      exact hfile rfl
    · intro h
      exact ⟨nofun, fun _ => h, nofun, ⟨nofun, nofun⟩, nofun, nofun, nofun, nofun, ⟨nofun, nofun⟩,
        nofun, trivial⟩
  | name =>
    constructor
    · rintro ⟨-, -, -, ⟨-, hprops⟩, -, -, -, -, ⟨-, hcomponents⟩, -⟩
      exact ⟨hprops rfl, hcomponents rfl⟩
    · intro h
      exact ⟨nofun, nofun, nofun, ⟨nofun, fun _ => h.props⟩, nofun, nofun, nofun, nofun,
        ⟨nofun, fun _ => h.components⟩, nofun, trivial⟩

theorem heeds_readEntries (source : Option Path) (declarations : Entries) :
    Heeds (fun k => ∀ d ∈ declarations, Fault.unless .name (IsShown d.1) k ∧ DeclarationSound d.2 k)
      (readEntries source declarations) :=
  heeds_mapM fun d _ => (heeds_readName d.1).bind fun name _ => heeds_readEntry source name d.2

theorem heeds_ofValue (source : Option Path) (v : Value) :
    Heeds (DocumentSound v) (Catalog.ofValue source v) := by
  cases v with
  | map o root =>
    have hread : Heeds _ (Catalog.ofValue source (.map o root)) :=
      (heeds_mappingOr .componentsNotMapping (field root "components")).bind fun declarations h => by
        obtain rfl := eq_fieldsOf_of_mappingOr h
        exact (heeds_readEntries source _).bind fun declared _ =>
          (heeds_readNames catalogOwner .globalMixins _).bind fun mixins _ =>
          (heeds_readNames catalogOwner .globalDirectives _).bind fun directives _ =>
          heeds_ok _
    refine hread.congr fun k => ?_
    cases k with
    | shape =>
      constructor
      · rintro ⟨hcomponents, hdeclarations, hmixins, hdirectives, -⟩
        exact ⟨⟨o, root, rfl⟩, hcomponents rfl, fun d hd => (hdeclarations d hd).2, hmixins rfl,
          hdirectives rfl⟩
      · intro h
        exact ⟨fun _ => h.components, fun d hd => ⟨nofun, h.declarations d hd⟩,
          fun _ => h.globalMixins, fun _ => h.globalDirectives, trivial⟩
    | file =>
      exact ⟨fun h d hd => (h.2.1 d hd).2, fun h => ⟨nofun, fun d hd => ⟨nofun, h d hd⟩, nofun,
        nofun, trivial⟩⟩
    | name =>
      exact ⟨fun h d hd => ⟨(h.2.1 d hd).1 rfl, (h.2.1 d hd).2⟩, fun h => ⟨nofun,
        fun d hd => ⟨fun _ => (h d hd).1, (h d hd).2⟩, nofun, nofun, trivial⟩⟩
  | _ =>
    rintro ⟨⟨_, _, heq⟩, -⟩
    cases heq

/-- **Exactly these documents are catalogs.** A document is a catalog if and only if it has the
right shape, the files it gives are texts and its names can be put into words. Where it is refused or
reading breaks off, the fault is there. -/
theorem accepts_exactly_documents (source : Option Path) (v : Value) :
    ((∃ c, Catalog.ofValue source v = .ok c) ↔
      DocumentShape v ∧ FilesAreTexts v ∧ NamesAreShown v) ∧
    ∀ e, Catalog.ofValue source v = .error e → ¬ DocumentSound v e.fault := by
  have h := heeds_ofValue source v
  refine ⟨h.exists_ok_iff.trans ⟨fun hall => ⟨hall .shape, hall .file, hall .name⟩, ?_⟩,
    fun e he => h.not_of_error he⟩
  rintro ⟨hshape, hfiles, hnames⟩ k
  cases k with
  | shape => exact hshape
  | file => exact hfiles
  | name => exact hnames

/-- A box that knows a component under a local name. -/
def boxKnowing (component : Value) : Value :=
  .record [("components", .record [("box", .record [("components",
    .record [("icon", component)])])])]

/-- Too long to be put into words. -/
def longNumber : Value := .int (Decimal.twoTo 14400)

theorem documentShape_boxKnowing (component : Value) : DocumentShape (boxKnowing component) where
  mapping := ⟨_, _, rfl⟩
  components := .inr ⟨_, _, rfl⟩
  declarations := by
    intro d hd
    obtain rfl := List.mem_singleton.mp (show d ∈ [_] from hd)
    exact
      { mapping := .inr ⟨_, _, rfl⟩, extended := .inl rfl, props := .inl .nothing, data := .nothing,
        computed := .nothing, methods := .nothing, mixins := .nothing,
        components := .inr ⟨_, _, rfl⟩, directives := .nothing }
  globalMixins := .nothing
  globalDirectives := .nothing

/-- A mapping of local names holds a number that cannot be put into words; the document has the
right shape all the same. -/
theorem not_accepted_boxKnowing_longNumber :
    DocumentShape (boxKnowing longNumber) ∧ FilesAreTexts (boxKnowing longNumber) ∧
      ∀ source c, Catalog.ofValue source (boxKnowing longNumber) ≠ .ok c := by
  refine ⟨documentShape_boxKnowing _, ?_, fun source c hc => ?_⟩
  · intro d hd
    obtain rfl := List.mem_singleton.mp (show d ∈ [_] from hd)
    exact .inl rfl
  · have hnames : NamesAreShown (boxKnowing longNumber) :=
      (heeds_ofValue source _).exists_ok_iff.mp ⟨c, hc⟩ .name
    have hnumber : IsShown longNumber :=
      ((hnames _ (List.mem_singleton_self _)).2.components _ (List.mem_singleton_self _)).2
    have hlong : ¬ Decimal.twoTo 14400 < Decimal.tenTo Decimal.digitLimit := by decide +kernel
    have hshort := isShown_int_iff.mp hnumber
    rw [Int.natAbs_natCast] at hshort
    exact hlong hshort
end ComponentAttrs
