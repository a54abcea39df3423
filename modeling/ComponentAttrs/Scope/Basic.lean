import ComponentAttrs.Attribute.Grammar
import ComponentAttrs.Component.Descriptor
import ComponentAttrs.Walk.Basic

/-!
What a component can see: its own attributes, those of everything it is composed of, and directives.
-/
namespace ComponentAttrs

open ComponentAttrs.Attribute

/-- Sub-components under their local names; the target may be unknown. -/
abbrev LocalComponent (δ : Type) := String × Option δ

/-- Answers about single definitions. A source may have no answer at all. -/
structure OwnSource (δ : Type) where
  /-- Attributes whose names pass a test, only public ones or all, only the first or all. -/
  attributes : δ → (String → Bool) → Bool → Bool → Option (List (Descriptor δ))
  locals : δ → Option (List (LocalComponent δ))

/-- Answers about attributes that directives contribute. -/
structure DirectiveSource (δ : Type) where
  attributes : δ → Option (List (Descriptor δ))
  resolve : Option δ → String → Option (Descriptor δ)

structure Scope (δ : Type) where
  index : Index δ
  own : OwnSource δ
  directives : Option (DirectiveSource δ)
  links : List LinkKind
  grammar : Grammar

namespace Scope

variable {δ : Type}

def ownAttributes (s : Scope δ) (d : δ) (test : String → Bool) (publicOnly onlyFirst : Bool) :
    List (Descriptor δ) :=
  (s.own.attributes d test publicOnly onlyFirst).getD []

def ownLocals (s : Scope δ) (d : δ) : List (LocalComponent δ) := (s.own.locals d).getD []

def directiveAttributes (s : Scope δ) (d : δ) : List (Descriptor δ) :=
  (s.directives.bind (·.attributes d)).getD []

def anyName (_ : String) : Bool := true

/-! ## Listing -/

/-- The spellings under which an attribute is listed: three for templates, one for scripts. -/
def displayVariants (inTemplate : Bool) (d : Descriptor δ) : List (Descriptor δ) :=
  if inTemplate then
    let kebab := toKebab d.name
    [d.rename kebab, d.rename (":" ++ kebab), d.rename ("v-bind:" ++ kebab)]
  else if d.name.toList.contains '-' then [d.rename (toCamel d.name)]
  else [d]

/-- An answer and the walk that led to it. -/
structure Found (δ α : Type) where
  value : α
  trace : List (Step δ)

variable [DecidableEq δ]

/-- All attributes of a definition and of what it is composed of; without a definition, what is
registered for every component. -/
def attributes (s : Scope δ) (root : Option δ) (publicOnly inTemplate : Bool) :
    Found δ (List (Descriptor δ)) :=
  let own (d : δ) : List (Descriptor δ) := s.ownAttributes d anyName publicOnly false
  let direct := root.toList.flatMap fun d => own d ++ s.directiveAttributes d
  let w := walk s.index s.links root (fun found d => (.proceed, found ++ own d)) direct
  ⟨w.memory.flatMap (displayVariants inTemplate), w.trace⟩

/-! ## Looking up one name -/

/-- How a lookup ended. -/
inductive Resolution (δ : Type) where
  /-- Declared on the component itself. -/
  | direct (d : Descriptor δ)
  /-- Declared on something it is composed of. -/
  | composed (d : Descriptor δ)
  | directive (d : Option (Descriptor δ))
  | unresolved

def Resolution.descriptor? : Resolution δ → Option (Descriptor δ)
  | .direct d | .composed d => some d
  | .directive d => d
  | .unresolved => none

/-- A search for a name: the definitions asked about so far, and what the last of them had. -/
structure Inquiry (δ : Type) where
  asked : List δ
  answer : Option (Descriptor δ)

/-- Asks one more definition for its first attribute that a written name denotes. -/
def inquire (s : Scope δ) (written : String) (publicOnly : Bool) : Visitor (Inquiry δ) δ :=
  fun inquiry d =>
    let matching := s.ownAttributes d (s.grammar.matchesName written) publicOnly true
    (if matching.isEmpty then .proceed else .stop, ⟨inquiry.asked ++ [d], matching.head?⟩)

/-- What was found for a name, and which definitions were asked for it, in order. -/
structure Lookup (δ : Type) extends Found δ (Resolution δ) where
  asked : List δ

/-- Looks at the component itself, then at what it is composed of in the order of visits up to the
first match, then at directives. -/
def lookUp (s : Scope δ) (root : Option δ) (written : String) (publicOnly : Bool) : Lookup δ :=
  let inquire := s.inquire written publicOnly
  let own := (offer inquire root.toList ⟨[], none⟩).2
  match own.answer with
  | some d => ⟨⟨.direct d, []⟩, own.asked⟩
  | none =>
    let w := walk s.index s.links root inquire own
    match w.memory.answer with
    | some d => ⟨⟨.composed d, w.trace⟩, w.memory.asked⟩
    | none =>
      match s.directives with
      | some source => ⟨⟨.directive (source.resolve root written), w.trace⟩, w.memory.asked⟩
      | none => ⟨⟨.unresolved, w.trace⟩, w.memory.asked⟩

def resolve (s : Scope δ) (root : Option δ) (written : String) (publicOnly : Bool) :
    Option (Descriptor δ) :=
  (s.lookUp root written publicOnly).value.descriptor?

/-- What a lookup has to say beyond its walk. -/
def Resolution.log (name : δ → String) (written : String) : Resolution δ → List LogRecord
  | .composed d =>
    let owner := (d.owner.map name).getD "<global>"
    [⟨.debug, .lookup, "Resolved " ++ Text.quoted written ++ " through " ++ owner⟩]
  | .directive _ =>
    [⟨.debug, .lookup, "Falling back to directives for " ++ Text.quoted written⟩]
  | _ => []

def lookUpLog (s : Scope δ) (written : String) (f : Lookup δ) : List LogRecord :=
  logOf s.index.name f.trace ++ f.value.log s.index.name written

/-! ## Local components -/

/-- A processor is offered local components one by one. -/
abbrev Processor (σ δ : Type) := Visitor σ (LocalComponent δ)

/-- A test that remembers what it has been put to. -/
abbrev Test (σ α : Type) := σ → α → Bool × σ

/-- Those that pass a test, all of them or only the first; nothing is tested behind the first if no
more are wanted. -/
def select {σ α : Type} (test : Test σ α) (onlyFirst : Bool) : List α → σ → List α × σ
  | [], memory => ([], memory)
  | a :: rest, memory =>
    match test memory a with
    | (false, memory) => select test onlyFirst rest memory
    | (true, memory) =>
      if onlyFirst then ([a], memory)
      else
        let (more, memory) := select test onlyFirst rest memory
        (a :: more, memory)

/-- A local component passes if the processor wants no more after it. -/
def stopsAt {σ : Type} (process : Processor σ δ) : Test σ (LocalComponent δ) := fun memory l =>
  let (outcome, memory) := process memory l
  (outcome = .stop, memory)

/-- Offers the sub-components of one definition; a walk ends if one of them made the processor
stop. -/
def offerOwnLocals {σ : Type} (s : Scope δ) (process : Processor σ δ) : Visitor σ δ :=
  fun memory d =>
    let (stopping, memory) := select (stopsAt process) true (s.ownLocals d) memory
    (if stopping.isEmpty then .proceed else .stop, memory)

/-- Offers the component's own sub-components, then those of what it is composed of. -/
def offerLocals {σ : Type} (s : Scope δ) (root : Option δ) (process : Processor σ δ) (memory : σ) :
    Walk σ δ :=
  match offer (s.offerOwnLocals process) root.toList memory with
  | (.stop, memory) => ⟨.stop, memory, []⟩
  | (.proceed, memory) => walk s.index s.links root (s.offerOwnLocals process) memory

/-- All local components, nearest first. -/
def locals (s : Scope δ) (root : Option δ) : List (LocalComponent δ) :=
  (s.offerLocals root (fun found c => (.proceed, found ++ [c])) []).memory

end Scope

end ComponentAttrs
