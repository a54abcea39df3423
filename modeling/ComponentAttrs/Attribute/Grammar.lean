import ComponentAttrs.Attribute.Spelling

/-!
Attribute names as templates write them: a lead such as `:` or `v-on:`, a base name, and modifiers,
each a segment behind a dot.
-/
namespace ComponentAttrs.Attribute

/-- A lead and the modifiers that may follow its base name, dots included. -/
structure Rule where
  lead : String
  modifiers : List String
deriving DecidableEq

/-- Rules are tried in order. -/
structure Grammar where
  bindings : List Rule
  /-- Names under these rules may stand without a value. -/
  valueless : List Rule
deriving DecidableEq

/-- Stands for any modifier. -/
def anyModifier : String := "*"

def bindModifiers : List String := [".prop", ".camel", ".sync"]

def eventModifiers : List String := [".stop", ".prevent", ".capture", ".self", ".once"]

def Grammar.standard : Grammar where
  bindings :=
    [⟨":", bindModifiers⟩, ⟨"v-bind:", bindModifiers⟩, ⟨"@", [anyModifier]⟩, ⟨"v-on:", [anyModifier]⟩]
  valueless := [⟨"@", eventModifiers⟩, ⟨"v-on:", eventModifiers⟩]

/-! ## Bound names -/

/-- What follows the lead, if the name starts with it and does not end there. -/
def Rule.remainder? (r : Rule) (name : List Char) : Option (List Char) :=
  (r.lead.toList.isPrefixOf? name).filter (!·.isEmpty)

/-- Where a text occurs first. -/
def findText (text : List Char) : List Char → Option Nat
  | [] => if text.isEmpty then some 0 else none
  | c :: cs => if text.isPrefixOf (c :: cs) then some 0 else (findText text cs).map (· + 1)

/-- The place of the first modifier, in the order of the rule, that does not open the text. -/
def modifierPlace? (modifiers : List String) (after : List Char) : Option Nat :=
  modifiers.findSome? fun m => (findText m.toList after).filter (0 < ·)

/-- The name without its modifier; a rule for any modifier cuts at the first dot. -/
def Rule.base (r : Rule) (after : List Char) : List Char :=
  if r.modifiers.contains anyModifier then after.takeWhile (· ≠ '.')
  else
    match modifierPlace? r.modifiers after with
    | some place => after.take place
    | none => after

def Grammar.boundChars? (g : Grammar) (name : List Char) : Option (List Char) :=
  g.bindings.findSome? fun r => (r.remainder? name).map r.base

/-- The name without lead and modifier, none for a name that is not bound. -/
def Grammar.boundName? (g : Grammar) (name : String) : Option String :=
  (g.boundChars? name.toList).map String.ofList

/-- May the attribute be written without a value? -/
def Grammar.allowsNoValue (g : Grammar) (name : String) : Bool :=
  g.valueless.any fun r => (r.remainder? name.toList).any fun after =>
    r.modifiers.any fun m => m.toList.isSuffixOf after

/-! ## Leads and tokens -/

def Grammar.leads (g : Grammar) : List String := g.bindings.map Rule.lead

/-- The first lead that the name starts with. -/
def Grammar.findLead? (g : Grammar) (name : String) : Option String :=
  g.leads.find? fun lead => lead.toList.isPrefixOf name.toList

/-- The name behind its lead. -/
def Grammar.withoutLead (g : Grammar) (name : String) : String :=
  String.ofList (name.toList.drop ((g.findLead? name).map String.length |>.getD 0))

/-- Does a declared name match an attribute as it is written? -/
def Grammar.matchesName (g : Grammar) (written declared : String) : Bool :=
  (variants (g.withoutLead written)).contains declared

/-- The parts of an attribute name. -/
structure NameToken where
  lead : Option String
  base : String
  modifier : Option String
deriving DecidableEq

def NameToken.isBound (t : NameToken) : Bool := t.lead.isSome

/-- What stands behind the base is the modifier. -/
def Grammar.tokenize (g : Grammar) (name : String) : NameToken :=
  match g.findLead? name with
  | none => ⟨none, name, none⟩
  | some lead =>
    let remainder := g.withoutLead name
    match g.boundName? name with
    | none => ⟨some lead, remainder, none⟩
    | some base =>
      let rest := remainder.toList.drop base.length
      ⟨some lead, base, if rest.isEmpty then none else some (String.ofList rest)⟩

end ComponentAttrs.Attribute
