import ComponentAttrs.Yaml.Pen
import ComponentAttrs.Document.Base64
import ComponentAttrs.Document.Display

/-!
Documents in block style: an entry or item to a line, nested collections further in. An object that
occurs again is written once, with an anchor, and referred to by an alias afterwards.
-/
namespace ComponentAttrs.Yaml

open ComponentAttrs.Document

/-! ## Anchors -/

/-- Objects met so far, and those met again in the order of their second meeting. -/
structure Sightings where
  met : List Nat
  repeated : List Nat

def Sightings.note (s : Sightings) (id : Nat) : Sightings :=
  if s.repeated.contains id then s else { s with repeated := s.repeated ++ [id] }

/-- Has the object not been met before? -/
def sightObject (s : Sightings) : Origin → Bool × Sightings
  | none => (true, s)
  | some id =>
    if s.met.contains id then (false, s.note id) else (true, { s with met := id :: s.met })

/-- Values that stand deeper inside each other than this are not written. -/
def depthLimit : Nat := 329

mutual

/-- Looks through a value in the order of writing, into each object once. The first obstacle on the
way is the one that counts. -/
def sight (depth : Nat) (s : Sightings) (v : Value) : Shown Sightings :=
  let (isNew, s) := sightObject s v.origin
  if !isNew then .ok s
  else if depthLimit < depth then .error .tooDeep
  else
    match v with
    | .int i => (intText i).map fun _ => s
    | .list _ items => sightAll (depth + 1) s items
    | .map _ entries => sightEntries (depth + 1) s entries
    | .set _ members => sightAll (depth + 1) s members
    | .pair a b => do sight (depth + 1) (← sight (depth + 1) s a) b
    | _ => .ok s

def sightAll (depth : Nat) (s : Sightings) : List Value → Shown Sightings
  | [] => .ok s
  | v :: rest => do sightAll depth (← sight depth s v) rest

def sightEntries (depth : Nat) (s : Sightings) : List (Value × Value) → Shown Sightings
  | [] => .ok s
  | (k, v) :: rest => do sightEntries depth (← sight depth (← sight depth s k) v) rest

end

/-- Anchors are numbered with at least three digits. -/
def anchorName (number : Nat) : String := s!"id{padded 3 number}"

/-- The anchor of an object that occurs more than once. -/
def anchorOf (repeated : List Nat) (origin : Origin) : Option String :=
  origin.bind fun id => (repeated.idxOf? id).map fun i => anchorName (i + 1)

/-! ## Scalars -/

/-- The text of a scalar, the tag its spelling must not lose, and whether a literal block is
wanted. -/
structure ScalarForm where
  text : List Char
  tag : Tag
  literal : Bool

/-- Floats in documents: a power of ten needs a point in front of it to be read as one. -/
def floatForm (x : Float) : String :=
  let text := Decimal.floatText ⟨-5, 16, 2, ".inf", "-.inf", ".nan"⟩ x
  if text.toList.contains '.' then text else text.replace "e" ".0e"

def scalarForm? : Value → Option ScalarForm
  | .null => some ⟨"null".toList, .null, false⟩
  | .bool b => some ⟨(if b then "true" else "false").toList, .bool, false⟩
  | .int i => some ⟨(toString i).toList, .int, false⟩
  | .float x => some ⟨(floatForm x).toList, .float, false⟩
  | .text s => some ⟨s.toList, .text, false⟩
  | .bytes b => some ⟨Base64.encodeLines b, .binary, true⟩
  | .date _ d => some ⟨d.text.toList, .timestamp, false⟩
  | .moment _ m => some ⟨m.text.toList, .timestamp, false⟩
  | _ => none

/-- Short names of the tags that have to be written. -/
def writtenTag : Value → Option String
  | .bytes _ => some "!!binary"
  | .set _ _ => some "!!set"
  | .pair _ _ => some "!!python/tuple"
  | _ => none

/-- Length of the name of the tag a scalar has without one being written. -/
def tagLength : Value → Nat
  | .null => 6
  | .bool _ => 6
  | .int _ => 5
  | .float _ => 7
  | .text _ => 5
  | .bytes _ => 8
  | .date _ _ | .moment _ _ => 11
  | _ => 0

/-- A key shorter than this, on one line, is written in front of its colon. -/
def keyLength : Nat := 128

def isShortKey (repeated written : List Nat) (v : Value) : Bool :=
  let anchor := ((anchorOf repeated v.origin).map String.length).getD 0
  if v.origin.any written.contains then anchor < keyLength
  else
    match scalarForm? v with
    | some form =>
      let a := analyse form.text
      anchor + tagLength v + (Text.codesOf form.text).length < keyLength && !a.empty && !a.multiline
    | none => false

/-! ## Writing -/

/-- The pen and the objects that have been written. -/
structure Page where
  pen : Pen
  written : List Nat

def Page.withPen (page : Page) (f : Pen → Pen) : Page := { page with pen := f page.pen }

/-- A scalar continues two columns further in than what it stands in. -/
def writeScalar (v : Value) (form : ScalarForm) (indent : Nat) (asKey : Bool) (p : Pen) : Pen :=
  let keepsTag := Tag.ofPlain (String.ofList form.text) = form.tag
  let style := chooseStyle (analyse form.text) form.literal keepsTag asKey
  let p := match writtenTag v with
    | some tag => p.mark tag
    | none => p
  match style with
  | .plain => p.writePlain form.text indent (!asKey)
  | .single => p.writeSingle form.text indent (!asKey)
  | .double => p.writeDouble form.text indent (!asKey)
  | .literal => p.writeLiteral form.text indent

def writeEmpty (brackets : Char × Char) (p : Pen) : Pen :=
  (p.indicator [brackets.1] true true false).indicator [brackets.2] false false false

/-- Two columns further in than the collection around, at the margin if there is none. -/
def inner (indent : Option Nat) : Nat := (indent.map (· + 2)).getD 0

def writeMark (tag : Option String) (p : Pen) : Pen := (tag.map p.mark).getD p

mutual

/-- A value inside a collection at `indent`; `inMap` tells whether the collection is a mapping. -/
def writeValue (repeated : List Nat) (indent : Option Nat) (inMap asKey : Bool) :
    Value → Page → Page
  | v@(.list o items), page =>
    if o.any page.written.contains then writeAlias repeated v page
    else
      let page := openObject repeated v page
      if items.isEmpty then page.withPen (writeEmpty ('[', ']'))
      else
        let column := if inMap && !page.pen.indenting then indent.getD 0 else inner indent
        writeItems repeated column items page
  | v@(.map o entries), page =>
    if o.any page.written.contains then writeAlias repeated v page
    else
      let page := openObject repeated v page
      if entries.isEmpty then page.withPen (writeEmpty ('{', '}'))
      else writeEntries repeated (inner indent) entries page
  | v@(.set o members), page =>
    if o.any page.written.contains then writeAlias repeated v page
    else
      let page := openObject repeated v page
      if members.isEmpty then page.withPen (writeEmpty ('{', '}'))
      else writeMembers repeated (inner indent) members page
  | v@(.pair a b), page =>
    let page := openObject repeated v page
    let column := if inMap && !page.pen.indenting then indent.getD 0 else inner indent
    let page := writeItem column page
    let page := writeValue repeated (some column) false false a page
    let page := writeItem column page
    writeValue repeated (some column) false false b page
  | v, page =>
    if v.origin.any page.written.contains then writeAlias repeated v page
    else
      let page := openObject repeated v page
      match scalarForm? v with
      | some form => page.withPen (writeScalar v form ((indent.map (· + 2)).getD 2) asKey)
      | none => page

def writeAlias (repeated : List Nat) (v : Value) (page : Page) : Page :=
  page.withPen fun p => (((anchorOf repeated v.origin).map fun name => p.mark s!"*{name}")).getD p

/-- The anchor, if the object occurs again, and the tag of a collection. -/
def openObject (repeated : List Nat) (v : Value) (page : Page) : Page :=
  let page := { page with written := v.origin.toList ++ page.written }
  let page := page.withPen fun p =>
    ((anchorOf repeated v.origin).map fun name => p.mark s!"&{name}").getD p
  if (scalarForm? v).isSome then page else page.withPen (writeMark (writtenTag v))

/-- The hyphen in front of an item. -/
def writeItem (column : Nat) (page : Page) : Page :=
  page.withPen fun p => (p.indentTo column).indicator ['-'] true false true

def writeItems (repeated : List Nat) (column : Nat) : List Value → Page → Page
  | [], page => page
  | v :: rest, page =>
    let page := writeItem column page
    let page := writeValue repeated (some column) false false v page
    writeItems repeated column rest page

def writeEntries (repeated : List Nat) (column : Nat) : List (Value × Value) → Page → Page
  | [], page => page
  | (k, v) :: rest, page =>
    let page := page.withPen (·.indentTo column)
    let page :=
      if isShortKey repeated page.written k then
        let page := writeValue repeated (some column) true true k page
        page.withPen (·.indicator [':'] false false false)
      else
        let page := page.withPen (·.indicator ['?'] true false true)
        let page := writeValue repeated (some column) true false k page
        page.withPen fun p => (p.indentTo column).indicator [':'] true false true
    let page := writeValue repeated (some column) true false v page
    writeEntries repeated column rest page

/-- Members of a set are keys without values. -/
def writeMembers (repeated : List Nat) (column : Nat) : List Value → Page → Page
  | [], page => page
  | k :: rest, page =>
    let page := page.withPen (·.indentTo column)
    let page :=
      if isShortKey repeated page.written k then
        let page := writeValue repeated (some column) true true k page
        page.withPen (·.indicator [':'] false false false)
      else
        let page := page.withPen (·.indicator ['?'] true false true)
        let page := writeValue repeated (some column) true false k page
        page.withPen fun p => (p.indentTo column).indicator [':'] true false true
    let page := page.withPen fun p =>
      writeScalar .null ⟨"null".toList, .null, false⟩ (column + 2) false p
    writeMembers repeated column rest page

end

/-- A whole document, with a newline at its end. -/
def render (v : Value) : Shown String := do
  let sightings ← sight 1 ⟨[], []⟩ v
  let page := writeValue sightings.repeated none false false v ⟨.start, []⟩
  .ok (page.pen.indentTo 0).out

end ComponentAttrs.Yaml
