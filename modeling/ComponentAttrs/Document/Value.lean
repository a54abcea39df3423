import ComponentAttrs.Document.Moment

/-!
What a document holds: scalars, lists, mappings and a few rarer collections. Collections and dates
remember where in their source they were read; two with the same origin are one object that is
referred to twice.
-/
namespace ComponentAttrs.Document

/-- The node a value was read from; `none` for a value that was made anew. -/
abbrev Origin := Option Nat

inductive Value where
  | null
  | bool (b : Bool)
  | int (i : Int)
  | float (x : Float)
  | text (s : String)
  | bytes (b : List UInt8)
  | date (origin : Origin) (d : Date)
  | moment (origin : Origin) (m : Moment)
  | list (origin : Origin) (items : List Value)
  /-- Entries in order, no key twice. -/
  | map (origin : Origin) (entries : List (Value × Value))
  | set (origin : Origin) (members : List Value)
  | pair (first second : Value)

instance : Inhabited Value := ⟨.null⟩

namespace Value

def origin : Value → Origin
  | .date o _ | .moment o _ | .list o _ | .map o _ | .set o _ => o
  | _ => none

/-- Null, zero and everything empty count as no. -/
def truthy : Value → Bool
  | .null => false
  | .bool b => b
  | .int i => i ≠ 0
  | .float x => !(x == 0)
  | .text s => s ≠ ""
  | .bytes b => !b.isEmpty
  | .date _ _ | .moment _ _ | .pair _ _ => true
  | .list _ items => !items.isEmpty
  | .map _ entries => !entries.isEmpty
  | .set _ members => !members.isEmpty

def isNull : Value → Bool
  | .null => true
  | _ => false

def text? : Value → Option String
  | .text s => some s
  | _ => none

def entries? : Value → Option (List (Value × Value))
  | .map _ entries => some entries
  | _ => none

def record (fields : List (String × Value)) : Value :=
  .map none (fields.map fun (name, v) => (.text name, v))

def items (vs : List Value) : Value := .list none vs

def optionalText (s : Option String) : Value := (s.map Value.text).getD .null

end Value

/-- Is the double exactly this integer? -/
def floatIsInt (x : Float) (i : Int) : Bool :=
  if x == 0 then i = 0
  else if x.isNaN || x.isInf then false
  else
    let b := Decimal.Binary.ofFloat x
    decide (x < 0) = decide (i < 0)
      && b.mantissa * Decimal.twoTo b.exponent.toNat
        = i.natAbs * Decimal.twoTo (-b.exponent).toNat

/-- Truth values stand for zero and one among the numbers. -/
def boolInt (b : Bool) : Int := if b then 1 else 0

/-- Do two values name the same entry of a mapping? Numbers agree across their kinds. -/
def sameKey : Value → Value → Bool
  | .null, .null => true
  | .bool a, .bool b => a = b
  | .bool a, .int b => boolInt a = b
  | .int a, .bool b => a = boolInt b
  | .int a, .int b => a = b
  | .float a, .float b => a == b
  | .float a, .int b => floatIsInt a b
  | .int a, .float b => floatIsInt b a
  | .float a, .bool b => floatIsInt a (boolInt b)
  | .bool a, .float b => floatIsInt b (boolInt a)
  | .text a, .text b => a = b
  | .bytes a, .bytes b => a = b
  | .date _ a, .date _ b => a = b
  | .moment _ a, .moment _ b => a.agrees b
  | _, _ => false

abbrev Entries := List (Value × Value)

/-- The value under a name. -/
def field? (entries : Entries) (name : String) : Option Value :=
  (entries.find? fun (k, _) => k.text? = some name).map (·.2)

/-- The value under a name, null when the entry is missing. -/
def field (entries : Entries) (name : String) : Value := (field? entries name).getD .null

/-- A key that is present keeps its place and takes the new value; a new one goes to the end. -/
def put (entries : Entries) (key value : Value) : Entries :=
  match entries with
  | [] => [(key, value)]
  | (k, v) :: rest => if sameKey k key then (k, value) :: rest else (k, v) :: put rest key value

end ComponentAttrs.Document
