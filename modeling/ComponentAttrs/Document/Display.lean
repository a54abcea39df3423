import ComponentAttrs.Decimal.Reading
import ComponentAttrs.Document.Value
import ComponentAttrs.Text.Quoted

/-!
Values as text. A text stands for itself; inside a larger value it is quoted. A collection that is
met again inside itself is abbreviated.
-/
namespace ComponentAttrs.Document

open ComponentAttrs.Text (quoted quotedBytes)
open ComponentAttrs.Decimal (floatText plainFloat)

/-- Why a value cannot be put into words. -/
inductive Obstacle where
  /-- A whole number has too many digits. -/
  | longNumber
  /-- Collections stand too deep inside each other. -/
  | tooDeep
deriving DecidableEq

abbrev Shown := Except Obstacle

def intText (i : Int) : Shown String :=
  if i.natAbs < Decimal.tenTo Decimal.digitLimit then .ok (toString i) else .error .longNumber

/-- Is an object with this origin being shown already? -/
def isOpen (active : List Nat) (origin : Origin) : Bool :=
  origin.any fun o => active.contains o

def enter (active : List Nat) (origin : Origin) : List Nat :=
  origin.toList ++ active

def joined (parts : List String) : String := ", ".intercalate parts

/-- How deep collections may stand inside each other in a message. -/
def displayRoom : Nat := 985

mutual

/-- A value as it stands inside a message or a larger value; `room` is how deep collections may
still stand inside each other. The first obstacle on the way is the one that counts. -/
def inspect (active : List Nat) (room : Nat) : Value → Shown String
  | .null => .ok "None"
  | .bool b => .ok (if b then "True" else "False")
  | .int i => intText i
  | .float x => .ok (floatText plainFloat x)
  | .text s => .ok (quoted s)
  | .bytes b => .ok (quotedBytes b)
  | .date _ d => .ok d.inspect
  | .moment _ m => .ok m.inspect
  | .list o items =>
    if isOpen active o then .ok "[...]"
    else if room = 0 then .error .tooDeep
    else do return "[" ++ joined (← inspectAll (enter active o) (room - 1) items) ++ "]"
  | .map o entries =>
    if isOpen active o then .ok "\x7b...\x7d"
    else if room = 0 then .error .tooDeep
    else do return "\x7b" ++ joined (← inspectEntries (enter active o) (room - 1) entries) ++ "\x7d"
  | .set o members =>
    if members.isEmpty then .ok "set()"
    else do return "\x7b" ++ joined (← inspectAll (enter active o) (room - 1) members) ++ "\x7d"
  | .pair a b =>
    if room = 0 then .error .tooDeep
    else do
      return "(" ++ (← inspect active (room - 1) a) ++ ", " ++ (← inspect active (room - 1) b) ++ ")"

def inspectAll (active : List Nat) (room : Nat) : List Value → Shown (List String)
  | [] => .ok []
  | v :: rest => do return (← inspect active room v) :: (← inspectAll active room rest)

def inspectEntries (active : List Nat) (room : Nat) : List (Value × Value) → Shown (List String)
  | [] => .ok []
  | (k, v) :: rest => do
    let entry := (← inspect active room k) ++ ": " ++ (← inspect active room v)
    return entry :: (← inspectEntries active room rest)

end

mutual

/-- Changes the entries of one mapping wherever it occurs. -/
def alter (object : Nat) (change : Entries → Entries) (active : List Nat) : Value → Value
  | .list o items =>
    if isOpen active o then .list o items
    else .list o (alterAll object change (enter active o) items)
  | .map o entries =>
    if isOpen active o then .map o entries
    else
      let entries := alterEntries object change (enter active o) entries
      .map o (if o = some object then change entries else entries)
  | .pair a b => .pair (alter object change active a) (alter object change active b)
  | v => v

def alterAll (object : Nat) (change : Entries → Entries) (active : List Nat) :
    List Value → List Value
  | [] => []
  | v :: rest => alter object change active v :: alterAll object change active rest

def alterEntries (object : Nat) (change : Entries → Entries) (active : List Nat) :
    List (Value × Value) → List (Value × Value)
  | [] => []
  | (k, v) :: rest =>
    (alter object change active k, alter object change active v)
      :: alterEntries object change active rest

end

def Value.inspected (v : Value) : Shown String := inspect [] displayRoom v

/-- A value on its own: texts and dates as they are written, all else as inside a message. -/
def Value.display : Value → Shown String
  | .text s => .ok s
  | .date _ d => .ok d.text
  | .moment _ m => .ok m.text
  | v => v.inspected

end ComponentAttrs.Document
