import ComponentAttrs.Document.Display

/-!
Values as JSON text. Only the basic block is written as it is. A value without a JSON form is an
error, or is written as its text where the caller prefers that.
-/
namespace ComponentAttrs.Json

open ComponentAttrs.Document

/-- Why a value cannot be written. -/
inductive Failure where
  | noForm
  | badKey
  | circular
  | unshown (obstacle : Obstacle)
deriving DecidableEq

/-- How the text is laid out: by how many columns each level goes further in, or all on one line;
and whether values without a form are written as their text. -/
structure Layout where
  indent : Option Nat
  lenient : Bool

/-- Numbers beyond the finite ones are written by name. -/
def jsonFloat : Decimal.FloatFormat := ⟨-5, 16, 2, "Infinity", "-Infinity", "NaN"⟩

def unit (n : Nat) : List Char := '\\' :: 'u' :: Text.hexDigits 4 n

def shortEscape? (n : Nat) : Option Char :=
  ([('"', '"'), ('\\', '\\'), ('\n', 'n'), ('\r', 'r'), ('\t', 't'), ('\x08', 'b'),
    ('\x0C', 'f')].find? fun (c, _) => c.toNat = n).map (·.2)

/-- Characters beyond sixteen bits are written as two units. -/
def escapeCode (n : Nat) : List Char :=
  match shortEscape? n with
  | some e => ['\\', e]
  | none =>
    if 0x20 ≤ n && n ≤ 0x7E then [Char.ofNat n]
    else if n < 0x10000 then unit n
    else unit (0xD800 + (n - 0x10000) / 0x400) ++ unit (0xDC00 + (n - 0x10000) % 0x400)

def quote (s : String) : String :=
  String.ofList ('"' :: (Text.codes s).flatMap escapeCode ++ ['"'])

def floatText (x : Float) : String := Decimal.floatText jsonFloat x

def intText (i : Int) : Except Failure String := (Document.intText i).mapError .unshown

/-- How deep collections may stand inside each other. -/
def depthLimit : Nat := 989

/-- Keys are texts; numbers, truth values and null are spelled out. -/
def keyText : Value → Except Failure String
  | .null => .ok "null"
  | .bool b => .ok (if b then "true" else "false")
  | .int i => intText i
  | .float x => .ok (floatText x)
  | .text s => .ok s
  | _ => .error .badKey

/-- A new line at the given depth, or nothing. -/
def Layout.lineTo (l : Layout) (depth : Nat) : String :=
  match l.indent with
  | none => ""
  | some n => String.ofList ('\n' :: List.replicate (n * depth) ' ')

/-- Between two parts: a comma and a new line, or a comma and a space. -/
def Layout.separator (l : Layout) (depth : Nat) : String :=
  if l.indent.isSome then "," ++ l.lineTo depth else ", "

/-- Parts between two brackets, nothing between them if there are none. -/
def Layout.enclose (l : Layout) (depth : Nat) (left right : String) (parts : List String) : String :=
  if parts.isEmpty then left ++ right
  else left ++ l.lineTo (depth + 1) ++ (l.separator (depth + 1)).intercalate parts
    ++ l.lineTo depth ++ right

def lenientText (l : Layout) (v : Value) : Except Failure String :=
  if l.lenient then (v.display.map quote).mapError .unshown else .error .noForm

mutual

def write (l : Layout) (active : List Nat) (depth : Nat) : Value → Except Failure String
  | .null => .ok "null"
  | .bool b => .ok (if b then "true" else "false")
  | .int i => intText i
  | .float x => .ok (floatText x)
  | .text s => .ok (quote s)
  | .list o items => do
    if isOpen active o then .error .circular
    else if depthLimit ≤ depth then .error (.unshown .tooDeep)
    else return l.enclose depth "[" "]" (← writeAll l (enter active o) (depth + 1) items)
  | .pair a b => do
    if depthLimit ≤ depth then .error (.unshown .tooDeep)
    else
      let parts := [← write l active (depth + 1) a, ← write l active (depth + 1) b]
      return l.enclose depth "[" "]" parts
  | .map o entries => do
    if isOpen active o then .error .circular
    else if depthLimit ≤ depth then .error (.unshown .tooDeep)
    else return l.enclose depth "\x7b" "\x7d" (← writeEntries l (enter active o) (depth + 1) entries)
  | .bytes b => lenientText l (.bytes b)
  | .date o d => lenientText l (.date o d)
  | .moment o m => lenientText l (.moment o m)
  | .set o members => lenientText l (.set o members)

def writeAll (l : Layout) (active : List Nat) (depth : Nat) :
    List Value → Except Failure (List String)
  | [] => .ok []
  | v :: rest => do return (← write l active depth v) :: (← writeAll l active depth rest)

def writeEntries (l : Layout) (active : List Nat) (depth : Nat) :
    List (Value × Value) → Except Failure (List String)
  | [] => .ok []
  | (k, v) :: rest => do
    let entry := quote (← keyText k) ++ ": " ++ (← write l active depth v)
    return entry :: (← writeEntries l active depth rest)

end

def Layout.render (l : Layout) (v : Value) : Except Failure String := write l [] 0 v

/-- Two columns a level; every value must have a form. -/
def strict : Layout := ⟨some 2, false⟩

end ComponentAttrs.Json
