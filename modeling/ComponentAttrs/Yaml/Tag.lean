import ComponentAttrs.Decimal.Reading

/-!
Kinds of nodes, and the kind that a plain scalar has by its spelling alone: `no` is a truth value,
`010` an octal number, `1:30` a number of base sixty, `2001-12-14` a day.
-/
namespace ComponentAttrs.Yaml

open ComponentAttrs.Decimal (skipSign)

inductive Tag where
  | null
  | bool
  | int
  | float
  | binary
  | timestamp
  | orderedMap
  | pairs
  | set
  | text
  | list
  | map
  | merge
  | value
  | unknown
deriving DecidableEq

/-- Where the standard kinds are named. -/
def standardTags : String := "tag:yaml.org,2002:"

def Tag.ofName (name : String) : Tag :=
  let known : List (String × Tag) :=
    [("null", .null), ("bool", .bool), ("int", .int), ("float", .float), ("binary", .binary),
     ("timestamp", .timestamp), ("omap", .orderedMap), ("pairs", .pairs), ("set", .set),
     ("str", .text), ("seq", .list), ("map", .map), ("merge", .merge), ("value", .value)]
  ((known.map fun (short, tag) => (standardTags ++ short, tag)).lookup name).getD .unknown

/-! ## Spellings

Each reader takes as much of the text as it can and returns what is left; a spelling matches if
nothing is left. -/

def withoutLineEnd (cs : List Char) : List Char :=
  if cs.getLast? = some '\n' then cs.dropLast else cs

def isDigitOrLow (c : Char) : Bool := c.isDigit || c = '_'

/-- A character of the first class and then any number of the second. -/
def skipRun (first later : Char → Bool) : List Char → Option (List Char)
  | c :: cs => if first c then some (cs.dropWhile later) else none
  | [] => none

/-- Parts below sixty, each behind a colon; at least one. -/
def skipSixties (seen : Bool) : List Char → Option (List Char)
  | ':' :: a :: b :: cs =>
    if a.isDigit && b.isDigit then if a ≤ '5' then skipSixties true cs else none
    else if a.isDigit then skipSixties true (b :: cs)
    else none
  | [':', a] => if a.isDigit then some [] else none
  | cs => if seen then some cs else none

def allOf (p : Char → Bool) (cs : List Char) : Bool := !cs.isEmpty && cs.all p

def isIntSpelling (cs : List Char) : Bool :=
  match skipSign cs with
  | ['0'] => true
  | '0' :: 'b' :: digits => allOf (fun c => c = '0' || c = '1' || c = '_') digits
  | '0' :: 'x' :: digits =>
    allOf (fun c => isDigitOrLow c || ('a' ≤ c && c ≤ 'f') || ('A' ≤ c && c ≤ 'F')) digits
  | '0' :: digits => allOf (fun c => ('0' ≤ c && c ≤ '7') || c = '_') digits
  | cs =>
    match skipRun (fun c => c.isDigit && c ≠ '0') isDigitOrLow cs with
    | some [] => true
    | some rest => skipSixties false rest = some []
    | none => false

/-- A power of ten with its sign, or nothing. -/
def isExponent : List Char → Bool
  | [] => true
  | e :: sign :: digits =>
    (e = 'e' || e = 'E') && (sign = '-' || sign = '+') && allOf Char.isDigit digits
  | _ => false

def isPointSpelling (cs : List Char) : Bool :=
  match skipRun Char.isDigit isDigitOrLow (skipSign cs) with
  | some ('.' :: rest) => isExponent (rest.dropWhile isDigitOrLow)
  | some rest =>
    match skipSixties false rest with
    | some ('.' :: rest) => rest.all isDigitOrLow
    | _ => false
  | none => false

def isFloatSpelling (cs : List Char) : Bool :=
  isPointSpelling cs
    || (match cs with
      | '.' :: rest =>
        (match skipRun Char.isDigit isDigitOrLow rest with
        | some rest => isExponent rest
        | none => false)
      | _ => false)
    || [".inf", ".Inf", ".INF"].contains (String.ofList (skipSign cs))
    || [".nan", ".NaN", ".NAN"].contains (String.ofList cs)

/-- Exactly `least` to `most` digits. -/
def takeDigits (least most : Nat) (cs : List Char) : Option (List Char × List Char) :=
  let digits := (cs.take most).takeWhile Char.isDigit
  if least ≤ digits.length then some (digits, cs.drop digits.length) else none

def skipChar (c : Char) : List Char → Option (List Char)
  | d :: cs => if d = c then some cs else none
  | [] => none

structure DayText where
  year : List Char
  month : List Char
  day : List Char

/-- The parts of a day; months and days have one digit or two. -/
def takeDay (cs : List Char) : Option (DayText × List Char) := do
  let (year, cs) ← takeDigits 4 4 cs
  let cs ← skipChar '-' cs
  let (month, cs) ← takeDigits 1 2 cs
  let cs ← skipChar '-' cs
  let (day, cs) ← takeDigits 1 2 cs
  some (⟨year, month, day⟩, cs)

structure ZoneText where
  negative : Bool
  hours : List Char
  minutes : List Char

structure TimeText where
  hour : List Char
  minute : List Char
  second : List Char
  fraction : List Char
  /-- `Z` is an offset of no hours. -/
  zone : Option ZoneText

/-- Between day and time stands a letter T or at least one blank. -/
def skipTimeMark : List Char → Option (List Char)
  | c :: cs =>
    if c = 'T' || c = 't' then some cs
    else if c = ' ' || c = '\t' then some (cs.dropWhile fun c => c = ' ' || c = '\t')
    else none
  | [] => none

/-- The offset at the end, with blanks in front; nothing may follow. -/
def takeZone (cs : List Char) : Option (Option ZoneText) :=
  match cs.dropWhile fun c => c = ' ' || c = '\t' with
  | [] => if cs.isEmpty then some none else none
  | ['Z'] => some (some ⟨false, [], []⟩)
  | sign :: rest =>
    if sign = '-' || sign = '+' then
      match takeDigits 1 2 rest with
      | some (hours, []) => some (some ⟨sign = '-', hours, []⟩)
      | some (hours, ':' :: rest) =>
        match takeDigits 2 2 rest with
        | some (minutes, []) => some (some ⟨sign = '-', hours, minutes⟩)
        | _ => none
      | _ => none
    else none

def takeTime (cs : List Char) : Option TimeText := do
  let (hour, cs) ← takeDigits 1 2 cs
  let cs ← skipChar ':' cs
  let (minute, cs) ← takeDigits 2 2 cs
  let cs ← skipChar ':' cs
  let (second, cs) ← takeDigits 2 2 cs
  let (fraction, cs) := match cs with
    | '.' :: rest => (rest.takeWhile Char.isDigit, rest.dropWhile Char.isDigit)
    | _ => ([], cs)
  let zone ← takeZone cs
  some ⟨hour, minute, second, fraction, zone⟩

/-- A day, with or without a time. -/
def timestampParts? (cs : List Char) : Option (DayText × Option TimeText) := do
  let (day, rest) ← takeDay cs
  match rest with
  | [] => some (day, none)
  | _ => do
    let rest ← skipTimeMark rest
    let time ← takeTime rest
    some (day, some time)

/-- A day on its own is recognised only with two digits for month and day. -/
def isTimestampSpelling (cs : List Char) : Bool :=
  match timestampParts? cs with
  | some (day, none) => day.month.length = 2 && day.day.length = 2
  | some (_, some _) => true
  | none => false

def boolWords : List (String × Bool) :=
  [("yes", true), ("no", false), ("true", true), ("false", false), ("on", true), ("off", false)]

/-- Truth values are written small, capitalised or in capitals. -/
def isBoolSpelling (text : String) : Bool :=
  boolWords.any fun (word, _) =>
    text = word || text = word.capitalize || text = word.toUpper

/-- Indicators have no meaning as scalars, and no value. -/
def reservedSpellings : List String := ["!", "&", "*"]

/-- What a plain scalar is by its spelling. One line end behind it, which only scalars of other
styles can have, makes no difference. -/
def Tag.ofPlain (text : String) : Tag :=
  let cs := withoutLineEnd text.toList
  let word := String.ofList cs
  if isBoolSpelling word then .bool
  else if isFloatSpelling cs then .float
  else if isIntSpelling cs then .int
  else if word = "<<" then .merge
  else if text = "" || ["~", "null", "Null", "NULL"].contains word then .null
  else if isTimestampSpelling cs then .timestamp
  else if word = "=" then .value
  else if reservedSpellings.contains word then .unknown
  else .text

end ComponentAttrs.Yaml
