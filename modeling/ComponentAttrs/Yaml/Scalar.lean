import ComponentAttrs.Decimal.Reading
import ComponentAttrs.Document.Base64
import ComponentAttrs.Document.Value
import ComponentAttrs.Yaml.Tag
import ComponentAttrs.Yaml.Failure
import ComponentAttrs.Text.Lowercase

/-!
The values of scalars. A plain scalar has the value that its spelling promises; a scalar with a tag
of its own may fail to have one.
-/
namespace ComponentAttrs.Yaml

open ComponentAttrs.Document
open ComponentAttrs.Decimal (integer? float? ofNat? infinity notANumber skipSign isNegative)

def noValue {α : Type} (p : ScalarProblem) : Except Failure α := .error (.scalar p)

/-! ## Numbers -/

/-- The parts between colons. -/
def splitColons (cs : List Char) : List (List Char) :=
  cs.foldr (fun c parts =>
    match parts with
    | part :: rest => if c = ':' then [] :: part :: rest else (c :: part) :: rest
    | [] => []) [[]]

def intMagnitude? (cs : List Char) : Option Int :=
  match cs with
  | ['0'] => some 0
  | '0' :: 'b' :: digits => integer? 2 digits
  | '0' :: 'x' :: digits => integer? 16 digits
  | '0' :: _ => integer? 8 cs
  | _ =>
    if cs.contains ':' then
      (splitColons cs).foldlM (fun acc part => (integer? 10 part).map fun d => acc * 60 + d) 0
    else integer? 10 cs

/-- Low lines are left out. The first sign counts. -/
def intValue (text : String) : Except Failure Value :=
  let cs := text.toList.filter (· ≠ '_')
  if (skipSign cs).isEmpty then noValue .empty
  else
    match intMagnitude? (skipSign cs) with
    | some i => .ok (.int (if isNegative cs then -i else i))
    | none => noValue .value

/-- The sum of the parts, each times a power of sixty, the last part first. The powers are whole
numbers, of which each must have a float near it. -/
def sumSixties (sum : Float) (power : Nat) : List Float → Except Failure Float
  | [] => .ok sum
  | part :: rest =>
    match ofNat? power with
    | some x => sumSixties (sum + part * x) (power * 60) rest
    | none => noValue .range

def floatMagnitude (cs : List Char) : Except Failure Float :=
  if cs = ".inf".toList then .ok infinity
  else if cs = ".nan".toList then .ok notANumber
  else if cs.contains ':' then
    match (splitColons cs).mapM float? with
    | some parts => sumSixties 0.0 1 parts.reverse
    | none => noValue .value
  else (float? cs).elim (noValue .value) .ok

/-- The spelling of a float without low lines and capitals. -/
def floatSpelling (text : String) : List Char := Text.lowercase (text.toList.filter (· ≠ '_'))

def floatValue (text : String) : Except Failure Value := do
  let cs := floatSpelling text
  if cs.isEmpty then noValue .empty
  else
    let x ← floatMagnitude (skipSign cs)
    .ok (.float (if isNegative cs then -x else x))

/-! ## Words, bytes and days -/

def boolValue (text : String) : Except Failure Value :=
  match boolWords.lookup (String.ofList (Text.lowercase text.toList)) with
  | some b => .ok (.bool b)
  | none => noValue .word

def bytesValue (text : String) : Except Failure Value :=
  if text.toList.all (·.toNat < 0x80) then
    match Base64.decode? text.toList with
    | some bytes => .ok (.bytes bytes)
    | none => .error (.malformed .badBase64)
  else .error (.malformed .badBase64)

def numberOf (digits : List Char) : Nat :=
  digits.foldl (fun acc c => acc * 10 + (c.toNat - '0'.toNat)) 0

/-- Six digits of a second's fraction, the rest cut off. -/
def microOf (fraction : List Char) : Nat :=
  let digits := fraction.take 6
  numberOf digits * Decimal.tenTo (6 - digits.length)

def offsetOf (zone : ZoneText) : Int :=
  let minutes := Int.ofNat (numberOf zone.hours * 60 + numberOf zone.minutes)
  if zone.negative then -minutes else minutes

/-- The calendar and the clock may not have what the digits say. -/
def timestampValue (origin : Origin) (text : String) : Except Failure Value :=
  match timestampParts? (withoutLineEnd text.toList) with
  | none => noValue .shape
  | some (day, time) =>
    match Date.ofParts? (numberOf day.year) (numberOf day.month) (numberOf day.day) with
    | none => noValue .value
    | some date =>
      match time with
      | none => .ok (.date origin date)
      | some time =>
        match Moment.ofParts? date (numberOf time.hour) (numberOf time.minute)
          (numberOf time.second) (microOf time.fraction) (time.zone.map offsetOf) with
        | some moment => .ok (.moment origin moment)
        | none => noValue .value

end ComponentAttrs.Yaml
