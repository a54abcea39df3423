import ComponentAttrs.Decimal.Text

/-!
Calendar days and moments of a day, as documents hold them.
-/
namespace ComponentAttrs.Document

open ComponentAttrs.Decimal (pad)

/-- A day of the calendar that counts leap years back to the year 1. -/
structure Date where
  year : Nat
  month : Nat
  day : Nat
deriving DecidableEq

/-- A time of a day; `offset` is the distance from universal time in minutes, where it is given. -/
structure Moment where
  date : Date
  hour : Nat
  minute : Nat
  second : Nat
  micro : Nat
  offset : Option Int
deriving DecidableEq

def isLeapYear (year : Nat) : Bool :=
  year % 4 = 0 && (year % 100 ≠ 0 || year % 400 = 0)

def daysInMonth (year month : Nat) : Nat :=
  if month = 2 then if isLeapYear year then 29 else 28
  else if month = 4 ∨ month = 6 ∨ month = 9 ∨ month = 11 then 30
  else 31

/-- The day named by three numbers, if the calendar has it. -/
def Date.ofParts? (year month day : Nat) : Option Date :=
  if 1 ≤ year ∧ 1 ≤ month ∧ month ≤ 12 ∧ 1 ≤ day ∧ day ≤ daysInMonth year month then
    some ⟨year, month, day⟩
  else none

/-- Days since the day before the first of January of the year 1. -/
def Date.ordinal (d : Date) : Nat :=
  let past := d.year - 1
  let months := (List.range (d.month - 1)).map fun m => daysInMonth d.year (m + 1)
  past * 365 + past / 4 - past / 100 + past / 400 + months.foldl (· + ·) 0 + d.day

/-- Offsets reach almost a day to either side. -/
def Moment.ofParts? (date : Date) (hour minute second micro : Nat) (offset : Option Int) :
    Option Moment :=
  if hour < 24 ∧ minute < 60 ∧ second < 60 ∧ offset.all (fun o => decide (o.natAbs < 1440)) then
    some ⟨date, hour, minute, second, micro, offset⟩
  else none

/-- Minutes of universal time and what is left below a minute, if the offset is known. -/
def Moment.instant? (m : Moment) : Option (Int × Nat × Nat) :=
  m.offset.map fun o =>
    (Int.ofNat (m.date.ordinal * 1440 + m.hour * 60 + m.minute) - o, m.second, m.micro)

/-- Moments with offsets agree if they are the same instant; without, if all parts agree. -/
def Moment.agrees (a b : Moment) : Bool :=
  match a.instant?, b.instant? with
  | some x, some y => x = y
  | none, none => a = b
  | _, _ => false

def padded (width n : Nat) : String := String.ofList (pad width (Nat.toDigits 10 n))

def Date.text (d : Date) : String := s!"{padded 4 d.year}-{padded 2 d.month}-{padded 2 d.day}"

def offsetText (o : Int) : String :=
  let sign := if o < 0 then "-" else "+"
  s!"{sign}{padded 2 (o.natAbs / 60)}:{padded 2 (o.natAbs % 60)}"

def Moment.text (m : Moment) : String :=
  let fraction := if m.micro = 0 then "" else s!".{padded 6 m.micro}"
  s!"{m.date.text} {padded 2 m.hour}:{padded 2 m.minute}:{padded 2 m.second}{fraction}"
    ++ (m.offset.map offsetText).getD ""

/-- A day as messages name it inside a larger value. -/
def Date.inspect (d : Date) : String := s!"datetime.date({d.year}, {d.month}, {d.day})"

/-- An offset is spelled as a whole number of days, rounded down, and the seconds beyond them. -/
def inspectOffset (o : Int) : String :=
  if o = 0 then "datetime.timezone.utc"
  else
    let days := (o * 60).fdiv 86400
    let seconds := o * 60 - days * 86400
    let parts := (if days = 0 then [] else [s!"days={days}"])
      ++ (if seconds = 0 then [] else [s!"seconds={seconds}"])
    "datetime.timezone(datetime.timedelta(" ++ ", ".intercalate parts ++ "))"

/-- Seconds and millionths are left out where they are zero and nothing but an offset follows. -/
def Moment.inspect (m : Moment) : String :=
  let small := if m.micro = 0 then (if m.second = 0 then [] else [m.second]) else [m.second, m.micro]
  let parts := ([m.date.year, m.date.month, m.date.day, m.hour, m.minute] ++ small).map toString
  let zone := (m.offset.map fun o => s!"tzinfo={inspectOffset o}").toList
  "datetime.datetime(" ++ ", ".intercalate (parts ++ zone) ++ ")"

end ComponentAttrs.Document
