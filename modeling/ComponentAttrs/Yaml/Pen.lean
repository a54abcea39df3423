import ComponentAttrs.Yaml.Style
import ComponentAttrs.Text.Quoted

/-!
Writing text with indentation: where the pen stands decides whether a space or a new line is needed
before the next piece.
-/
namespace ComponentAttrs.Yaml

structure Pen where
  out : String
  column : Nat
  /-- Is the last thing written a space, or is the line empty? -/
  spaced : Bool
  /-- Has the line nothing but indentation and indicators so far? -/
  indenting : Bool

/-- Scalars are broken at a space once the line is longer than this. -/
def lineWidth : Nat := 80

namespace Pen

def start : Pen := ⟨"", 0, true, true⟩

def write (p : Pen) (cs : List Char) : Pen :=
  { p with out := p.out ++ String.ofList cs, column := p.column + cs.length }

def newLine (p : Pen) : Pen := ⟨p.out.push '\n', 0, true, true⟩

/-- Goes to the given column, on a new line unless this one holds only indentation short of it. -/
def indentTo (p : Pen) (indent : Nat) : Pen :=
  let p := if !p.indenting || indent < p.column || (p.column = indent && !p.spaced) then p.newLine
    else p
  if p.column < indent then { p.write (List.replicate (indent - p.column) ' ') with spaced := true }
  else p

/-- An indicator with a space in front of it unless there is one. -/
def indicator (p : Pen) (cs : List Char) (spaceBefore spaced indenting : Bool) : Pen :=
  let p' := p.write (if p.spaced || !spaceBefore then cs else ' ' :: cs)
  { p' with spaced := spaced, indenting := p.indenting && indenting }

def mark (p : Pen) (s : String) : Pen := p.indicator s.toList true false false

/-- Runs of spaces, runs of newlines, and runs of neither. -/
def runs : List Char → List (List Char)
  | [] => []
  | c :: rest =>
    let kind (d : Char) : Nat := if d = ' ' then 1 else if isLineBreak d then 2 else 0
    match runs rest with
    | (d :: run) :: others =>
      if kind c = kind d then (c :: d :: run) :: others else [c] :: (d :: run) :: others
    | others => [c] :: others

/-- A single space inside the text, once the line is full, becomes a new line. -/
def writeSpaces (p : Pen) (run : List Char) (indent : Nat) (inside : Bool) : Pen :=
  if run.length = 1 && lineWidth < p.column && inside then p.indentTo indent else p.write run

/-- A line that goes on inside a scalar is not free for indicators. -/
def afterBreak (p : Pen) : Pen := { p with spaced := false, indenting := false }

/-- A newline inside quotes is written as two, and one more for every further one. -/
def writeBreaks (p : Pen) (run : List Char) (indent : Nat) : Pen :=
  ((run.foldl (fun p _ => p.newLine) p.newLine)).indentTo indent

def writePlainRuns (indent : Nat) (split : Bool) : List (List Char) → Pen → Pen
  | [], p => p
  | run :: rest, p =>
    let p :=
      if run = [' '] && lineWidth < p.column && split then (p.indentTo indent).afterBreak
      else p.write run
    writePlainRuns indent split rest p

/-- A plain scalar never starts or ends with a space and holds no newline. -/
def writePlain (p : Pen) (cs : List Char) (indent : Nat) (split : Bool) : Pen :=
  if cs.isEmpty then p
  else
    let p := if p.spaced then p else p.write [' ']
    writePlainRuns indent split (runs cs) p.afterBreak

def doubleApostrophes (cs : List Char) : List Char :=
  cs.flatMap fun c => if c = '\'' then ['\'', '\''] else [c]

def writeSingleRuns (indent : Nat) (split : Bool) (first : Bool) : List (List Char) → Pen → Pen
  | [], p => p
  | run :: rest, p =>
    let p :=
      if run.head? = some ' ' then p.writeSpaces run indent (split && !first && !rest.isEmpty)
      else if run.head?.any isLineBreak then p.writeBreaks run indent
      else p.write (doubleApostrophes run)
    writeSingleRuns indent split false rest p

/-- Between apostrophes, each of which is doubled inside. -/
def writeSingle (p : Pen) (cs : List Char) (indent : Nat) (split : Bool) : Pen :=
  let p := p.indicator ['\''] true false false
  let p := writeSingleRuns indent split true (runs cs) p
  p.indicator ['\''] false false false

/-- Escapes of one letter. -/
def shortEscape? (n : Nat) : Option Char :=
  ([('\x00', '0'), ('\x07', 'a'), ('\x08', 'b'), ('\t', 't'), ('\n', 'n'), ('\x0B', 'v'),
    ('\x0C', 'f'), ('\r', 'r'), ('\x1B', 'e'), ('"', '"'), ('\\', '\\'), ('\u0085', 'N'),
    ('\u00A0', '_'), ('\u2028', 'L'), ('\u2029', 'P')].find? fun (c, _) => c.toNat = n).map (·.2)

def upperHex (width n : Nat) : List Char := (Text.hexDigits width n).map Char.toUpper

def escapeOf (n : Nat) : List Char :=
  match shortEscape? n with
  | some e => ['\\', e]
  | none =>
    if n ≤ 0xFF then '\\' :: 'x' :: upperHex 2 n
    else if n ≤ 0xFFFF then '\\' :: 'u' :: upperHex 4 n
    else '\\' :: 'U' :: upperHex 8 n

def isEscaped (n : Nat) : Bool :=
  n = '"'.toNat || n = '\\'.toNat || !(0x20 ≤ n && n ≤ 0x7E)

/-- Ends a line inside double quotes; a backslash keeps a space at the start of the next one. -/
def breakLine (p : Pen) (held : List Char) (indent : Nat) (next : Option Nat) : Pen :=
  let p := (((p.write held.reverse).write ['\\']).indentTo indent).afterBreak
  if next = some ' '.toNat then p.write ['\\'] else p

/-- `held` are the characters, read backwards, that have not been written yet. A line that has got
too long ends behind an escape or in front of a space, never next to either end of the text. -/
def writeDoubleFrom (indent : Nat) (split : Bool) (first : Bool) (held : List Char) :
    List Nat → Pen → Pen
  | [], p => p.write held.reverse
  | n :: rest, p =>
    let mayBreak := split && !first && !rest.isEmpty
    let c := Char.ofNat n
    if isEscaped n then
      let p := (p.write held.reverse).write (escapeOf n)
      let p := if mayBreak && lineWidth + 1 < p.column then p.breakLine [] indent rest.head? else p
      writeDoubleFrom indent split false [] rest p
    else if mayBreak && (c = ' ' || held.isEmpty) && lineWidth < p.column + held.length then
      writeDoubleFrom indent split false [c] rest (p.breakLine held indent (some n))
    else writeDoubleFrom indent split false (c :: held) rest p

/-- Between double quotes, with escapes. -/
def writeDouble (p : Pen) (cs : List Char) (indent : Nat) (split : Bool) : Pen :=
  let p := p.indicator ['"'] true false false
  let p := writeDoubleFrom indent split true [] (Text.codesOf cs) p
  p.indicator ['"'] false false false

/-- Lines of a text, the newlines left out. -/
def splitLines (cs : List Char) : List (List Char) :=
  cs.foldr (fun c lines =>
    match lines with
    | line :: rest => if c = '\n' then [] :: line :: rest else (c :: line) :: rest
    | [] => []) [[]]

/-- A block whose lines are taken as they are; its text ends with one newline. -/
def writeLiteral (p : Pen) (cs : List Char) (indent : Nat) : Pen :=
  let p := (p.indicator ['|'] true false false).newLine
  (splitLines cs).dropLast.foldl (fun p line => ((p.indentTo indent).write line).newLine) p

end Pen

end ComponentAttrs.Yaml
