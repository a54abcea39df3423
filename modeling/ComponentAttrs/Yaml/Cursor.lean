import ComponentAttrs.Yaml.Source

/-!
A place in the text of a document: what is left to read, and the line and column reached. Where the
text is not all there is, looking behind its end fails.
-/
namespace ComponentAttrs.Yaml

/-- Carriage returns are folded before a text gets here. -/
def isLineBreak (c : Char) : Bool :=
  c = '\n' || c = '\u0085' || c = '\u2028' || c = '\u2029'

def isBlank (c : Char) : Bool := c = ' ' || c = '\t'

/-- A line break other than the separators of lines and paragraphs is read as a plain newline. -/
def foldBreak (c : Char) : Char := if c = '\u0085' then '\n' else c

def isWordChar (c : Char) : Bool := c.isAlphanum || c = '-' || c = '_'

def isHexChar (c : Char) : Bool :=
  c.isDigit || ('a' ≤ c && c ≤ 'f') || ('A' ≤ c && c ≤ 'F')

abbrev Scan := Except Failure

def noScan {α : Type} (p : ScalarProblem) : Scan α := .error (.scalar p)

structure Cursor where
  rest : List Char
  /-- What stops the reading behind the text, if that is not all there is. -/
  stop : Option Failure
  /-- The length of the whole text. -/
  size : Nat
  index : Nat
  line : Nat
  column : Nat

namespace Cursor

def start (source : Source) : Cursor := ⟨source.text, source.stop, source.text.length, 0, 0, 0⟩

/-- A look at the next `n` characters. -/
def need (k : Cursor) (n : Nat) : Scan Unit :=
  match k.stop with
  | some failure => if (k.rest.drop (n - 1)).isEmpty then .error failure else .ok ()
  | none => .ok ()

/-- What is wrong here counts only if the text does not break off here. -/
def fail {α : Type} (k : Cursor) (p : Problem) : Scan α := do
  k.need 1
  .error (.malformed p)

def peek (k : Cursor) : Option Char := k.rest.head?

def peekAt (k : Cursor) (n : Nat) : Option Char := k.rest[n]?

/-- A byte order mark takes no column. -/
def advance (k : Cursor) : Cursor :=
  match k.rest with
  | [] => k
  | c :: cs =>
    let behind := { k with rest := cs, index := k.index + 1 }
    if isLineBreak c then { behind with line := k.line + 1, column := 0 }
    else { behind with column := if c = '\uFEFF' then k.column else k.column + 1 }

def skip (k : Cursor) : Nat → Cursor
  | 0 => k
  | n + 1 => k.advance.skip n

/-- The characters up to the first one that fails the test, and the place behind them. -/
def spanFrom (p : Char → Bool) (taken : List Char) : List Char → Cursor → List Char × Cursor
  | [], k => (taken.reverse, k)
  | c :: cs, k => if p c then spanFrom p (c :: taken) cs k.advance else (taken.reverse, k)

def span (p : Char → Bool) (k : Cursor) : List Char × Cursor := spanFrom p [] k.rest k

def skipWhile (p : Char → Bool) (k : Cursor) : Cursor := (k.span p).2

def skipSpaces (k : Cursor) : Cursor := k.skipWhile (· = ' ')

/-- Skips a comment, if one starts here. -/
def skipComment (k : Cursor) : Cursor :=
  if k.peek = some '#' then k.skipWhile (!isLineBreak ·) else k

/-- The line break that stands here, as it is read. -/
def lineBreak? (k : Cursor) : Option (Char × Cursor) :=
  match k.peek with
  | some c => if isLineBreak c then some (foldBreak c, k.advance) else none
  | none => none

def startsWith (k : Cursor) (word : List Char) : Bool := word.isPrefixOf k.rest

/-- Is this the end of the text, or a character that passes the test? -/
def endOr (p : Char → Bool) : Option Char → Bool
  | none => true
  | some c => p c

def atEndOrBreak (k : Cursor) : Bool := endOr isLineBreak k.peek

/-- End of the text, space, tab or line break. -/
def isGap (o : Option Char) : Bool := endOr (fun c => isBlank c || isLineBreak c) o

/-- As `isGap`, tabs left out. -/
def isTightGap (o : Option Char) : Bool := endOr (fun c => c = ' ' || isLineBreak c) o

/-- Does a document marker of one of these forms stand here? A line starts here. -/
def atMarker (k : Cursor) (words : List (List Char)) : Scan Bool := do
  k.need 3
  if words.any k.startsWith then do
    k.need 4
    return isGap (k.peekAt 3)
  else return false

def startMarker : List Char := ['-', '-', '-']

def endMarker : List Char := ['.', '.', '.']

def atSeparator (k : Cursor) : Scan Bool := k.atMarker [startMarker, endMarker]

end Cursor

end ComponentAttrs.Yaml
