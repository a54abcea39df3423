import ComponentAttrs.Yaml.Tag
import ComponentAttrs.Yaml.Cursor

/-!
How a scalar is written: plain where that reads back as the same text, between apostrophes where the
characters allow it, and with escapes between double quotes otherwise.
-/
namespace ComponentAttrs.Yaml

inductive Style where
  | plain
  | single
  | double
  | literal
deriving DecidableEq

/-- What the characters of a scalar allow. -/
structure Analysis where
  empty : Bool
  multiline : Bool
  plain : Bool
  single : Bool
  block : Bool

/-- Characters that mean something at the start of a node. -/
def isIndicator (c : Char) : Bool := "#,[]\x7b\x7d&*!|>'\"%@`".toList.contains c

/-- Gaps in the sense of a written document, where a null character is one too. -/
def isWrittenGap (o : Option Char) : Bool :=
  Cursor.endOr (fun c => isBlank c || isLineBreak c || c = '\r' || c = '\x00') o

/-- Would this character, plain, be taken for an indicator? `before` is read backwards. -/
def needsQuotes (before : List Char) (c : Char) (next : Option Char) : Bool :=
  if before.isEmpty then
    isIndicator c || ((c = '?' || c = ':' || c = '-') && isWrittenGap next)
  else
    (c = ':' && isWrittenGap next) || (c = '#' && isWrittenGap before.head?)

/-- Only the printable characters of the basic block and newlines are written as they are. -/
def needsEscape (c : Char) : Bool := !(c = '\n' || (' ' ≤ c && c ≤ '~'))

/-- Does some character, with what is in front of it and behind it, pass the test? -/
def anyAt (p : List Char → Char → Option Char → Bool) (before : List Char) : List Char → Bool
  | [] => false
  | c :: rest => p before c rest.head? || anyAt p (c :: before) rest

def analyse (cs : List Char) : Analysis :=
  if cs.isEmpty then ⟨true, false, true, true, false⟩
  else
    let marker := ['-', '-', '-'].isPrefixOf cs || ['.', '.', '.'].isPrefixOf cs
    let isEdge (o : Option Char) : Bool := o.any fun c => c = ' ' || isLineBreak c
    let breakSpace := anyAt (fun before c _ => c = ' ' && before.head?.any isLineBreak) [] cs
    let spaceBreak := anyAt (fun before c _ => isLineBreak c && before.head? = some ' ') [] cs
    let special := cs.any needsEscape
    let multiline := cs.any isLineBreak
    let edge := isEdge cs.head? || isEdge cs.getLast?
    let quotes := marker || anyAt needsQuotes [] cs
    { empty := false
      multiline := multiline
      plain := !(edge || breakSpace || spaceBreak || special || multiline || quotes)
      single := !(breakSpace || spaceBreak || special)
      block := !(cs.getLast? = some ' ' || spaceBreak || special) }

/-- A literal block is used where it is asked for and possible; a key stays on one line. -/
def chooseStyle (a : Analysis) (literal plainKeepsTag asKey : Bool) : Style :=
  if !literal && plainKeepsTag && a.plain && !(asKey && (a.empty || a.multiline)) then .plain
  else if literal && !asKey && a.block then .literal
  else if !literal && a.single && !(asKey && a.multiline) then .single
  else .double

end ComponentAttrs.Yaml
