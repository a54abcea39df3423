import ComponentAttrs.Yaml.Cursor
import ComponentAttrs.Decimal.Reading
import ComponentAttrs.Text.CodePoint

/-!
The smallest meaningful pieces of a document: markers, indicators, names and scalars.
-/
namespace ComponentAttrs.Yaml

inductive Directive where
  | version (major minor : Nat)
  | handle (name expansion : String)
  | other

inductive Token where
  | directive (d : Directive)
  | documentStart
  | documentEnd
  | blockSequence
  | blockMapping
  | blockEnd
  | openBracket
  | closeBracket
  | openBrace
  | closeBrace
  | entry
  | comma
  | key
  | value
  | alias (name : String)
  | anchor (name : String)
  /-- Without a handle the suffix is the whole tag. -/
  | tag (handle : Option String) (suffix : String)
  | scalar (text : String) (plain : Bool)
  | streamEnd
  /-- The text cannot be read from here on. -/
  | broken (failure : Failure)

/-! ## Names, tags and directives -/

/-- The name behind an ampersand or an asterisk. -/
def readAnchorName (k : Cursor) : Scan (String × Cursor) :=
  let (name, k) := k.advance.span isWordChar
  let closed := Cursor.isGap k.peek || k.peek.any ("?:,]\x7d%@`".toList.contains ·)
  if name.isEmpty || !closed then k.fail .badAnchor else .ok (String.ofList name, k)

/-- An exclamation mark, or a word between two of them. -/
def readTagHandle (k : Cursor) (problem : Problem) : Scan (String × Cursor) :=
  if k.peek ≠ some '!' then k.fail problem
  else if k.peekAt 1 = some ' ' then .ok ("!", k.advance)
  else
    let (name, k) := k.advance.span isWordChar
    if k.peek = some '!' then .ok (String.ofList ('!' :: name ++ ['!']), k.advance)
    else k.fail problem

def isUriChar (c : Char) : Bool :=
  c.isAlphanum || "-;/?:@&=+$,_.!~*'()[]%".toList.contains c

def hexValue (cs : List Char) : Nat :=
  cs.foldl (fun acc c =>
    acc * 16 + (if c.isDigit then c.toNat - '0'.toNat
      else if 'a' ≤ c then c.toNat - 'a'.toNat + 10 else c.toNat - 'A'.toNat + 10)) 0

/-- The bytes that some percent signs with two hexadecimal digits each stand for. -/
def readUriBytes (problem : Problem) (bytes : List UInt8) :
    List Char → Cursor → Scan (List UInt8 × Cursor)
  | '%' :: a :: b :: cs, k =>
    if isHexChar a && isHexChar b then
      readUriBytes problem ((hexValue [a, b]).toUInt8 :: bytes) cs (k.skip 3)
    else k.fail problem
  | '%' :: cs, k => do
    if cs.all isHexChar then k.need 3
    k.fail problem
  | _, k => do
    k.need 1
    .ok (bytes.reverse, k)

/-- The characters of a tag, `taken` read backwards. -/
def readUriText (problem : Problem) (taken : List Char) : Nat → Cursor → Scan (List Char × Cursor)
  | 0, k => k.fail problem
  | fuel + 1, k =>
    if k.peek = some '%' then do
      let (bytes, k) ← readUriBytes problem [] k.rest k
      match String.fromUTF8? ⟨bytes.toArray⟩ with
      | some text => readUriText problem (text.toList.reverse ++ taken) fuel k
      | none => k.fail problem
    else if k.peek.any isUriChar then
      readUriText problem (k.rest.take 1 ++ taken) fuel k.advance
    else .ok (taken.reverse, k)

def readTagUri (k : Cursor) (problem : Problem) : Scan (String × Cursor) := do
  let (text, k) ← readUriText problem [] k.size.succ k
  if text.isEmpty then k.fail problem else .ok (Text.ofChars text, k)

/-- Does an exclamation mark follow before the next gap? -/
def hasHandle (k : Cursor) : Scan Bool := do
  let (_, k) := k.span fun c => !(c = ' ' || c = '!' || isLineBreak c)
  k.need 1
  return k.peek = some '!'

def readTag (k : Cursor) : Scan (Token × Cursor) := do
  k.need 2
  let (token, k) ←
    if k.peekAt 1 = some '<' then do
      let (suffix, k) ← readTagUri (k.skip 2) .badTag
      if k.peek = some '>' then pure (Token.tag none suffix, k.advance) else k.fail .badTag
    else if Cursor.isGap (k.peekAt 1) then pure (Token.tag none "!", k.advance)
    else do
      let (handle, k) ←
        if ← hasHandle k.advance then readTagHandle k .badTag else pure ("!", k.advance)
      let (suffix, k) ← readTagUri k .badTag
      pure (Token.tag (some handle) suffix, k)
  if Cursor.isTightGap k.peek then .ok (token, k) else k.fail .badTag

def digitsValue (cs : List Char) : Nat :=
  cs.foldl (fun acc c => acc * 10 + (c.toNat - '0'.toNat)) 0

def readVersionNumber (k : Cursor) : Scan (Nat × Cursor) := do
  let (digits, k) := k.span Char.isDigit
  k.need 1
  if digits.isEmpty then k.fail .badDirective
  else if Decimal.digitLimit < digits.length then noScan .value
  else .ok (digitsValue digits, k)

def readVersion (k : Cursor) : Scan (Directive × Cursor) := do
  let (major, k) ← readVersionNumber k.skipSpaces
  if k.peek ≠ some '.' then k.fail .badDirective
  else do
    let (minor, k) ← readVersionNumber k.advance
    if Cursor.isTightGap k.peek then .ok (.version major minor, k) else k.fail .badDirective

def readHandleDirective (k : Cursor) : Scan (Directive × Cursor) := do
  let (name, k) ← readTagHandle k.skipSpaces .badDirective
  if k.peek ≠ some ' ' then k.fail .badDirective
  else do
    let (expansion, k) ← readTagUri k.skipSpaces .badDirective
    if Cursor.isTightGap k.peek then .ok (.handle name expansion, k) else k.fail .badDirective

/-- What may follow on a line of its own: spaces and a comment. -/
def readLineEnd (k : Cursor) (problem : Problem) : Scan Cursor :=
  let k := k.skipSpaces.skipComment
  if k.atEndOrBreak then .ok k.advance else k.fail problem

def readDirective (k : Cursor) : Scan (Token × Cursor) := do
  let (name, k) := k.advance.span isWordChar
  if name.isEmpty || !Cursor.isTightGap k.peek then k.fail .badDirective
  else do
    let (directive, k) ←
      if name = "YAML".toList then readVersion k
      else if name = "TAG".toList then readHandleDirective k
      else pure (.other, k.skipWhile (!isLineBreak ·))
    let k ← readLineEnd k .badDirective
    .ok (.directive directive, k)

/-! ## Block scalars -/

/-- What happens to the line breaks at the end: all kept, all dropped, or one kept. -/
inductive Chomping where
  | keep
  | strip
  | clip
deriving DecidableEq

def chomping? (o : Option Char) : Option Chomping :=
  if o = some '+' then some .keep else if o = some '-' then some .strip else none

/-- The width given in a header; zero is no width. -/
def readIndentWidth (k : Cursor) : Scan (Option Nat) :=
  match k.peek with
  | some c =>
    if c = '0' then k.fail .badBlockHeader
    else if c.isDigit then .ok (some (c.toNat - '0'.toNat))
    else .ok none
  | none => .ok none

/-- The signs behind the indicator, in either order. -/
def readBlockHeader (k : Cursor) : Scan ((Chomping × Option Nat) × Cursor) := do
  let (header, k) ←
    match chomping? k.peek with
    | some chomping => do
      let k := k.advance
      match ← readIndentWidth k with
      | some width => pure ((chomping, some width), k.advance)
      | none => pure ((chomping, none), k)
    | none => do
      match ← readIndentWidth k with
      | some width =>
        let k := k.advance
        match chomping? k.peek with
        | some chomping => pure ((chomping, some width), k.advance)
        | none => pure ((Chomping.clip, some width), k)
      | none => pure ((Chomping.clip, none), k)
  if Cursor.isTightGap k.peek then .ok (header, k) else k.fail .badBlockHeader

/-- Spaces up to a column. -/
def skipIndent (column : Nat) : List Char → Cursor → Cursor
  | ' ' :: cs, k => if k.column < column then skipIndent column cs k.advance else k
  | _, k => k

/-- Blank lines, each up to a column of spaces, and the indentation of the line behind them. -/
def readBreaks (column : Nat) (breaks : List Char) : Nat → Cursor → List Char × Cursor
  | 0, k => (breaks.reverse, k)
  | fuel + 1, k =>
    let k := skipIndent column k.rest k
    match k.lineBreak? with
    | some (c, k) => readBreaks column (c :: breaks) fuel k
    | none => (breaks.reverse, k)

/-- Blank lines in front of the first line of content, and the widest indentation met. -/
def readLeadingBreaks (breaks : List Char) (widest : Nat) :
    List Char → Cursor → List Char × Nat × Cursor
  | [], k => (breaks.reverse, widest, k)
  | c :: cs, k =>
    if c = ' ' then readLeadingBreaks breaks (max widest k.advance.column) cs k.advance
    else if isLineBreak c then readLeadingBreaks (foldBreak c :: breaks) widest cs k.advance
    else (breaks.reverse, widest, k)

structure BlockText where
  /-- All but the line break at the end of the last line, read backwards. -/
  taken : List Char
  lastBreak : List Char
  breaks : List Char
  cursor : Cursor

/-- The lines of a block scalar. Folding turns a single break between two lines that start with
neither a space nor a tab into a space. -/
def readBlockLines (folded : Bool) (column : Nat) (taken lastBreak breaks : List Char) :
    Nat → Cursor → BlockText
  | 0, k => ⟨taken, lastBreak, breaks, k⟩
  | fuel + 1, k =>
    if k.column = column && k.peek.isSome then
      let flush := !k.peek.any isBlank
      let (line, k) := k.span (!isLineBreak ·)
      let taken := line.reverse ++ breaks.reverse ++ taken
      let (lastBreak, k) := match k.lineBreak? with
        | some (c, k) => ([c], k)
        | none => ([], k)
      let (breaks, k) := readBreaks column [] k.size.succ k
      if k.column = column && k.peek.isSome then
        let joint :=
          if folded && lastBreak = ['\n'] && flush && !k.peek.any isBlank then
            if breaks.isEmpty then [' '] else []
          else lastBreak
        readBlockLines folded column (joint.reverse ++ taken) lastBreak breaks fuel k
      else ⟨taken, lastBreak, breaks, k⟩
    else ⟨taken, lastBreak, breaks, k⟩

/-- A block scalar below a collection of the given indentation. -/
def readBlockScalar (folded : Bool) (indent : Int) (k : Cursor) : Scan (Token × Cursor) := do
  let ((chomping, width), k) ← readBlockHeader k.advance
  let k ← readLineEnd k .badBlockHeader
  let least := (max 1 (indent + 1)).toNat
  let (column, breaks, k) := match width with
    | some width =>
      let column := least + width - 1
      let (breaks, k) := readBreaks column [] k.size.succ k
      (column, breaks, k)
    | none =>
      let (breaks, widest, k) := readLeadingBreaks [] 0 k.rest k
      (max least widest, breaks, k)
  let block := readBlockLines folded column [] [] breaks k.size.succ k
  let text := match chomping with
    | .strip => block.taken.reverse
    | .clip => block.taken.reverse ++ block.lastBreak
    | .keep => block.taken.reverse ++ block.lastBreak ++ block.breaks
  .ok (.scalar (Text.ofChars text) false, block.cursor)

/-! ## Quoted scalars -/

/-- Escapes of one letter between double quotes. -/
def escapeChar? (c : Char) : Option Char :=
  [('0', '\x00'), ('a', '\x07'), ('b', '\x08'), ('t', '\t'), ('\t', '\t'), ('n', '\n'),
   ('v', '\x0B'), ('f', '\x0C'), ('r', '\r'), ('e', '\x1B'), (' ', ' '), ('"', '"'), ('\\', '\\'),
   ('/', '/'), ('N', '\u0085'), ('_', '\u00A0'), ('L', '\u2028'), ('P', '\u2029')].lookup c

/-- Escapes that name a code point by so many digits. -/
def escapeWidth? (c : Char) : Option Nat :=
  [('x', 2), ('u', 4), ('U', 8)].lookup c

/-- Blank lines inside quotes; a document marker may not stand there. -/
def readQuotedBreaks (breaks : List Char) : Nat → Cursor → Scan (List Char × Cursor)
  | 0, k => .ok (breaks.reverse, k)
  | fuel + 1, k => do
    if ← k.atSeparator then k.fail .separatorInQuotes
    else do
      let k := k.skipWhile isBlank
      match k.lineBreak? with
      | some (c, k) => readQuotedBreaks (c :: breaks) fuel k
      | none => .ok (breaks.reverse, k)

/-- Code points end at U+10FFFF; numbers of 32 bits with the first bit set are not even tried. -/
def readNumericEscape (width : Nat) (k : Cursor) : Scan (Nat × Cursor) := do
  let digits := (k.rest.take width).takeWhile isHexChar
  if digits.length < width then do
    k.need (digits.length + 1)
    k.fail .badEscape
  else
    let code := hexValue digits
    if 0x80000000 ≤ code then noScan .range
    else if 0x110000 ≤ code then noScan .value
    else .ok (code, k.skip width)

/-- What a backslash between double quotes stands for; `k` is behind it. -/
def readEscape (k : Cursor) : Scan (List Nat × Cursor) := do
  match k.peek with
  | none => k.fail .badEscape
  | some c =>
    match escapeChar? c with
    | some e => .ok ([e.toNat], k.advance)
    | none =>
      match escapeWidth? c with
      | some width => do
        let (code, k) ← readNumericEscape width k.advance
        .ok ([code], k)
      | none =>
        if isLineBreak c then do
          let (breaks, k) ← readQuotedBreaks [] k.size.succ k.advance
          .ok (breaks.map Char.toNat, k)
        else k.fail .badEscape

/-- Blanks inside quotes: kept within a line, folded with the breaks around the end of one. -/
def readQuotedSpace (k : Cursor) : Scan (List Char × Cursor) :=
  let (blanks, k) := k.span isBlank
  match k.lineBreak? with
  | some (c, k) => do
    let (breaks, k) ← readQuotedBreaks [] k.size.succ k
    let first := if c ≠ '\n' then [c] else if breaks.isEmpty then [' '] else []
    .ok (first ++ breaks, k)
  | none => if k.peek.isNone then k.fail .unexpectedEnd else .ok (blanks, k)

/-- The code points of the text up to the closing quote, `taken` read backwards. -/
def readQuotedText (double : Bool) (taken : List Nat) : Nat → Cursor → Scan (List Nat × Cursor)
  | 0, k => k.fail .unexpectedEnd
  | fuel + 1, k =>
    match k.peek with
    | none => k.fail .unexpectedEnd
    | some c =>
      if isBlank c || isLineBreak c then do
        let (space, k) ← readQuotedSpace k
        readQuotedText double (space.reverse.map Char.toNat ++ taken) fuel k
      else if !double && c = '\'' && k.peekAt 1 = some '\'' then
        readQuotedText double (c.toNat :: taken) fuel (k.skip 2)
      else if c = (if double then '"' else '\'') then .ok (taken.reverse, k.advance)
      else if double && c = '\\' then do
        let (piece, k) ← readEscape k.advance
        readQuotedText double (piece.reverse ++ taken) fuel k
      else readQuotedText double (c.toNat :: taken) fuel k.advance

def readQuotedScalar (double : Bool) (k : Cursor) : Scan (Token × Cursor) := do
  let (text, k) ← readQuotedText double [] k.size.succ k.advance
  .ok (.scalar (Text.ofCodes text) false, k)

/-! ## Plain scalars -/

/-- Does a plain scalar end in front of this character? `next` is the one behind it. -/
def endsPlain (inFlow : Bool) (c : Char) (next : Option Char) : Bool :=
  isBlank c || isLineBreak c
    || (c = ':' && (Cursor.isGap next || (inFlow && next.any (",[]\x7b\x7d".toList.contains ·))))
    || (inFlow && ",?[]\x7b\x7d".toList.contains c)

def readPlainWord (inFlow : Bool) (taken : List Char) : List Char → Cursor → List Char × Cursor
  | [], k => (taken.reverse, k)
  | c :: cs, k =>
    if endsPlain inFlow c cs.head? then (taken.reverse, k)
    else readPlainWord inFlow (c :: taken) cs k.advance

/-- Breaks between two words; `none` if a document marker follows. -/
def readPlainBreaks (breaks : List Char) : List Char → Cursor → Scan (Option (List Char) × Cursor)
  | [], k => .ok (some breaks.reverse, k)
  | c :: cs, k => do
    if c = ' ' then readPlainBreaks breaks cs k.advance
    else if isLineBreak c then
      if ← k.advance.atSeparator then return (none, k.advance)
      else readPlainBreaks (foldBreak c :: breaks) cs k.advance
    else return (some breaks.reverse, k)

/-- What stands between two words of a plain scalar, and whether a line ended there. -/
def readPlainSpace (k : Cursor) : Scan (List Char × Bool × Cursor) := do
  let (blanks, k) := k.span (· = ' ')
  match k.lineBreak? with
  | some (c, k) =>
    if ← k.atSeparator then return ([], true, k)
    else
      match ← readPlainBreaks [] k.rest k with
      | (none, k) => return ([], true, k)
      | (some breaks, k) =>
        let first := if c ≠ '\n' then [c] else if breaks.isEmpty then [' '] else []
        return (first ++ breaks, true, k)
  | none => return (blanks, false, k)

structure PlainText where
  /-- Read backwards. -/
  taken : List Char
  /-- Did the last thing read end a line? -/
  brokeLine : Bool
  cursor : Cursor

def readPlainText (inFlow : Bool) (indent : Int) (taken space : List Char) (brokeLine : Bool) :
    Nat → Cursor → Scan PlainText
  | 0, k => .ok ⟨taken, brokeLine, k⟩
  | fuel + 1, k => do
    if k.peek = some '#' then return ⟨taken, brokeLine, k⟩
    else
      let (word, k) := readPlainWord inFlow [] k.rest k
      k.need (if k.peek = some ':' then 2 else 1)
      if word.isEmpty then return ⟨taken, brokeLine, k⟩
      else
        let taken := word.reverse ++ space.reverse ++ taken
        let (space, brokeLine, k) ← readPlainSpace k
        if space.isEmpty || k.peek = some '#' || (!inFlow && k.column < indent) then
          return ⟨taken, brokeLine, k⟩
        else readPlainText inFlow indent taken space brokeLine fuel k

/-- May a plain scalar start here? -/
def startsPlain (inFlow : Bool) (k : Cursor) : Scan Bool := do
  match k.peek with
  | none => return false
  | some c =>
    if isBlank c || isLineBreak c || "-?:,[]\x7b\x7d#&*!|>'\"%@`".toList.contains c then do
      k.need 2
      return !Cursor.isGap (k.peekAt 1) && (c = '-' || (!inFlow && (c = '?' || c = ':')))
    else return true

end ComponentAttrs.Yaml
