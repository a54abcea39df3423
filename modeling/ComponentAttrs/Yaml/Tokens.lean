import ComponentAttrs.Yaml.Token

/-!
The tokens of a whole document. Indentation opens and closes block collections, and a colon turns
what was read before it into a key: the key token is put in afterwards, where the key began. A token
that may still become a key is not given out before that is settled, so that a text that cannot be
read further breaks off in front of it.
-/
namespace ComponentAttrs.Yaml

/-- A token that a colon may still turn into a key. -/
structure PendingKey where
  /-- Number of tokens in front of it. -/
  place : Nat
  /-- Nothing but a key can stand here. -/
  required : Bool
  index : Nat
  line : Nat
  column : Nat

/-- What has been read so far. `pending` has one place for each open flow collection and one, at the
end, for the block around them. -/
structure Lexing where
  cursor : Cursor
  /-- Latest first. -/
  tokens : List Token
  count : Nat
  indent : Int
  outerIndents : List Int
  keyAllowed : Bool
  pending : List (Option PendingKey)

namespace Lexing

def start (source : Source) : Lexing := ⟨.start source, [], 0, -1, [], true, [none]⟩

def fail (s : Lexing) (p : Problem) : Scan Lexing := s.cursor.fail p

def inFlow (s : Lexing) : Bool := 1 < s.pending.length

def push (s : Lexing) (t : Token) : Lexing :=
  { s with tokens := t :: s.tokens, count := s.count + 1 }

/-- Puts tokens, the latest first, behind the first `place` ones. -/
def insertAt (s : Lexing) (place : Nat) (front : List Token) : Lexing :=
  let (later, earlier) := s.tokens.splitAt (s.count - place)
  { s with tokens := later ++ front ++ earlier, count := s.count + front.length }

def moveTo (s : Lexing) (k : Cursor) : Lexing := { s with cursor := k }

/-- A key ends on the line it began, at most this many characters on. -/
def keyReach : Nat := 1024

def isStale (k : Cursor) (key : PendingKey) : Bool :=
  key.line ≠ k.line || keyReach < k.index - key.index

/-- Drops the keys that can no longer be followed by a colon. -/
def dropStale (s : Lexing) : Scan Lexing :=
  if s.pending.any fun key => key.any fun key => isStale s.cursor key && key.required then
    s.fail .unfinishedKey
  else
    .ok { s with pending := s.pending.map fun key => key.filter fun key => !isStale s.cursor key }

/-- Forgets the key of the innermost collection. -/
def dropKey (s : Lexing) : Scan Lexing :=
  match s.pending with
  | some key :: rest =>
    if key.required then s.fail .unfinishedKey else .ok { s with pending := none :: rest }
  | _ => .ok s

/-- What comes next may turn out to be a key. -/
def saveKey (s : Lexing) : Scan Lexing :=
  if s.keyAllowed then do
    let s ← s.dropKey
    let k := s.cursor
    let required := !s.inFlow && s.indent = Int.ofNat k.column
    let key := PendingKey.mk s.count required k.index k.line k.column
    .ok { s with pending := some key :: s.pending.drop 1 }
  else .ok s

/-- Closes the block collections that reach further in than `column`. -/
def closeBlocks (column : Int) : List Int → Lexing → Lexing
  | [], s => s
  | outer :: rest, s =>
    if s.indent > column then
      closeBlocks column rest { s.push .blockEnd with indent := outer, outerIndents := rest }
    else s

def unwind (s : Lexing) (column : Int) : Lexing :=
  if s.inFlow then s else closeBlocks column s.outerIndents s

/-- Opens a block collection if `column` is further in than the one around it. -/
def openBlock (s : Lexing) (column : Nat) : Bool × Lexing :=
  if s.indent < Int.ofNat column then
    (true, { s with indent := column, outerIndents := s.indent :: s.outerIndents })
  else (false, s)

/-- Spaces, comments and line breaks; a new line outside flow collections may start with a key. -/
def skipGap (s : Lexing) : Nat → Lexing
  | 0 => s
  | fuel + 1 =>
    let k := s.cursor.skipSpaces.skipComment
    match k.lineBreak? with
    | some (_, k) => skipGap { s with cursor := k, keyAllowed := s.keyAllowed || !s.inFlow } fuel
    | none => s.moveTo k

/-! ## One token -/

def readStreamEnd (s : Lexing) : Scan Lexing := do
  let s ← (s.unwind (-1)).dropKey
  .ok (s.push .streamEnd)

def readDirectiveLine (s : Lexing) : Scan Lexing := do
  let s ← (s.unwind (-1)).dropKey
  let (token, k) ← readDirective s.cursor
  .ok { s.push token with cursor := k, keyAllowed := false }

def readMarker (s : Lexing) (token : Token) : Scan Lexing := do
  let s ← (s.unwind (-1)).dropKey
  .ok { s.push token with cursor := s.cursor.skip 3, keyAllowed := false }

def readOpening (s : Lexing) (token : Token) : Scan Lexing := do
  let s ← s.saveKey
  .ok { s.push token with
    cursor := s.cursor.advance, keyAllowed := true, pending := none :: s.pending }

def readClosing (s : Lexing) (token : Token) : Scan Lexing := do
  let s ← s.dropKey
  if s.inFlow then
    .ok { s.push token with
      cursor := s.cursor.advance, keyAllowed := false, pending := s.pending.drop 1 }
  else s.fail .unbalanced

def readComma (s : Lexing) : Scan Lexing := do
  let s ← s.dropKey
  .ok { s.push .comma with cursor := s.cursor.advance, keyAllowed := true }

def readEntry (s : Lexing) : Scan Lexing := do
  if !s.inFlow && !s.keyAllowed then s.fail .misplacedEntry
  else do
    let (opened, s) := if s.inFlow then (false, s) else s.openBlock s.cursor.column
    let s := if opened then s.push .blockSequence else s
    let s ← s.dropKey
    .ok { s.push .entry with cursor := s.cursor.advance, keyAllowed := true }

def readKey (s : Lexing) : Scan Lexing := do
  if !s.inFlow && !s.keyAllowed then s.fail .misplacedKey
  else do
    let (opened, s) := if s.inFlow then (false, s) else s.openBlock s.cursor.column
    let s := if opened then s.push .blockMapping else s
    let s ← s.dropKey
    .ok { s.push .key with cursor := s.cursor.advance, keyAllowed := !s.inFlow }

/-- A colon: a pending key gets its key token, and a mapping begins with it if it stands further in
than what is open. -/
def readValue (s : Lexing) : Scan Lexing :=
  match s.pending with
  | some key :: rest =>
    let s := { s with pending := none :: rest }
    let (opened, s) := if s.inFlow then (false, s) else s.openBlock key.column
    let s := s.insertAt key.place (if opened then [.key, .blockMapping] else [.key])
    .ok { s.push .value with cursor := s.cursor.advance, keyAllowed := false }
  | _ =>
    if !s.inFlow && !s.keyAllowed then s.fail .misplacedValue
    else do
      let (opened, s) := if s.inFlow then (false, s) else s.openBlock s.cursor.column
      let s := if opened then s.push .blockMapping else s
      let s ← s.dropKey
      .ok { s.push .value with cursor := s.cursor.advance, keyAllowed := !s.inFlow }

/-- A token that may be a key: an alias, an anchor, a tag or a quoted scalar. -/
def readKeyLike (s : Lexing) (read : Cursor → Scan (Token × Cursor)) : Scan Lexing := do
  let s ← s.saveKey
  let (token, k) ← read s.cursor
  .ok { s.push token with cursor := k, keyAllowed := false }

def readBlockText (s : Lexing) (folded : Bool) : Scan Lexing := do
  let s ← s.dropKey
  let (token, k) ← readBlockScalar folded s.indent s.cursor
  .ok { s.push token with cursor := k, keyAllowed := true }

/-- A plain scalar that ends a line may be followed by a key. -/
def readPlain (s : Lexing) : Scan Lexing := do
  let s ← s.saveKey
  let k := s.cursor
  let plain ← readPlainText s.inFlow (s.indent + 1) [] [] false k.size.succ k
  .ok { s.push (.scalar (Text.ofChars plain.taken.reverse) true) with
    cursor := plain.cursor, keyAllowed := plain.brokeLine }

def readAlias (k : Cursor) : Scan (Token × Cursor) := do
  let (name, k) ← readAnchorName k
  .ok (.alias name, k)

def readAnchor (k : Cursor) : Scan (Token × Cursor) := do
  let (name, k) ← readAnchorName k
  .ok (.anchor name, k)

/-- The document marker at the cursor, where the character is `c`. -/
def marker? (k : Cursor) (c : Char) : Scan (Option Token) := do
  if k.column ≠ 0 then return none
  else if c = '-' then
    return if ← k.atMarker [Cursor.startMarker] then some .documentStart else none
  else if c = '.' then
    return if ← k.atMarker [Cursor.endMarker] then some .documentEnd else none
  else return none

/-- Is `c`, the character at the cursor, an indicator only if a gap follows? -/
def standsAlone (s : Lexing) (c : Char) : Bool := c = '-' || (!s.inFlow && (c = '?' || c = ':'))

/-- The token that starts with `c`, the character at the cursor, and is no marker. -/
def readIndicated (s : Lexing) (c : Char) : Scan Lexing := do
  let k := s.cursor
  if s.standsAlone c then k.need 2
  let alone := !s.standsAlone c || Cursor.isGap (k.peekAt 1)
  if c = '[' then s.readOpening .openBracket
  else if c = '{' then s.readOpening .openBrace
  else if c = ']' then s.readClosing .closeBracket
  else if c = '}' then s.readClosing .closeBrace
  else if c = ',' then s.readComma
  else if c = '-' && alone then s.readEntry
  else if c = '?' && alone then s.readKey
  else if c = ':' && alone then s.readValue
  else if c = '*' then s.readKeyLike readAlias
  else if c = '&' then s.readKeyLike readAnchor
  else if c = '!' then s.readKeyLike readTag
  else if c = '|' && !s.inFlow then s.readBlockText false
  else if c = '>' && !s.inFlow then s.readBlockText true
  else if c = '\'' then s.readKeyLike (readQuotedScalar false)
  else if c = '"' then s.readKeyLike (readQuotedScalar true)
  else if ← startsPlain s.inFlow k then s.readPlain
  else s.fail .badIndicator

/-- The token that starts with `c`, the character at the cursor. -/
def readToken (s : Lexing) (c : Char) : Scan Lexing := do
  if c = '%' && s.cursor.column = 0 then s.readDirectiveLine
  else
    match ← marker? s.cursor c with
    | some token => s.readMarker token
    | none => s.readIndicated c

/-- Reads up to the next token and that token with it. -/
def step (s : Lexing) : Scan Lexing := do
  let s := s.skipGap s.cursor.size.succ
  s.cursor.need 1
  let s ← s.dropStale
  let s := s.unwind s.cursor.column
  match s.cursor.peek with
  | none => s.readStreamEnd
  | some c => do
    let s ← s.readToken c
    s.cursor.need 1
    s.dropStale

/-- The number of tokens that are settled: no token behind them can still become a key. -/
def settled (s : Lexing) : Nat :=
  s.pending.foldl (fun n key => key.elim n fun key => min n key.place) s.count

/-- All tokens, the latest first; where the text cannot be read further, the settled ones. Every
step but the last one moves the cursor on, so the length of the text bounds their number. -/
def readAll (s : Lexing) : Nat → List Token
  | 0 => s.tokens
  | fuel + 1 =>
    match s.step with
    | .error failure => .broken failure :: s.tokens.drop (s.count - s.settled)
    | .ok next =>
      match next.tokens with
      | .streamEnd :: _ => next.tokens
      | _ => readAll next fuel

end Lexing

/-- A byte order mark at the very start is passed over. -/
def tokens (source : Source) : List Token :=
  let s := Lexing.start source
  let s := if s.cursor.peek = some '\uFEFF' then s.moveTo s.cursor.advance else s
  (s.readAll s.cursor.size.succ).reverse

end ComponentAttrs.Yaml
