/-!
Text in files. Line ends of all conventions are read as newlines. Bytes are decoded a block at a
time, so that a file that is no text may still begin with one.
-/
namespace ComponentAttrs.Files

/-- Line ends of all conventions are read as newlines. -/
def foldLineEnds : List Char → List Char
  | [] => []
  | [c] => [if c = '\r' then '\n' else c]
  | c :: d :: rest =>
    if c = '\r' then
      if d = '\n' then foldLineEnds (d :: rest) else '\n' :: foldLineEnds (d :: rest)
    else c :: foldLineEnds (d :: rest)

/-- Text is asked for so many characters at a time. -/
def portionSize : Nat := 4096

/-- So many bytes are decoded at once, if no more are needed. -/
def blockSize : Nat := 8192

/-- The text that some bytes start with, and whether it is all that they hold. -/
structure Decoded where
  text : List Char
  complete : Bool

/-- May the encoding of a character start with these bytes and go on? -/
def isOpenEnd : List UInt8 → Bool
  | [] => true
  | [a] => 0xC2 ≤ a && a ≤ 0xF4
  | [a, b] =>
    0x80 ≤ b && b ≤ 0xBF
      && ((0xE1 ≤ a && a ≤ 0xEF && (a ≠ 0xED || b ≤ 0x9F)) || (a = 0xE0 && 0xA0 ≤ b)
        || (0xF1 ≤ a && a ≤ 0xF3) || (a = 0xF0 && 0x90 ≤ b) || (a = 0xF4 && b ≤ 0x8F))
  | [a, b, c] =>
    0x80 ≤ b && b ≤ 0xBF && 0x80 ≤ c && c ≤ 0xBF
      && ((0xF1 ≤ a && a ≤ 0xF3) || (a = 0xF0 && 0x90 ≤ b) || (a = 0xF4 && b ≤ 0x8F))
  | _ => false

/-- The text of some bytes but for what waits for the bytes behind them: a character that is left
open and a carriage return at the end. -/
def openText? (bytes : ByteArray) : Option (List Char) :=
  (List.range 4).findSome? fun n =>
    let size := bytes.size - n
    if isOpenEnd (bytes.extract size bytes.size).toList then
      (String.fromUTF8? (bytes.extract 0 size)).map fun text =>
        let cs := text.toList
        foldLineEnds (if cs.getLast? = some '\r' then cs.dropLast else cs)
    else none

/-- The size of the block behind so many characters: it grows if the rest of a portion would need
more bytes than usual, taking as many for a character as the block before it. -/
def nextBlock (bytes chars length : Nat) : Nat :=
  let missing := portionSize - length % portionSize
  if chars = 0 then blockSize
  else max blockSize (bytes.toFloat / chars.toFloat * missing.toFloat).toUInt64.toNat

/-- The text in front of the first block that holds none, after `length` characters from `place`
bytes; `size` is the size of the next block. -/
def leadingText (bytes : ByteArray) (text : List Char) (length place size : Nat) : Nat → List Char
  | 0 => text
  | fuel + 1 =>
    let stop := min bytes.size (place + size)
    match openText? (bytes.extract 0 stop) with
    | none => text
    | some more =>
      if stop = bytes.size then more
      else
        let next := nextBlock (stop - place) (more.length - length) more.length
        leadingText bytes more more.length stop next fuel

/-- Every block takes some bytes, so their number bounds that of the blocks. -/
def decode (bytes : ByteArray) : Decoded :=
  match String.fromUTF8? bytes with
  | some text => ⟨foldLineEnds text.toList, true⟩
  | none => ⟨leadingText bytes [] 0 0 blockSize bytes.size, false⟩

end ComponentAttrs.Files
