import ComponentAttrs.Text.CodePoint
import ComponentAttrs.Text.Printable

/-!
Text as it is shown in messages: between quotes, with a backslash before what would end or confuse
the reading. Apostrophes are the usual quotes; a text that holds an apostrophe and no double quote
is put between double quotes instead.
-/
namespace ComponentAttrs.Text

/-- `width` hexadecimal digits, small letters. -/
def hexDigits (width n : Nat) : List Char :=
  let digits := Nat.toDigits 16 n
  List.replicate (width - digits.length) '0' ++ digits

def quoteFor (cs : List Char) : Char :=
  if '\'' ∈ cs ∧ '"' ∉ cs then '"' else '\''

/-- Escapes shared by texts and byte strings. -/
def shortEscape? (quote c : Char) : Option (List Char) :=
  if c = quote ∨ c = '\\' then some ['\\', c]
  else if c = '\t' then some ['\\', 't']
  else if c = '\n' then some ['\\', 'n']
  else if c = '\r' then some ['\\', 'r']
  else none

def numericEscape (n : Nat) : List Char :=
  if n < 0x100 then '\\' :: 'x' :: hexDigits 2 n
  else if n < 0x10000 then '\\' :: 'u' :: hexDigits 4 n
  else '\\' :: 'U' :: hexDigits 8 n

def showChar (quote c : Char) : List Char :=
  match shortEscape? quote c with
  | some escape => escape
  | none => if isPrintable c then [c] else numericEscape c.toNat

/-- A half of a pair is shown by its number. -/
def showCode (quote : Char) (n : Nat) : List Char :=
  if isHalf n then numericEscape n else showChar quote (Char.ofNat n)

def quoteChars (cs : List Char) : List Char :=
  let quote := quoteFor cs
  quote :: (codesOf cs).flatMap (showCode quote) ++ [quote]

def quoted (s : String) : String := String.ofList (quoteChars s.toList)

/-- Bytes are shown as the text of the same code points, beyond the basic block always by number. -/
def quotedBytes (bytes : List UInt8) : String :=
  let cs := bytes.map fun b => Char.ofNat b.toNat
  let quote := quoteFor cs
  let body := cs.flatMap fun c => if c.toNat < 0x80 then showChar quote c else numericEscape c.toNat
  String.ofList ('b' :: quote :: body ++ [quote])

end ComponentAttrs.Text
