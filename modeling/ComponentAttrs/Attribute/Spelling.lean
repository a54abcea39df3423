import ComponentAttrs.Text.Lowercase

/-!
The two spellings of a name: `my-prop` in templates and `myProp` in scripts.
-/
namespace ComponentAttrs.Attribute

def isSmallLetter (c : Char) : Bool := 'a' ≤ c && c ≤ 'z'

def isCapitalLetter (c : Char) : Bool := 'A' ≤ c && c ≤ 'Z'

/-- Only a hyphen in front of a small letter is folded; `item-2` stays as it is. -/
def camelChars : List Char → List Char
  | [] => []
  | [c] => [c]
  | c :: d :: rest =>
    if c = '-' && isSmallLetter d then d.toUpper :: camelChars rest else c :: camelChars (d :: rest)

/-- A hyphen in front of every capital letter that follows a letter or digit, `before`. -/
def hyphenate (before : Option Char) : List Char → List Char
  | [] => []
  | c :: rest =>
    if isCapitalLetter c && before.any Char.isAlphanum then '-' :: c :: hyphenate (some c) rest
    else c :: hyphenate (some c) rest

def kebabChars (cs : List Char) : List Char := Text.lowercase (hyphenate none cs)

def toCamel (name : String) : String := String.ofList (camelChars name.toList)

def toKebab (name : String) : String := String.ofList (kebabChars name.toList)

/-- All spellings under which a name may be declared or written. -/
def variants (name : String) : List String := [name, toCamel name, toKebab name]

end ComponentAttrs.Attribute
