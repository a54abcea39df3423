import ComponentAttrs.Yaml.Failure
import ComponentAttrs.Files.Text

/-!
The text of a document as far as it can be read. It is taken in portions, each as a whole or not at
all: a character that no document may hold, or bytes that are no text, stop the reading in front of
the portion they are in, and count only if the reading gets there.
-/
namespace ComponentAttrs.Yaml

structure Source where
  text : List Char
  /-- What stops the reading behind the text, if that is not all there is. -/
  stop : Option Failure

/-- Where the portion with the character of this number starts; the first is twice as large. -/
def portionStart (n : Nat) : Nat :=
  if n < 2 * Files.portionSize then 0 else n / Files.portionSize * Files.portionSize

/-- Characters that a document may hold. -/
def isAllowed (c : Char) : Bool :=
  let n := c.toNat
  n = 0x09 || n = 0x0A || n = 0x0D || (0x20 ≤ n && n ≤ 0x7E) || n = 0x85
    || (0xA0 ≤ n && n ≤ 0xD7FF) || (0xE000 ≤ n && n ≤ 0xFFFD) || 0x10000 ≤ n

namespace Source

def upTo (s : Source) (n : Nat) (stop : Failure) : Source :=
  ⟨s.text.take (portionStart n), some stop⟩

def ofDecoded (d : Files.Decoded) : Source :=
  let all : Source := ⟨d.text, none⟩
  let decoded := if d.complete then all else all.upTo d.text.length .undecodable
  match decoded.text.findIdx? (!isAllowed ·) with
  | some n => decoded.upTo n (.malformed .unprintable)
  | none => decoded

def ofBytes (bytes : ByteArray) : Source := ofDecoded (Files.decode bytes)

end Source

end ComponentAttrs.Yaml
