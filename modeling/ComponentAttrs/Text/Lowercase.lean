import ComponentAttrs.Text.LetterRuns
import ComponentAttrs.Text.CaseClasses

/-!
Lowercase of a whole text. Letters are mapped one by one, with two exceptions of the standard: the
dotted capital I keeps its dot as a combining mark, and a capital sigma at the end of a word
becomes a final sigma.
-/
namespace ComponentAttrs.Text

/-- The code point of the lowercase form, if `n` is in the run. -/
def LetterRun.image? (r : LetterRun) (n : Nat) : Option Nat :=
  if r.first ≤ n ∧ n ≤ r.last ∧ (n - r.first) % r.step = 0 then some (r.image + (n - r.first))
  else none

def lowerCode (n : Nat) : Nat :=
  (lowercaseRuns.findSome? (·.image? n)).getD n

/-- Lowercase of a letter on its own. -/
def lowerLetter (c : Char) : List Char :=
  if c = 'İ' then ['i', '\u0307'] else [Char.ofNat (lowerCode c.toNat)]

def isCased (c : Char) : Bool :=
  casedRanges.any fun (first, last) => first ≤ c.toNat && c.toNat ≤ last

def isCaseIgnorable (c : Char) : Bool :=
  caseIgnorableRanges.any fun (first, last) => first ≤ c.toNat && c.toNat ≤ last

/-- Does a cased letter come first, once ignorable characters are passed over? -/
def startsCased (cs : List Char) : Bool :=
  match cs.dropWhile isCaseIgnorable with
  | [] => false
  | c :: _ => isCased c

/-- A sigma ends a word if a cased letter comes before it and none after. `before` is read backwards
from the sigma. -/
def lowerSigma (before after : List Char) : Char :=
  if startsCased before && !startsCased after then 'ς' else 'σ'

def lowerAfter (before : List Char) : List Char → List Char
  | [] => []
  | c :: rest =>
    (if c = 'Σ' then [lowerSigma before rest] else lowerLetter c) ++ lowerAfter (c :: before) rest

def lowercase (cs : List Char) : List Char := lowerAfter [] cs

end ComponentAttrs.Text
