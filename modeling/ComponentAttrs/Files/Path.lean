import ComponentAttrs.Text.CodePoint

/-!
Paths as they are written: an optional root and the parts between slashes. Empty parts and single
dots say nothing and are left out; a pair of dots is kept.
-/
namespace ComponentAttrs.Files

/-- `slashes` is the number of slashes the root is written with: none, one, or exactly two. -/
structure Path where
  slashes : Nat
  parts : List String
deriving DecidableEq

namespace Path

def splitSlashes (cs : List Char) : List (List Char) :=
  cs.foldr (fun c parts =>
    match parts with
    | part :: rest => if c = '/' then [] :: part :: rest else (c :: part) :: rest
    | [] => []) [[]]

def rootSlashes : List Char → Nat
  | '/' :: '/' :: '/' :: _ => 1
  | '/' :: '/' :: _ => 2
  | '/' :: _ => 1
  | _ => 0

def ofString (s : String) : Path :=
  let cs := s.toList
  ⟨rootSlashes cs, ((splitSlashes cs).map String.ofList).filter fun p => p ≠ "" ∧ p ≠ "."⟩

def isAbsolute (p : Path) : Bool := p.slashes ≠ 0

def text (p : Path) : String :=
  let root := String.ofList (List.replicate p.slashes '/')
  if p.slashes = 0 ∧ p.parts = [] then "." else root ++ "/".intercalate p.parts

/-- A path read from another one's place; an absolute path stays itself. -/
def join (p q : Path) : Path :=
  if q.isAbsolute then q else ⟨p.slashes, p.parts ++ q.parts⟩

/-- The path of an absolute place. -/
def ofParts (parts : List String) : Path := ⟨1, parts⟩

end Path

/-- The size of a name in bytes; a half that stands for a byte is one. -/
def nameSize (name : String) : Nat :=
  (Text.codes name).foldl
    (fun size n => size + if Text.isHalf n then 1 else (Char.ofNat n).utf8Size) 0

/-- Why a path cannot be followed, whatever files there are. -/
inductive PathFault where
  | tooLong
  /-- A null character ends the names of files. -/
  | nullCharacter
  /-- A half of a pair of units has no bytes, unless it stands for a byte itself. -/
  | withoutBytes
deriving DecidableEq

def nameFault? (name : String) : Option PathFault :=
  let codes := Text.codes name
  if codes.any fun n => Text.isHalf n && !(0xDC80 ≤ n && n < 0xDD00) then some .withoutBytes
  else if codes.contains 0 then some .nullCharacter
  else none

/-- The fault of the first name that has one. -/
def Path.fault? (p : Path) : Option PathFault := p.parts.findSome? nameFault?

end ComponentAttrs.Files
