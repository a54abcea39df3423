/-!
Bytes written with sixty-four letters: four letters for three bytes, equals signs where the last
three are not complete.
-/
namespace ComponentAttrs.Document.Base64

def alphabet : List Char :=
  "ABCDEFGHIJKLMNOPQRSTUVWXYZabcdefghijklmnopqrstuvwxyz0123456789+/".toList

def letter (n : Nat) : Char := alphabet.getD (n % 64) 'A'

/-- The letters for all bytes, `lineBytes` bytes to a line. -/
def encode : List UInt8 → List Char
  | [] => []
  | [a] =>
    let n := a.toNat * 65536
    [letter (n / 262144), letter (n / 4096), '=', '=']
  | [a, b] =>
    let n := a.toNat * 65536 + b.toNat * 256
    [letter (n / 262144), letter (n / 4096), letter (n / 64), '=']
  | a :: b :: c :: rest =>
    let n := a.toNat * 65536 + b.toNat * 256 + c.toNat
    letter (n / 262144) :: letter (n / 4096) :: letter (n / 64) :: letter n :: encode rest

def lineLength : Nat := 76

/-- Full lines and the rest, each with a newline; `fuel` bounds the number of lines. -/
def lines (cs : List Char) : Nat → List Char
  | 0 => []
  | fuel + 1 =>
    if cs.isEmpty then []
    else cs.take lineLength ++ '\n' :: lines (cs.drop lineLength) fuel

def encodeLines (bytes : List UInt8) : List Char :=
  let cs := encode bytes
  lines cs cs.length

/-- Letters passed over, letters of the current four, and signs at its end. -/
structure Decoding where
  bytes : List UInt8
  place : Nat
  carry : Nat
  signs : Nat

/-- Other characters are passed over. A sign ends the text once its four are complete; `none` if
they never are. -/
def decodeFrom (s : Decoding) : List Char → Option (List UInt8)
  | [] => if s.place = 0 then some s.bytes.reverse else none
  | c :: rest =>
    if c = '=' then
      if 2 ≤ s.place then
        if 4 ≤ s.place + s.signs + 1 then some s.bytes.reverse
        else decodeFrom { s with signs := s.signs + 1 } rest
      else decodeFrom s rest
    else
      match alphabet.idxOf? c with
      | none => decodeFrom s rest
      | some n =>
        if s.place = 0 then decodeFrom ⟨s.bytes, 1, n, 0⟩ rest
        else if s.place = 1 then
          decodeFrom ⟨(s.carry * 4 + n / 16).toUInt8 :: s.bytes, 2, n % 16, 0⟩ rest
        else if s.place = 2 then
          decodeFrom ⟨(s.carry * 16 + n / 4).toUInt8 :: s.bytes, 3, n % 4, 0⟩ rest
        else decodeFrom ⟨(s.carry * 64 + n).toUInt8 :: s.bytes, 0, 0, 0⟩ rest

def decode? (cs : List Char) : Option (List UInt8) := decodeFrom ⟨[], 0, 0, 0⟩ cs

end ComponentAttrs.Document.Base64
