/-!
# UTF-8

One machine reads bytes and says, piece by piece, which character was read or that the longest
possible beginning of one was cut short. Strict and lenient decoding are two views of its pieces.
-/

namespace Casework.Text

abbrev Bytes := List UInt8

def encode (s : String) : Bytes := s.toList.flatMap String.utf8EncodeChar

namespace Utf8

/-- Where the reader stands: between characters, or owed `n` more bytes of which the next lies in
`lo .. hi`, with `acc` the bits read. -/
inductive State where
  | start
  | owed (n : Nat) (lo hi : UInt8) (acc : Nat)
  deriving DecidableEq, Repr

def first (b : UInt8) : List (Option Char) × State :=
  if b < 0x80 then ([some (Char.ofNat b.toNat)], .start)
  else if b < 0xC2 then ([none], .start)
  else if b < 0xE0 then ([], .owed 1 0x80 0xBF (b.toNat - 0xC0))
  else if b = 0xE0 then ([], .owed 2 0xA0 0xBF 0)
  else if b = 0xED then ([], .owed 2 0x80 0x9F 0xD)
  else if b < 0xF0 then ([], .owed 2 0x80 0xBF (b.toNat - 0xE0))
  else if b = 0xF0 then ([], .owed 3 0x90 0xBF 0)
  else if b < 0xF4 then ([], .owed 3 0x80 0xBF (b.toNat - 0xF0))
  else if b = 0xF4 then ([], .owed 3 0x80 0x8F 4)
  else ([none], .start)

def step (b : UInt8) : State → List (Option Char) × State
  | .start => first b
  | .owed n lo hi acc =>
    if lo ≤ b && b ≤ hi then
      let acc := acc * 64 + (b.toNat - 0x80)
      if n ≤ 1 then ([some (Char.ofNat acc)], .start) else ([], .owed (n - 1) 0x80 0xBF acc)
    else
      let (p, st) := first b
      (none :: p, st)

def pieces : State → Bytes → List (Option Char)
  | .start, [] => []
  | .owed .., [] => [none]
  | st, b :: bs => let (p, st) := step b st; p ++ pieces st bs

end Utf8

def decode? (b : Bytes) : Option String := ((Utf8.pieces .start b).mapM id).map .ofList

def decodeLossy (b : Bytes) : String := .ofList ((Utf8.pieces .start b).map (·.getD '\ufffd'))

/-! ## Octets

Texts in which every character stands for one byte. The shell and the small programs take texts apart
byte by byte, so theirs are of this kind; names of files are kept as proper text.
-/

def octets (b : Bytes) : String := .ofList (b.map fun x => Char.ofNat x.toNat)

def ofOctets (o : String) : Bytes := o.toList.map fun c => UInt8.ofNat c.toNat

def toOctets (s : String) : String := if s.toList.all (·.toNat < 128) then s else octets (encode s)

def strayChar (b : UInt8) : Char := if b < 128 then Char.ofNat b.toNat else Char.ofNat (0x10FF00 + b.toNat)

def charBytes (c : Char) : Bytes :=
  if 0x10FF80 ≤ c.toNat then [UInt8.ofNat (c.toNat - 0x10FF00)] else String.utf8EncodeChar c

/-- A name of which the bytes are given; one that is not well formed is made of stray characters. -/
def segmentName (b : Bytes) : List Char :=
  match decode? b with
  | some s => s.toList
  | none => b.map strayChar

def pathChars (segment : Bytes) : Bytes → List Char
  | [] => segmentName segment.reverse
  | b :: bs => if b = 47 then segmentName segment.reverse ++ '/' :: pathChars [] bs else pathChars (b :: segment) bs

def pathOf (o : String) : String := if o.toList.all (·.toNat < 128) then o else .ofList (pathChars [] (ofOctets o))

def ofPath (p : String) : String :=
  if p.toList.all (·.toNat < 128) then p else octets (p.toList.flatMap charBytes)

end Casework.Text
