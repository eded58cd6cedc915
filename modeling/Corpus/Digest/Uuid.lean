import Corpus.Digest.Sha1
import Corpus.Text.Bytes

/-! Universally unique identifiers: derived from names, or chosen freely. -/

namespace Corpus.Digest

open Text

namespace Uuid

/-- The name space of object identifiers, `6ba7b812-9dad-11d1-80b4-00c04fd430c8`. -/
def objects : List UInt8 :=
  [0x6B, 0xA7, 0xB8, 0x12, 0x9D, 0xAD, 0x11, 0xD1, 0x80, 0xB4, 0x00, 0xC0, 0x4F, 0xD4, 0x30, 0xC8]

def markedByte (version b : UInt8) (i : Nat) : UInt8 :=
  if i = 6 then (b &&& (0x0F : UInt8)) ||| (version <<< (4 : UInt8))
  else if i = 8 then (b &&& (0x3F : UInt8)) ||| (0x80 : UInt8)
  else b

def marked (version : UInt8) (bytes : List UInt8) : List UInt8 :=
  (bytes.take 16).mapIdx fun i b => markedByte version b i

def written (bytes : List UInt8) : String :=
  let part (start count : Nat) := hex ((bytes.drop start).take count)
  "-".intercalate [part 0 4, part 4 2, part 6 2, part 8 2, part 10 6]

def ofName (space name : List UInt8) : String := written (marked 5 (sha1 (space ++ name)))

/-- The identifier with the number `n` of those that are chosen freely. -/
def numbered (n : Nat) : String := written (marked 4 (Sha1.bigEndian 16 n))

end Uuid

end Corpus.Digest
