/-! The cyclic redundancy check of 32 bits. -/

namespace Corpus.Digest

namespace Crc32

def shift (crc : UInt32) : UInt32 :=
  if crc &&& 1 = 1 then (crc >>> 1) ^^^ 0xEDB88320 else crc >>> 1

def feed (crc : UInt32) (b : UInt8) : UInt32 :=
  (List.range 8).foldl (fun crc _ => shift crc) (crc ^^^ b.toUInt32)

end Crc32

def crc32 (bytes : List UInt8) : Nat := (~~~ (bytes.foldl Crc32.feed 0xFFFFFFFF)).toNat

end Corpus.Digest
