/-! The secure hash SHA-1. -/

namespace Corpus.Digest

namespace Sha1

def bigEndian (width n : Nat) : List UInt8 :=
  (List.range width).reverse.map fun i => UInt8.ofNat (n >>> (8 * i))

def padded (bytes : List UInt8) : List UInt8 :=
  bytes ++ 0x80 :: List.replicate ((119 - bytes.length % 64) % 64) 0 ++
    bigEndian 8 (8 * bytes.length)

def words : List UInt8 → List UInt32
  | a :: b :: c :: d :: rest =>
    (a.toUInt32 <<< 24 ||| b.toUInt32 <<< 16 ||| c.toUInt32 <<< 8 ||| d.toUInt32) :: words rest
  | _ => []

def blocks : (count : Nat) → List UInt32 → List (List UInt32)
  | 0, _ => []
  | count + 1, ws => ws.take 16 :: blocks count (ws.drop 16)

def rotate (n : UInt32) (w : UInt32) : UInt32 := (w <<< n) ||| (w >>> (32 - n))

/-- The next `count` words of a schedule; `recent` holds the last sixteen, the newest first. -/
def extend : (count : Nat) → (recent : List UInt32) → List UInt32
  | 0, _ => []
  | count + 1, recent =>
    let at' (i : Nat) := recent.getD i 0
    let w := rotate 1 (at' 2 ^^^ at' 7 ^^^ at' 13 ^^^ at' 15)
    w :: extend count (w :: recent.take 15)

def schedule (block : List UInt32) : List UInt32 := block ++ extend 64 block.reverse

structure State where
  a : UInt32
  b : UInt32
  c : UInt32
  d : UInt32
  e : UInt32

def start : State := ⟨0x67452301, 0xEFCDAB89, 0x98BADCFE, 0x10325476, 0xC3D2E1F0⟩

def State.mix (s : State) (round : Nat) : UInt32 :=
  if round < 20 then ((s.b &&& s.c) ||| (~~~ s.b &&& s.d)) + 0x5A827999
  else if round < 40 then (s.b ^^^ s.c ^^^ s.d) + 0x6ED9EBA1
  else if round < 60 then ((s.b &&& s.c) ||| (s.b &&& s.d) ||| (s.c &&& s.d)) + 0x8F1BBCDC
  else (s.b ^^^ s.c ^^^ s.d) + 0xCA62C1D6

def State.turn (s : State) (word : UInt32 × Nat) : State :=
  ⟨rotate 5 s.a + s.mix word.2 + s.e + word.1, s.a, rotate 30 s.b, s.c, s.d⟩

def State.feed (s : State) (block : List UInt32) : State :=
  let t := (schedule block).zipIdx.foldl State.turn s
  ⟨s.a + t.a, s.b + t.b, s.c + t.c, s.d + t.d, s.e + t.e⟩

end Sha1

def sha1 (bytes : List UInt8) : List UInt8 :=
  let padded := Sha1.padded bytes
  let s := (Sha1.blocks (padded.length / 64) (Sha1.words padded)).foldl Sha1.State.feed Sha1.start
  [s.a, s.b, s.c, s.d, s.e].flatMap fun w => Sha1.bigEndian 4 w.toNat

end Corpus.Digest
