import Corpus.Text.Bytes

/-! Binary formats: how values are written as bytes, and read off the front of a run of bytes.  Numbers
have a fixed width, least significant byte first; lists and texts come after their length. -/

namespace Corpus

open Text

structure Codec (α : Type) where
  encode : α → List UInt8
  decode? : List UInt8 → Option (α × List UInt8)

namespace Codec

variable {α β : Type}

def encodeNat : (width : Nat) → Nat → List UInt8
  | 0, _ => []
  | width + 1, n => UInt8.ofNat n :: encodeNat width (n / 256)

def decodeNat? : (width : Nat) → List UInt8 → Option (Nat × List UInt8)
  | 0, bytes => some (0, bytes)
  | _ + 1, [] => none
  | width + 1, b :: bytes => do
    let (n, rest) ← decodeNat? width bytes
    return (b.toNat + 256 * n, rest)

def nat (width : Nat) : Codec Nat := ⟨encodeNat width, decodeNat? width⟩

def word : Codec Nat := nat 8

def map (f : α → β) (g : β → α) (c : Codec α) : Codec β :=
  ⟨fun b => c.encode (g b), fun bytes => (c.decode? bytes).map fun (a, rest) => (f a, rest)⟩

def int : Codec Int :=
  word.map (fun (n : Nat) => if n < UInt64.size / 2 then (n : Int) else n - UInt64.size)
    fun n => (n % UInt64.size).toNat

def text : Codec String where
  encode s := word.encode (utf8 s).length ++ utf8 s
  decode? bytes := do
    let (n, rest) ← word.decode? bytes
    if rest.length < n then none
    else (ofUtf8? (rest.take n)).map fun s => (s, rest.drop n)

def pair (c : Codec α) (d : Codec β) : Codec (α × β) where
  encode ab := c.encode ab.1 ++ d.encode ab.2
  decode? bytes := do
    let (a, rest) ← c.decode? bytes
    let (b, rest) ← d.decode? rest
    return ((a, b), rest)

def decodeMany? (c : Codec α) : (count : Nat) → List UInt8 → Option (List α × List UInt8)
  | 0, bytes => some ([], bytes)
  | count + 1, bytes => do
    let (a, rest) ← c.decode? bytes
    let (as, rest) ← decodeMany? c count rest
    return (a :: as, rest)

def list (c : Codec α) : Codec (List α) where
  encode as := word.encode as.length ++ as.flatMap c.encode
  decode? bytes := do
    let (count, rest) ← word.decode? bytes
    decodeMany? c count rest

def option (c : Codec α) : Codec (Option α) where
  encode
    | none => [0]
    | some a => 1 :: c.encode a
  decode?
    | 0 :: rest => some (none, rest)
    | 1 :: rest => (c.decode? rest).map fun (a, rest) => (some a, rest)
    | _ => none

/-- A number of four bytes tells which of two kinds of value follows. -/
def either (c : Codec α) (d : Codec β) : Codec (α ⊕ β) where
  encode
    | .inl a => encodeNat 4 0 ++ c.encode a
    | .inr b => encodeNat 4 1 ++ d.encode b
  decode? bytes := do
    let (tag, rest) ← decodeNat? 4 bytes
    if tag = 0 then (c.decode? rest).map fun (a, rest) => (.inl a, rest)
    else if tag = 1 then (d.decode? rest).map fun (b, rest) => (.inr b, rest)
    else none

end Codec

end Corpus
