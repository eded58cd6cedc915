import Corpus.Digest.Crc32
import Corpus.Digest.Uuid
import Corpus.Error
import Corpus.Record
import Corpus.Text.Bytes

/-! The identity of records, and where it puts them: a shard of the index, a partition of the store. -/

namespace Corpus

open Digest Text

def shardOf (table id : String) (shards : Nat) : Nat :=
  crc32 (utf8 table ++ 0 :: utf8 id) % max shards 1

def partitionOf (id : String) (partitions : Nat) : Nat := crc32 (utf8 id) % max partitions 1

inductive Identity
  | given (id : String)
  /-- To be chosen freely. -/
  | fresh
  deriving DecidableEq

namespace Identity

def keyText (r : Record) (keys : List String) : Except Error String := do
  let parts ← keys.mapM fun key =>
    match r.values.get? key with
    | none | some .null => .error (.missingKey key)
    | some value => .ok (key ++ "=" ++ value.text)
  return "\x1f".intercalate parts

/-- A record keeps the identity that it has.  Otherwise its primary keys give one, if its table has
any. -/
def ofRecord (s : Schema) (r : Record) : Except Error Identity :=
  if r.id ≠ "" then .ok (.given r.id)
  else if s.primaryKeys = [] then .ok .fresh
  else (keyText r s.primaryKeys).map fun text => .given (Uuid.ofName Uuid.objects (utf8 text))

end Identity

end Corpus
