import Corpus.Data.Codec
import Corpus.Error

/-! Record groups: which records of which partitions are to be read, as a value that can be sent
elsewhere. -/

namespace Corpus

inductive Selection
  /-- The records with `lower ≤ time < upper`, from `offset` on, at most `count`. -/
  | times (lower upper : Int) (offset : Nat) (count : Option Nat)
  | ids (list : List String)
  deriving DecidableEq

structure RecordGroup where
  table : String
  partitions : List Nat
  columns : Option (List String)
  selection : Selection
  deriving DecidableEq

namespace Selection

def toSum : Selection → (Int × Int × Nat × Option Nat) ⊕ List String
  | .times lower upper offset count => .inl (lower, upper, offset, count)
  | .ids list => .inr list

def ofSum : (Int × Int × Nat × Option Nat) ⊕ List String → Selection
  | .inl (lower, upper, offset, count) => .times lower upper offset count
  | .inr list => .ids list

def codec : Codec Selection :=
  (Codec.either (.pair .int (.pair .int (.pair .word (.option .word)))) (.list .text)).map ofSum toSum

end Selection

namespace RecordGroup

def codec : Codec RecordGroup :=
  (Codec.pair .text (.pair (.list .word) (.pair (.option (.list .text)) Selection.codec))).map
    (fun (table, partitions, columns, selection) => ⟨table, partitions, columns, selection⟩)
    fun g => (g.table, g.partitions, g.columns, g.selection)

def toBytes (g : RecordGroup) : List UInt8 := codec.encode g

/-- What follows a group's bytes is passed over. -/
def ofBytes (bytes : List UInt8) : Except Error RecordGroup :=
  match codec.decode? bytes with
  | some (g, _) => .ok g
  | none => .error .badGroup

end RecordGroup

end Corpus
