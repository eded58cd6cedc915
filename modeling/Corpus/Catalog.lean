import Corpus.Index.Shards
import Corpus.Schema

/-! The catalog of tables.  Every creation makes a new incarnation of a table, with an index and an
epoch of its own; dropped incarnations keep theirs for those that still hold them. -/

namespace Corpus

structure Table where
  name : String
  epoch : Nat
  dropped : Bool
  schema : Schema
  version : Nat
  shards : Shards

structure Catalog where
  shardCount : Nat
  nextEpoch : Nat
  /-- All incarnations by their epochs. -/
  tables : Dict Nat Table
  current : Dict String Nat

namespace Catalog

def new (shards : Nat) : Catalog := ⟨max shards 1, 1, .empty, .empty⟩

def contains (c : Catalog) (name : String) : Bool := c.current.contains (tableName name)

def get? (c : Catalog) (name : String) : Option Table :=
  (c.current.get? (tableName name)).bind c.tables.get?

def require (c : Catalog) (name : String) : Except Error Table :=
  match c.get? name with
  | some t => .ok t
  | none => .error (.noTable (tableName name))

def create (c : Catalog) (name : String) : Catalog :=
  if c.contains name then c
  else
    let t : Table :=
      ⟨tableName name, c.nextEpoch, false, .empty, 0, .new c.shardCount⟩
    { c with
      nextEpoch := c.nextEpoch + 1
      tables := c.tables.insert t.epoch t
      current := c.current.insert t.name t.epoch }

def alter (c : Catalog) (epoch : Nat) (f : Table → Table) : Catalog :=
  { c with tables := c.tables.alter epoch (·.map f) }

/-- Drops an incarnation; its name becomes free unless another one has it by now. -/
def remove (c : Catalog) (epoch : Nat) : Catalog :=
  match c.tables.get? epoch with
  | none => c
  | some t =>
    let c := c.alter epoch ({ · with dropped := true })
    if c.current.get? t.name = some epoch then { c with current := c.current.erase t.name } else c

def ensureLive (t : Table) : Except Error Unit :=
  if t.dropped then .error (.noTable t.name) else .ok ()

def setSchema (c : Catalog) (name : String) (s : Schema) : Except Error Catalog := do
  let t ← c.require name
  ensureLive t
  return c.alter t.epoch fun t => { t with schema := s, version := t.version + 1 }

def schemaOrEmpty (c : Catalog) (name : String) : Schema := ((c.get? name).map (·.schema)).getD .empty

def schemaOf (c : Catalog) (epoch : Nat) : Schema :=
  ((c.tables.get? epoch).map (·.schema)).getD .empty

def names (c : Catalog) : List String := c.current.keys

def live (c : Catalog) : List Table := c.current.values.filterMap c.tables.get?

end Catalog

end Corpus
