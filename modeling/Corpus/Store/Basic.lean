import Corpus.Data.Total
import Corpus.Identity
import Corpus.Store.Group
import Corpus.Store.Partition

/-! The store of records: for each table, its records in partitions by identity. -/

namespace Corpus

/-- Without `windows` the store does not limit its answers to a part of the records in range. -/
structure Store where
  partitions : Nat
  windows : Bool
  closed : Bool
  tables : Dict String (List Partition)

namespace Store

def new (partitions : Nat) (windows : Bool) : Store := ⟨max partitions 1, windows, false, .empty⟩

def partitionOf (s : Store) (id : String) : Nat := Corpus.partitionOf id s.partitions

def notAfter (a b : Record) : Bool :=
  a.timestamp < b.timestamp || a.timestamp = b.timestamp && a.id ≤ b.id

def table (s : Store) (name : String) : Except Error (List Partition) :=
  if s.closed then .error .closed
  else match s.tables.get? name with
    | some partitions => .ok partitions
    | none => .error (.noTable name)

def create (s : Store) (name : String) : Except Error Store :=
  if s.closed then .error .closed
  else if s.tables.contains name then .ok s
  else .ok { s with tables := s.tables.insert name (List.replicate s.partitions .empty) }

def drop (s : Store) (name : String) : Except Error Store :=
  if s.closed then .error .closed else .ok { s with tables := s.tables.erase name }

def putRecord (s : Store) (partitions : List Partition) (r : Record) : List Partition :=
  partitions.modify (s.partitionOf r.id) (·.insert r)

def put (s : Store) (name : String) (records : List Record) : Except Error Store := do
  let partitions ← s.table name
  return { s with tables := s.tables.insert name (records.foldl s.putRecord partitions) }

def holds (s : Store) (partitions : List Partition) (id : String) : Bool :=
  (partitions[s.partitionOf id]?).any fun p => (p.get? id).isSome

def eraseId (s : Store) (partitions : List Partition) (id : String) : List Partition :=
  partitions.modify (s.partitionOf id) (·.erase id)

def eraseIds (s : Store) : List Partition → List String → List String × List Partition
  | partitions, [] => ([], partitions)
  | partitions, id :: ids =>
    let (deleted, rest) := s.eraseIds (s.eraseId partitions id) ids
    (if s.holds partitions id then id :: deleted else deleted, rest)

def deleteIds (s : Store) (name : String) (ids : List String) :
    Except Error (List String × Store) := do
  let (deleted, partitions) := s.eraseIds (← s.table name) ids
  return (deleted, { s with tables := s.tables.insert name partitions })

def deleteTimes (s : Store) (name : String) (lower upper : Int) :
    Except Error (List String × Store) := do
  let partitions ← s.table name
  let deleted := (partitions.flatMap (·.moments lower upper)).map (·.id)
  let kept := partitions.map fun p =>
    (p.moments lower upper).foldl (fun p m => p.erase m.id) p
  return (deleted, { s with tables := s.tables.insert name kept })

def count (s : Store) (name : String) (lower upper : Int) : Except Error Nat := do
  let partitions ← s.table name
  return total (partitions.map fun p => (p.moments lower upper).length)

def split (s : Store) (hint : Nat) : List (List Nat) :=
  let groups := max 1 (min hint s.partitions)
  (List.range groups).map fun g => (List.range s.partitions).filter (· % groups = g)

/-- A part of all records in range needs the order of all of them, and so one group. -/
def planTimes (s : Store) (name : String) (hint : Nat) (columns : Option (List String))
    (lower upper : Int) (offset : Nat) (count : Option Nat) : Except Error (List RecordGroup) := do
  let _ ← s.table name
  if s.windows && (0 < offset || count.isSome) then
    return [⟨name, List.range s.partitions, columns, .times lower upper offset count⟩]
  else
    return (s.split hint).map fun partitions =>
      ⟨name, partitions, columns, .times lower upper 0 none⟩

def planIds (s : Store) (name : String) (hint : Nat) (columns : Option (List String))
    (ids : List String) : Except Error (List RecordGroup) := do
  let _ ← s.table name
  return (s.split hint).filterMap fun partitions =>
    match ids.eraseDups.filter fun id => partitions.contains (s.partitionOf id) with
    | [] => none
    | owned => some ⟨name, partitions, columns, .ids owned⟩

def load (selection : Selection) (p : Partition) : List Record :=
  match selection with
  | .times lower upper _ _ => p.inRange lower upper
  | .ids ids => ids.filterMap p.get?

def read (s : Store) (g : RecordGroup) : Except Error (List Record) := do
  let partitions ← s.table g.table
  let records := g.partitions.flatMap fun i => ((partitions[i]?).map (load g.selection)).getD []
  let records := match g.selection with
    | .times _ _ offset count =>
      if 0 < offset || count.isSome then
        let rest := (records.mergeSort notAfter).drop offset
        (count.map rest.take).getD rest
      else records
    | .ids _ => records
  return records.map (·.project g.columns)

def destroy (s : Store) : Store := { s with closed := true, tables := .empty }

end Store

end Corpus
