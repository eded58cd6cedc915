import Corpus.Config
import Corpus.Drilldown.Aggregate
import Corpus.Queue.Indexer
import Corpus.Store.Basic

/-! The service: a store of records, and an index over them that follows the store. -/

namespace Corpus

open Number

structure Service where
  config : Config
  analyzers : Analyzers
  indexer : Indexer
  store : Store
  cache : WindowCache
  /-- The number of identities that were chosen freely. -/
  identities : Nat
  destroyed : Bool

/-- What a service does on a request.  Changes made before an error stay. -/
abbrev Action := ExceptT Error (StateM Service)

namespace Service

def start (config : Config) (windows : Bool) : Except Error Service := do
  config.validate
  return {
    config
    analyzers := .withDefault config.defaultAnalyzer
    indexer := .new config.indexShards
    store := .new config.storePartitions windows
    cache := .new config.cacheSize
    identities := 0
    destroyed := false }

def catalog (s : Service) : Catalog := s.indexer.catalog

def settle (s : Service) : Service :=
  { s with indexer := s.indexer.settle s.analyzers s.config.batchSize }

def ensureOpen : Action Unit := do
  if (← get).destroyed then throw .closed

def setCatalog (c : Catalog) : Action Unit :=
  modify fun s => { s with indexer := { s.indexer with catalog := c } }

def setStore (store : Store) : Action Unit := modify fun s => { s with store }

def clearCache : Action Unit := modify fun s => { s with cache := s.cache.clear }

def sendAll (t : Table) (changes : List Change) : Action Unit := do
  let queues ← (← get).indexer.queues.sendAll t changes
  modify fun s => { s with indexer := { s.indexer with queues } }

def createTable (table : String) : Action Unit := do
  ensureOpen
  setStore (← (← get).store.create (tableName table))
  setCatalog ((← get).catalog.create table)

def dropTable (table : String) : Action Unit := do
  ensureOpen
  match (← get).catalog.get? table with
  | none => return
  | some t =>
    setStore (← (← get).store.drop t.name)
    setCatalog ((← get).catalog.remove t.epoch)
    clearCache

def setSchema (table : String) (schema : Schema) : Action Unit := do
  ensureOpen
  setCatalog (← (← get).catalog.setSchema table schema)
  clearCache

def getSchema (table : String) : Action Schema := do
  ensureOpen
  return (← (← get).catalog.require table).schema

def tableExists (table : String) : Action Bool := do
  ensureOpen
  return (← get).catalog.contains table

def tables : Action (List String) := do
  ensureOpen
  return (← get).catalog.names

def identify (t : Table) (r : Record) : Action Record := do
  match ← Identity.ofRecord t.schema r with
  | .given id => return { r with id, table := t.name }
  | .fresh =>
    let n := (← get).identities
    modify fun s => { s with identities := n + 1 }
    return { r with id := Digest.Uuid.numbered n, table := t.name }

/-- Stores the records of one table, and queues them for the index.  The answer has the identities by
the places of the records. -/
def putBatch (t : Table) (records : List (Record × Nat)) : Action (List (Nat × String)) := do
  Catalog.ensureLive t
  let identified ← records.mapM fun (r, place) => return (← identify t r, place)
  let stored := identified.map (·.1)
  setStore (← (← get).store.put t.name stored)
  sendAll t (stored.map .upsert)
  return identified.map fun (r, place) => (place, r.id)

/-- All tables have to be there before anything is stored.  The identities come in the order of the
records. -/
def put (records : List Record) : Action (List String) := do
  ensureOpen
  let tables ← ((records.map (tableName ·.table)).eraseDups.mapM (← get).catalog.require :
    Except Error (List Table))
  let batches ← tables.mapM fun t =>
    putBatch t (records.zipIdx.filter fun (r, _) => tableName r.table = t.name)
  return (Dict.ofList batches.flatten).values

def deleteTimes (table : String) (lower upper : Int) : Action Unit := do
  ensureOpen
  let t ← (← get).catalog.require table
  Catalog.ensureLive t
  let (ids, store) ← (← get).store.deleteTimes t.name lower upper
  setStore store
  sendAll t (ids.map .tombstone)

def deleteIds (table : String) (ids : List String) : Action Unit := do
  ensureOpen
  let t ← (← get).catalog.require table
  Catalog.ensureLive t
  let (ids, store) ← (← get).store.deleteIds t.name ids
  setStore store
  sendAll t (ids.map .tombstone)

def count (table : String) (lower upper : Int) : Action Nat := do
  ensureOpen
  let t ← (← get).catalog.require table
  (← get).store.count t.name lower upper

def planTimes (table : String) (hint : Nat) (columns : Option (List String)) (lower upper : Int)
    (offset : Nat) (limit : Option Nat) : Action (List RecordGroup) := do
  ensureOpen
  let t ← (← get).catalog.require table
  (← get).store.planTimes t.name hint columns lower upper offset limit

def planIds (table : String) (hint : Nat) (columns : Option (List String)) (ids : List String) :
    Action (List RecordGroup) := do
  ensureOpen
  let t ← (← get).catalog.require table
  (← get).store.planIds t.name hint columns ids

def read (g : RecordGroup) : Action (List Record) := do
  ensureOpen
  (← get).store.read g

def readAll (groups : List RecordGroup) : Action (List Record) := do
  return (← groups.mapM read).flatten

def window (p : Option Prepared) (start count : Nat) : Action (List Hit) := do
  match p with
  | none => return []
  | some p =>
    let (hits, cache) := p.window start count (← get).cache
    modify fun s => { s with cache }
    return ← hits

def countMatches (p : Option Prepared) : Action Nat := do
  match p with
  | none => return 0
  | some p => return ← p.count

def search (table query : String) (start count : Nat) : Action (List Hit) := do
  ensureOpen
  let s ← get
  window (← Prepared.prepare s.catalog s.analyzers table query) start count

def searchCount (table query : String) : Action Nat := do
  ensureOpen
  let s ← get
  countMatches (← Prepared.prepare s.catalog s.analyzers table query)

def drillSearch (r : Drilldown) : Action (List Hit) := do
  ensureOpen
  let s ← get
  window (← r.prepare s.catalog s.analyzers true) r.start r.count

def drillCount (r : Drilldown) : Action Nat := do
  ensureOpen
  let s ← get
  countMatches (← r.prepare s.catalog s.analyzers true)

def drillRanges (r : Drilldown) : Action (List (Bucket × Binary64)) := do
  ensureOpen
  let s ← get
  r.ranges s.catalog s.analyzers

def drillCategories (r : CategoryDrilldown) : Action CategoryLevel := do
  ensureOpen
  let s ← get
  r.run s.catalog s.analyzers

def clearIndex (table : String) : Action Unit := do
  ensureOpen
  match (← get).catalog.get? table with
  | none => return
  | some t =>
    sendAll t [.clear]
    clearCache

def wait : Action Unit := do
  ensureOpen
  modify settle

/-- Follows what is waiting, and ends the service.  Every request after it fails. -/
def destroy : Action Unit := do
  if (← get).destroyed then return
  modify fun s => { s with
    indexer := s.indexer.shutdown s.analyzers s.config.batchSize
    store := s.store.destroy
    cache := s.cache.clear
    destroyed := true }

structure Stats where
  tables : Nat
  documents : Nat
  shards : Nat
  enqueued : Nat
  processed : Nat
  failed : Nat
  pending : Nat
  cacheHits : Nat
  cacheMisses : Nat
  cacheSize : Nat
  cacheCapacity : Nat
  deriving DecidableEq

def stats : Action Stats := do
  ensureOpen
  let s ← get
  let q := s.indexer.queues
  return {
    tables := s.catalog.current.size
    documents := total (s.catalog.live.map (·.shards.docCount))
    shards := q.shards
    enqueued := q.enqueued
    processed := q.processed
    failed := q.failed
    pending := q.barrier.pending
    cacheHits := s.cache.hits
    cacheMisses := s.cache.misses
    cacheSize := s.cache.size
    cacheCapacity := s.cache.capacity }

end Service

end Corpus
