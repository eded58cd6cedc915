import Corpus.Proofs.Service.Step

/-! Putting records, batch by batch and also where a later batch fails, and deleting them. -/

namespace Corpus.Service

open Corpus.Action

section

variable {α β : Type}

def OnlyNames (a : Action α) : Prop := ∀ s, ∃ n, (a.perform s).2 = { s with identities := n }

theorem OnlyNames.bind {a : Action α} {f : α → Action β} (ha : OnlyNames a)
    (hf : ∀ x, OnlyNames (f x)) : OnlyNames (a >>= f) := by
  intro s
  obtain ⟨n, hn⟩ := ha s
  rw [perform_bind]
  generalize a.perform s = p at hn
  obtain ⟨answer, s'⟩ := p
  cases hn
  cases answer with
  | error e => exact ⟨n, rfl⟩
  | ok x =>
    obtain ⟨m, hm⟩ := hf x { s with identities := n }
    exact ⟨m, hm⟩

theorem OnlyNames.mapM {f : α → Action β} (hf : ∀ x, OnlyNames (f x)) (l : List α) :
    OnlyNames (l.mapM f) := by
  induction l with
  | nil => exact fun s => ⟨s.identities, rfl⟩
  | cons x rest ih =>
    rw [List.mapM_cons]
    exact (hf x).bind fun _ => ih.bind fun _ s => ⟨s.identities, rfl⟩

end

section

variable {t : Table} {r : Record}

theorem perform_identify_error {e : Error} (h : Identity.ofRecord t.schema r = .error e)
    (s : Service) : (identify t r).perform s = (.error e, s) := by
  simp [identify, h]

theorem perform_identify_given {id : String} (h : Identity.ofRecord t.schema r = .ok (.given id))
    (s : Service) : (identify t r).perform s = (.ok { r with id, table := t.name }, s) := by
  simp [identify, h]

theorem perform_identify_fresh (h : Identity.ofRecord t.schema r = .ok .fresh) (s : Service) :
    (identify t r).perform s =
      (.ok { r with id := Digest.Uuid.numbered s.identities, table := t.name },
        { s with identities := s.identities + 1 }) := by
  simp [identify, h, Except.map]

end

theorem onlyNames_identify (t : Table) (r : Record) : OnlyNames (identify t r) := by
  intro s
  cases h : Identity.ofRecord t.schema r with
  | error e => exact ⟨s.identities, by rw [perform_identify_error h]⟩
  | ok identity =>
    cases identity with
    | given id => exact ⟨s.identities, by rw [perform_identify_given h]⟩
    | fresh => exact ⟨s.identities + 1, by rw [perform_identify_fresh h]⟩

def identifyAll (t : Table) (records : List (Record × Nat)) : Action (List (Record × Nat)) :=
  records.mapM fun (r, place) => return (← identify t r, place)

theorem perform_identifyAll_cons (t : Table) (r : Record) (place : Nat) (rest : List (Record × Nat))
    (s : Service) :
    (identifyAll t ((r, place) :: rest)).perform s = match (identify t r).perform s with
      | (.error e, s) => (.error e, s)
      | (.ok r, s) => (((identifyAll t rest).perform s).1.map ((r, place) :: ·),
        ((identifyAll t rest).perform s).2) := by
  rw [identifyAll, List.mapM_cons]
  simp only [bind_pure_comp, perform_bind, perform_map]
  generalize (identify t r).perform s = p
  obtain ⟨answer, s'⟩ := p
  cases answer with
  | error e => rfl
  | ok r' => rfl

theorem onlyNames_identifyAll (t : Table) (records : List (Record × Nat)) :
    OnlyNames (identifyAll t records) := by
  refine OnlyNames.mapM (fun a => ?_) records
  obtain ⟨r, place⟩ := a
  exact (onlyNames_identify t r).bind fun _ s => ⟨s.identities, rfl⟩

theorem putBatch_eq (t : Table) (records : List (Record × Nat)) :
    putBatch t records = do
      Catalog.ensureLive t
      let named ← identifyAll t records
      setStore (← (← get).store.put t.name (named.map (·.1)))
      sendAll t ((named.map (·.1)).map .upsert)
      return named.map fun (r, place) => (place, r.id) :=
  rfl

variable {s : Service} {table : String} {t : Table}

theorem Sound.ensureLive (hs : s.Sound) (ht : s.catalog.get? table = some t) :
    Catalog.ensureLive t = .ok () := by
  rw [Catalog.ensureLive, (hs.indexer.catalog.get? ht).2.2.2]
  rfl

theorem perform_putBatch (hs : s.Sound) (ht : s.catalog.get? table = some t)
    (records : List (Record × Nat)) :
    (putBatch t records).perform s =
      match (identifyAll t records).perform s with
      | (.error e, s) => (.error e, s)
      | (.ok named, s) =>
        match s.store.put t.name (named.map (·.1)) with
        | .error e => (.error e, s)
        | .ok store => (.ok (named.map fun (r, place) => (place, r.id)), { s with
          store
          indexer := { s.indexer with
            queues := s.indexer.queues.acceptAll t ((named.map (·.1)).map .upsert) } }) := by
  obtain ⟨n, hn⟩ := onlyNames_identifyAll t records s
  rw [putBatch_eq]
  simp only [perform_bind, hs.ensureLive ht, perform_lift]
  generalize (identifyAll t records).perform s = p at hn
  obtain ⟨answer, s'⟩ := p
  cases hn
  cases answer with
  | error e => rfl
  | ok named =>
    simp only [perform_get]
    cases hp : s.store.put t.name (named.map (·.1)) with
    | error e => rfl
    | ok store =>
      simp only [perform_setStore, perform_sendAll, Queues.sendAll_eq hs.indexer.closed]
      rfl

def batchHappenings (t : Table) (records : List (Record × Nat)) (s : Service) : List Happening :=
  match (identifyAll t records).perform s, (putBatch t records).perform s with
  | (.ok named, _), (.ok _, _) => (named.map (·.1)).map (.put t.epoch)
  | _, _ => []

theorem steps_putBatch (hs : s.Sound) (ht : s.catalog.get? table = some t)
    (records : List (Record × Nat)) :
    Steps s (batchHappenings t records s) ((putBatch t records).perform s).2 ∧
      ((putBatch t records).perform s).2.catalog = s.catalog := by
  obtain ⟨n, hn⟩ := onlyNames_identifyAll t records s
  have hstep : Step s [] { s with identities := n } := .name n
  rw [batchHappenings, perform_putBatch hs ht]
  generalize (identifyAll t records).perform s = p at hn
  obtain ⟨answer, s'⟩ := p
  cases hn
  cases answer with
  | error e => exact ⟨hstep.steps, rfl⟩
  | ok named =>
    cases hp : s.store.put t.name (named.map (·.1)) with
    | error e =>
      simp only [hp]
      exact ⟨hstep.steps, rfl⟩
    | ok store =>
      simp only [hp]
      exact ⟨.cons hstep (Step.put (s := { s with identities := n }) ht hp).steps, rfl⟩

def putHappenings (records : List Record) : List Table → Service → List Happening
  | [], _ => []
  | t :: ts, s =>
    let batch := records.zipIdx.filter fun (r, _) => tableName r.table = t.name
    batchHappenings t batch s ++
      match (putBatch t batch).perform s with
      | (.ok _, s) => putHappenings records ts s
      | (.error _, _) => []

def putTables (records : List Record) (tables : List Table) : Action (List (List (Nat × String))) :=
  tables.mapM fun t => putBatch t (records.zipIdx.filter fun (r, _) => tableName r.table = t.name)

theorem steps_putTables (records : List Record) {tables : List Table} (hs : s.Sound)
    (ht : ∀ t ∈ tables, ∃ name, s.catalog.get? name = some t) :
    Steps s (putHappenings records tables s) ((putTables records tables).perform s).2 := by
  induction tables generalizing s with
  | nil => exact .nil s
  | cons t rest ih =>
    obtain ⟨name, hname⟩ := ht t (.head _)
    rw [putTables, List.mapM_cons, perform_bind, putHappenings]
    obtain ⟨hsteps, hcat⟩ := steps_putBatch hs hname
      (records.zipIdx.filter fun (r, _) => tableName r.table = t.name)
    generalize (putBatch t _).perform s = p at hsteps hcat ⊢
    obtain ⟨answer, s'⟩ := p
    refine hsteps.trans ?_
    cases answer with
    | error e => exact .nil s'
    | ok ids =>
      dsimp only
      rw [bind_pure_comp, perform_map]
      refine ih (hs.steps hsteps).1 fun u hu => ?_
      rw [show s'.catalog = s.catalog from hcat]
      exact ht u (.tail _ hu)

def tablesOf (records : List Record) (s : Service) : Except Error (List Table) :=
  (records.map (tableName ·.table)).eraseDups.mapM s.catalog.require

theorem perform_put (hs : s.Sound) (records : List Record) :
    (put records).perform s = match tablesOf records s with
      | .error e => (.error e, s)
      | .ok tables => (((putTables records tables).perform s).1.map fun batches =>
        (Dict.ofList batches.flatten).values, ((putTables records tables).perform s).2) := by
  have hput : put records = do
      ensureOpen
      let tables ← (tablesOf records (← get) : Except Error (List Table))
      let batches ← putTables records tables
      return (Dict.ofList batches.flatten).values := rfl
  rw [hput]
  simp only [bind_pure_comp, perform_bind, perform_map, perform_ensureOpen, hs.alive,
    Bool.false_eq_true, if_false, perform_get, perform_lift]
  cases tablesOf records s <;> rfl

theorem steps_put (hs : s.Sound) (records : List Record) :
    Steps s (match tablesOf records s with
        | .ok tables => putHappenings records tables s
        | .error _ => [])
      ((put records).perform s).2 := by
  rw [perform_put hs]
  cases ht : tablesOf records s with
  | error e => exact .nil s
  | ok tables =>
    refine steps_putTables records hs fun t hmem => ?_
    obtain ⟨name, -, hname⟩ := exists_of_mem_mapM_eq_ok ht t hmem
    exact ⟨name, Catalog.get?_of_require hname⟩

def deleteBy (delete : Store → String → Except Error (List String × Store)) (table : String) :
    Action Unit := do
  ensureOpen
  let t ← (← get).catalog.require table
  Catalog.ensureLive t
  let (ids, store) ← delete (← get).store t.name
  setStore store
  sendAll t (ids.map .tombstone)

theorem perform_deleteBy (hs : s.Sound)
    (delete : Store → String → Except Error (List String × Store)) (table : String) :
    (deleteBy delete table).perform s =
      match s.catalog.get? table with
      | none => (.error (.noTable (tableName table)), s)
      | some t =>
        match delete s.store t.name with
        | .error e => (.error e, s)
        | .ok (deleted, store) => (.ok (), { s with
          store
          indexer := { s.indexer with
            queues := s.indexer.queues.acceptAll t (deleted.map .tombstone) } }) := by
  cases ht : s.catalog.get? table with
  | none => simp [deleteBy, hs.alive, Catalog.require, ht]
  | some t =>
    cases hd : delete s.store t.name <;>
      simp [deleteBy, hs.alive, Catalog.require, ht, hs.ensureLive ht, hd,
        Queues.sendAll_eq hs.indexer.closed]

theorem steps_deleteBy (hs : s.Sound)
    (delete : Store → String → Except Error (List String × Store))
    (hd : ∀ name p, delete s.store name = .ok p → (∃ ids, s.store.deleteIds name ids = .ok p) ∨
      ∃ lower upper, s.store.deleteTimes name lower upper = .ok p) (table : String) :
    Steps s [] ((deleteBy delete table).perform s).2 := by
  rw [perform_deleteBy hs]
  split
  next => exact .nil s
  next t ht =>
    split
    next => exact .nil s
    next deleted store h => exact (Step.delete ht (hd _ _ h)).steps

theorem steps_deleteIds (hs : s.Sound) (table : String) (ids : List String) :
    Steps s [] ((deleteIds table ids).perform s).2 :=
  steps_deleteBy hs (fun store name => store.deleteIds name ids)
    (fun _ _ h => .inl ⟨ids, h⟩) table

theorem steps_deleteTimes (hs : s.Sound) (table : String) (lower upper : Int) :
    Steps s [] ((deleteTimes table lower upper).perform s).2 :=
  steps_deleteBy hs (fun store name => store.deleteTimes name lower upper)
    (fun _ _ h => .inr ⟨lower, upper, h⟩) table

end Corpus.Service
