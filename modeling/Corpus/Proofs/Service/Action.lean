import Corpus.Service.Request

/-! What the actions of a service that is not destroyed answer, and what they make of the service. -/

namespace Corpus

namespace Action

variable {α : Type} {β : Type}

def perform (a : Action α) (s : Service) : Except Error α × Service := a.run.run s

@[simp] theorem perform_pure (a : α) (s : Service) : perform (pure a) s = (.ok a, s) := rfl

@[simp] theorem perform_bind (a : Action α) (f : α → Action β) (s : Service) :
    perform (a >>= f) s = match a.perform s with
      | (.ok x, s) => (f x).perform s
      | (.error e, s) => (.error e, s) := by
  rw [perform, perform, ExceptT.run_bind, StateT.run_bind]
  show (match StateT.run a.run s with | (r, s) => _) = _
  rcases StateT.run a.run s with ⟨r, s'⟩
  cases r <;> rfl

@[simp] theorem perform_map (f : α → β) (a : Action α) (s : Service) :
    perform (f <$> a) s = ((a.perform s).1.map f, (a.perform s).2) := by
  rw [← bind_pure_comp, perform_bind]
  rcases a.perform s with ⟨r, s'⟩
  cases r <;> rfl

@[simp] theorem perform_throw (e : Error) (s : Service) :
    perform (throw e : Action α) s = (.error e, s) := rfl

@[simp] theorem perform_get (s : Service) : perform get s = (.ok s, s) := rfl

@[simp] theorem perform_modify (f : Service → Service) (s : Service) :
    perform (modify f) s = (.ok (), f s) := rfl

@[simp] theorem perform_lift (x : Except Error α) (s : Service) :
    perform (liftM x : Action α) s = (x, s) := rfl

theorem snd_perform_bind_pure (a : Action α) (f : α → β) (s : Service) :
    (perform (a >>= fun x => pure (f x)) s).2 = (a.perform s).2 := by
  rw [bind_pure_comp, perform_map]

def Still (a : Action α) : Prop := ∀ s, (a.perform s).2 = s

theorem Still.bind {a : Action α} {f : α → Action β} (ha : Still a) (hf : ∀ x, Still (f x)) :
    Still (a >>= f) := by
  intro s
  have hs := ha s
  rw [perform_bind]
  generalize a.perform s = p at hs
  obtain ⟨answer, s'⟩ := p
  cases hs
  cases answer with
  | error e => rfl
  | ok x => exact hf x _

theorem Still.map {a : Action α} (ha : Still a) (f : α → β) : Still (f <$> a) := fun s => by
  rw [perform_map]
  exact ha s

theorem Still.pure (a : α) : Still (Pure.pure a) := fun _ => rfl

theorem Still.get : Still (MonadState.get : Action Service) := fun _ => rfl

theorem Still.lift (x : Except Error α) : Still (liftM x) := fun _ => rfl

end Action

namespace Service

open Corpus.Action

theorem still_ensureOpen : Still ensureOpen := .bind .get fun s => by
  split
  · exact fun _ => rfl
  · exact fun _ => rfl

@[simp] theorem perform_ensureOpen (s : Service) :
    ensureOpen.perform s = (if s.destroyed then .error .closed else .ok (), s) := by
  rw [ensureOpen, perform_bind, perform_get]
  cases h : s.destroyed <;> simp [h]

@[simp] theorem perform_setCatalog (c : Catalog) (s : Service) :
    (setCatalog c).perform s = (.ok (), { s with indexer := { s.indexer with catalog := c } }) := rfl

@[simp] theorem perform_setStore (store : Store) (s : Service) :
    (setStore store).perform s = (.ok (), { s with store }) := rfl

@[simp] theorem perform_clearCache (s : Service) :
    clearCache.perform s = (.ok (), { s with cache := s.cache.clear }) := rfl

@[simp] theorem perform_sendAll (t : Table) (changes : List Change) (s : Service) :
    (sendAll t changes).perform s = match s.indexer.queues.sendAll t changes with
      | .ok queues => (.ok (), { s with indexer := { s.indexer with queues } })
      | .error e => (.error e, s) := by
  rw [sendAll, perform_bind, perform_get]
  cases h : s.indexer.queues.sendAll t changes <;> simp [h]

variable {s : Service}

theorem perform_createTable (h : s.destroyed = false) (table : String) :
    (createTable table).perform s = match s.store.create (tableName table) with
      | .ok store => (.ok (), { s with
        store, indexer := { s.indexer with catalog := s.catalog.create table } })
      | .error e => (.error e, s) := by
  cases hs : s.store.create (tableName table) <;> simp [createTable, h, hs, catalog]

theorem perform_dropTable (h : s.destroyed = false) (table : String) :
    (dropTable table).perform s = match s.catalog.get? table with
      | none => (.ok (), s)
      | some t => match s.store.drop t.name with
        | .ok store => (.ok (), { s with
          store, indexer := { s.indexer with catalog := s.catalog.remove t.epoch }
          cache := s.cache.clear })
        | .error e => (.error e, s) := by
  cases ht : s.catalog.get? table with
  | none => simp [dropTable, h, ht]
  | some t =>
    cases hs : s.store.drop t.name with
    | error e => simp [dropTable, h, ht, hs]
    | ok store =>
      simp [dropTable, h, ht, hs]
      rfl

theorem perform_setSchema (h : s.destroyed = false) (table : String) (schema : Schema) :
    (setSchema table schema).perform s = match s.catalog.setSchema table schema with
      | .ok c => (.ok (), { s with
        indexer := { s.indexer with catalog := c }, cache := s.cache.clear })
      | .error e => (.error e, s) := by
  cases hs : s.catalog.setSchema table schema <;> simp [setSchema, h, hs]

theorem perform_clearIndex (h : s.destroyed = false) (table : String) :
    (clearIndex table).perform s = match s.catalog.get? table with
      | none => (.ok (), s)
      | some t => match s.indexer.queues.sendAll t [.clear] with
        | .ok queues => (.ok (), { s with
          indexer := { s.indexer with queues }, cache := s.cache.clear })
        | .error e => (.error e, s) := by
  cases ht : s.catalog.get? table with
  | none => simp [clearIndex, h, ht]
  | some t => cases hs : s.indexer.queues.sendAll t [.clear] <;> simp [clearIndex, h, ht, hs]

end Service

end Corpus
