import Corpus.Proofs.Service.History

/-! Requests that take no notice of the cache: what they answer and do is the same whatever it holds, and
they leave it as it is or clear it. -/

namespace Corpus

namespace Service

open Corpus.Action

def withCache (s : Service) (size : Nat) (cache : WindowCache) : Service :=
  { s with config := { s.config with cacheSize := size }, cache }

variable {α β : Type}

def Blind (a : Action α) : Prop :=
  ∀ s, ∃ f : WindowCache → WindowCache, (f = id ∨ f = Cache.clear) ∧ ∀ size cache,
    a.perform (s.withCache size cache) = ((a.perform s).1, (a.perform s).2.withCache size (f cache))

namespace Blind

theorem pure (a : α) : Blind (Pure.pure a) := fun _ => ⟨id, .inl rfl, fun _ _ => rfl⟩

theorem throw (e : Error) : Blind (MonadExcept.throw e : Action α) :=
  fun _ => ⟨id, .inl rfl, fun _ _ => rfl⟩

theorem lift (x : Except Error α) : Blind (liftM x) := fun _ => ⟨id, .inl rfl, fun _ _ => rfl⟩

theorem change {f : Service → Service}
    (hf : ∀ s size cache, f (s.withCache size cache) = (f s).withCache size cache) :
    Blind (modify f) := fun s => ⟨id, .inl rfl, fun size cache => by
  rw [perform_modify, perform_modify, hf]
  rfl⟩

theorem bind {a : Action α} {f : α → Action β} (ha : Blind a) (hf : ∀ x, Blind (f x)) :
    Blind (a >>= f) := by
  intro s
  obtain ⟨g, hg, ha⟩ := ha s
  simp only [perform_bind, ha]
  generalize a.perform s = p
  obtain ⟨answer, s'⟩ := p
  cases answer with
  | error e => exact ⟨g, hg, fun _ _ => rfl⟩
  | ok x =>
    obtain ⟨g', hg', hf⟩ := hf x s'
    refine ⟨g' ∘ g, ?_, fun size cache => hf size (g cache)⟩
    rcases hg with rfl | rfl <;> rcases hg' with rfl | rfl
    · exact .inl rfl
    · exact .inr rfl
    · exact .inr rfl
    · exact .inr rfl

theorem get {f : Service → Action β} (hf : ∀ s size cache, f (s.withCache size cache) = f s)
    (h : ∀ s, Blind (f s)) : Blind (MonadState.get >>= f) := by
  intro s
  obtain ⟨g, hg, h⟩ := h s s
  refine ⟨g, hg, fun size cache => ?_⟩
  simp only [perform_bind, perform_get, hf]
  exact h size cache

theorem map {a : Action α} (ha : Blind a) (f : α → β) : Blind (f <$> a) := by
  rw [← bind_pure_comp]
  exact ha.bind fun _ => .pure _

theorem mapM {f : α → Action β} (hf : ∀ x, Blind (f x)) (l : List α) : Blind (l.mapM f) := by
  induction l with
  | nil => exact .pure []
  | cons x rest ih =>
    rw [List.mapM_cons]
    exact (hf x).bind fun _ => ih.bind fun _ => .pure _

end Blind

theorem blind_ensureOpen : Blind ensureOpen := .get (fun _ _ _ => rfl) fun s => by
  split
  · exact .throw .closed
  · exact .pure ()

theorem blind_setCatalog (c : Catalog) : Blind (setCatalog c) := .change fun _ _ _ => rfl

theorem blind_setStore (store : Store) : Blind (setStore store) := .change fun _ _ _ => rfl

theorem blind_clearCache : Blind clearCache := fun _ => ⟨Cache.clear, .inr rfl, fun _ _ => rfl⟩

theorem blind_sendAll (t : Table) (changes : List Change) : Blind (sendAll t changes) :=
  .get (fun _ _ _ => rfl) fun s => (Blind.lift (s.indexer.queues.sendAll t changes)).bind fun _ =>
    .change fun _ _ _ => rfl

theorem blind_createTable (table : String) : Blind (createTable table) :=
  blind_ensureOpen.bind fun _ => .get (fun _ _ _ => rfl) fun _ => (Blind.lift _).bind fun _ =>
    (blind_setStore _).bind fun _ => .get (fun _ _ _ => rfl) fun _ => blind_setCatalog _

theorem blind_dropTable (table : String) : Blind (dropTable table) := by
  refine blind_ensureOpen.bind fun _ => .get (fun _ _ _ => rfl) fun s => ?_
  split
  · exact .pure ()
  · exact .get (fun _ _ _ => rfl) fun _ => (Blind.lift _).bind fun _ =>
      (blind_setStore _).bind fun _ => .get (fun _ _ _ => rfl) fun _ =>
        (blind_setCatalog _).bind fun _ => blind_clearCache

theorem blind_setSchema (table : String) (schema : Schema) : Blind (setSchema table schema) :=
  blind_ensureOpen.bind fun _ => .get (fun _ _ _ => rfl) fun _ => (Blind.lift _).bind fun _ =>
    (blind_setCatalog _).bind fun _ => blind_clearCache

theorem blind_clearIndex (table : String) : Blind (clearIndex table) := by
  refine blind_ensureOpen.bind fun _ => .get (fun _ _ _ => rfl) fun s => ?_
  split
  · exact .pure ()
  · exact (blind_sendAll _ _).bind fun _ => blind_clearCache

theorem blind_identify (t : Table) (r : Record) : Blind (identify t r) := by
  refine (Blind.lift _).bind fun identity => ?_
  cases identity with
  | given id => exact .pure _
  | fresh =>
    refine .get (fun _ _ _ => rfl) fun s => Blind.bind (.change ?_) fun _ => .pure _
    exact fun _ _ _ => rfl

theorem blind_putBatch (t : Table) (records : List (Record × Nat)) : Blind (putBatch t records) :=
  (Blind.lift _).bind fun _ =>
    (Blind.mapM (fun _ => (blind_identify t _).bind fun _ => .pure _) records).bind fun _ =>
      .get (fun _ _ _ => rfl) fun _ => (Blind.lift _).bind fun _ => (blind_setStore _).bind fun _ =>
        (blind_sendAll t _).bind fun _ => .pure _

theorem blind_put (records : List Record) : Blind (put records) :=
  blind_ensureOpen.bind fun _ => .get (fun _ _ _ => rfl) fun _ => (Blind.lift _).bind fun tables =>
    (Blind.mapM (fun t => blind_putBatch t _) tables).bind fun _ => .pure _

theorem blind_deleteBy (delete : Store → String → Except Error (List String × Store))
    (table : String) : Blind (deleteBy delete table) :=
  blind_ensureOpen.bind fun _ => .get (fun _ _ _ => rfl) fun _ => (Blind.lift _).bind fun t =>
    (Blind.lift _).bind fun _ => .get (fun _ _ _ => rfl) fun _ => (Blind.lift _).bind fun _ =>
      (blind_setStore _).bind fun _ => blind_sendAll t _

theorem blind_countMatches (p : Option Prepared) : Blind (countMatches p) := by
  cases p with
  | none => exact .pure 0
  | some p => exact .lift p.count

theorem blind_read {f : Service → Action α}
    (hf : ∀ s size cache, f (s.withCache size cache) = f s) (h : ∀ s, Blind (f s)) :
    Blind (ensureOpen >>= fun _ => MonadState.get >>= f) :=
  blind_ensureOpen.bind fun _ => .get hf h

end Service

def Request.looks : Request → Bool
  | .search .. | .drillSearch _ => true
  | _ => false

namespace Service

theorem blind_run {r : Request} (hr : r.looks = false) : Blind r.run := by
  cases r with
  | search => cases hr
  | drillSearch => cases hr
  | createTable table => exact (blind_createTable table).bind fun _ => .pure _
  | dropTable table => exact (blind_dropTable table).bind fun _ => .pure _
  | setSchema table schema => exact (blind_setSchema table schema).bind fun _ => .pure _
  | clearIndex table => exact (blind_clearIndex table).bind fun _ => .pure _
  | put records => exact .map (blind_put records) _
  | deleteTimes table lower upper =>
    exact (blind_deleteBy (fun store name => store.deleteTimes name lower upper) table).bind
      fun _ => .pure _
  | deleteIds table ids =>
    exact (blind_deleteBy (fun store name => store.deleteIds name ids) table).bind
      fun _ => .pure _
  | tableExists table => exact .map (blind_read (fun _ _ _ => rfl) fun _ => .pure _) _
  | tables => exact .map (blind_read (fun _ _ _ => rfl) fun _ => .pure _) _
  | getSchema table =>
    exact .map (blind_read (fun _ _ _ => rfl) fun _ => (Blind.lift _).bind fun _ => .pure _) _
  | planTimes table hint columns lower upper offset limit =>
    exact .map (blind_read (fun _ _ _ => rfl) fun _ => (Blind.lift _).bind fun _ =>
      .get (fun _ _ _ => rfl) fun _ => .lift _) _
  | planIds table hint columns ids =>
    exact .map (blind_read (fun _ _ _ => rfl) fun _ => (Blind.lift _).bind fun _ =>
      .get (fun _ _ _ => rfl) fun _ => .lift _) _
  | count table lower upper =>
    exact .map (blind_read (fun _ _ _ => rfl) fun _ => (Blind.lift _).bind fun _ =>
      .get (fun _ _ _ => rfl) fun _ => .lift _) _
  | searchCount table query =>
    exact .map (blind_read (fun _ _ _ => rfl) fun _ => (Blind.lift _).bind fun p =>
      blind_countMatches p) _
  | drillCount d =>
    exact .map (blind_read (fun _ _ _ => rfl) fun _ => (Blind.lift _).bind fun p =>
      blind_countMatches p) _
  | drillRanges d => exact .map (blind_read (fun _ _ _ => rfl) fun _ => .lift _) _
  | drillCategories d => exact .map (blind_read (fun _ _ _ => rfl) fun _ => .lift _) _

theorem cache_run {r : Request} (hr : r.looks = false) (s : Service) :
    (r.run.perform s).2.cache = s.cache ∨ (r.run.perform s).2.cache = s.cache.clear := by
  obtain ⟨f, hf, h⟩ := blind_run hr s
  have hs := h s.config.cacheSize s.cache
  rw [show s.withCache s.config.cacheSize s.cache = s from rfl] at hs
  rw [hs]
  rcases hf with rfl | rfl
  · exact .inl rfl
  · exact .inr rfl

end Service

end Corpus
