import Corpus.Proofs.Queue.Settling
import Corpus.Proofs.Service.Records

/-! Runs of a service: requests in any order, and between them the work of the indexer in batches of
any size. -/

namespace Corpus

open Corpus.Action

def Request.reads : Request → Bool
  | .tableExists _ | .tables | .getSchema _ | .planTimes .. | .planIds .. | .count .. | .searchCount ..
  | .drillCount _ | .drillRanges _ | .drillCategories _ => true
  | _ => false

def Request.happenings (s : Service) : Request → List Happening
  | .put records =>
    match s.tablesOf records with
    | .ok ts => Service.putHappenings records ts s
    | .error _ => []
  | .clearIndex table =>
    match s.catalog.get? table with
    | some t => [.clear t.epoch]
    | none => []
  | _ => []

inductive Move
  | ask (r : Request)
  | work (limit shard : Nat)

namespace Move

def apply (s : Service) : Move → Service
  | .ask r => (r.run.perform s).2
  | .work limit shard => { s with indexer := s.indexer.step s.analyzers limit shard }

def happenings (s : Service) : Move → List Happening
  | .ask r => r.happenings s
  | .work limit shard =>
    ((s.indexer.queues.waiting.getD shard []).take limit).flatMap
      (·.happenings s.indexer.schemaOf)

end Move

namespace Service

def after (s : Service) (moves : List Move) : Service := moves.foldl Move.apply s

def history (s : Service) : List Move → List Happening
  | [] => []
  | m :: moves => m.happenings s ++ (m.apply s).history moves

theorem exists_after_eq_settle (s : Service) : ∃ batches : List (Nat × Nat),
    s.settle = s.after (batches.map fun batch => .work batch.1 batch.2) := by
  obtain ⟨batches, hb⟩ := s.indexer.exists_work_settle s.analyzers s.config.batchSize
  refine ⟨batches, ?_⟩
  rw [settle, hb, Indexer.work, after, List.foldl_map]
  clear hb
  induction batches generalizing s with
  | nil => rfl
  | cons batch rest ih => exact ih ((Move.work batch.1 batch.2).apply s)

variable {s : Service}

theorem steps_work (s : Service) (limit shard : Nat) :
    Steps s ((Move.work limit shard).happenings s) ((Move.work limit shard).apply s) := by
  rw [Move.happenings, Move.apply]
  -- a batch is as many single events, each in the state that the one before it left
  induction limit generalizing s with
  | zero =>
    rw [Indexer.step_zero]
    exact .nil s
  | succ limit ih =>
    cases hn : s.indexer.queues.waiting.getD shard [] with
    | nil =>
      rw [Indexer.step_of_nil hn]
      exact .nil s
    | cons v rest =>
      have hw := Queues.getElem?_waiting hn
      have hrest := ih { s with indexer := s.indexer.step s.analyzers 1 shard }
      simp only [Indexer.getD_waiting_step_one s.analyzers hw, Indexer.schemaOf_step_one hw]
        at hrest
      rw [Indexer.step_succ, List.take_succ_cons, List.flatMap_cons]
      exact .cons (.work hw) hrest

theorem steps_createTable (hs : s.Sound) (table : String) :
    Steps s [] ((createTable table).perform s).2 := by
  rw [perform_createTable hs.alive]
  split
  next store h => exact (Step.create h).steps
  next => exact .nil s

theorem steps_dropTable (hs : s.Sound) (table : String) :
    Steps s [] ((dropTable table).perform s).2 := by
  rw [perform_dropTable hs.alive]
  split
  next => exact .nil s
  next t ht =>
    split
    next store h => exact .cons (.drop ht h) Step.forget.steps
    next => exact .nil s

theorem steps_setSchema (hs : s.Sound) (table : String) (schema : Schema) :
    Steps s [] ((setSchema table schema).perform s).2 := by
  rw [perform_setSchema hs.alive]
  split
  next c h => exact .cons (.setSchema h) Step.forget.steps
  next => exact .nil s

theorem steps_clearIndex (hs : s.Sound) (table : String) :
    Steps s ((Request.clearIndex table).happenings s) ((clearIndex table).perform s).2 := by
  rw [perform_clearIndex hs.alive, Request.happenings]
  cases ht : s.catalog.get? table with
  | none => exact .nil s
  | some t =>
    simp only [Queues.sendAll_eq hs.indexer.closed]
    exact .cons (.clear ht) Step.forget.steps

def look (prepare : Service → Except Error (Option Prepared)) (start count : Nat) :
    Action (List Hit) := do
  ensureOpen
  let s ← get
  window (← prepare s) start count

theorem perform_look (hs : s.Sound) (prepare : Service → Except Error (Option Prepared))
    (start count : Nat) :
    (look prepare start count).perform s =
      match prepare s with
      | .error e => (.error e, s)
      | .ok none => (.ok [], s)
      | .ok (some p) => ((p.window start count s.cache).1,
          { s with cache := (p.window start count s.cache).2 }) := by
  simp only [look, perform_bind, perform_ensureOpen, hs.alive, Bool.false_eq_true, if_false,
    perform_get, perform_lift]
  cases prepare s with
  | error e => rfl
  | ok p =>
    cases p with
    | none => rfl
    | some p => simp [window, hs.alive]

theorem snd_perform_look (hs : s.Sound) (prepare : Service → Except Error (Option Prepared))
    (start count : Nat) :
    ∃ cache, ((look prepare start count).perform s).2 = { s with cache } := by
  rw [perform_look hs]
  split
  next => exact ⟨s.cache, rfl⟩
  next => exact ⟨s.cache, rfl⟩
  next p _ => exact ⟨(p.window start count s.cache).2, rfl⟩

theorem steps_look (hs : s.Sound) (prepare : Service → Except Error (Option Prepared))
    (start count : Nat) (hp : ∀ p, prepare s = .ok (some p) → p.scope = none →
      ∃ table query, Prepared.prepare s.catalog s.analyzers table query = .ok (some p)) :
    Steps s [] ((look prepare start count).perform s).2 := by
  rw [perform_look hs]
  cases h : prepare s with
  | error e => exact .nil s
  | ok p =>
    cases p with
    | none => exact .nil s
    | some p => exact (Step.look start count (hp p h)).steps

theorem prepare_of_drilldown {r : Drilldown} {c : Catalog} {analyzers : Analyzers} {byRange : Bool}
    {p : Prepared} (h : r.prepare c analyzers byRange = .ok (some p)) (hp : p.scope = none) :
    Prepared.prepare c analyzers r.table (r.query.getD "") = .ok (some p) := by
  obtain ⟨-, -, h⟩ := bind_eq_ok.1 h
  obtain ⟨q, hq, h⟩ := bind_eq_ok.1 h
  obtain ⟨q, rfl, rfl⟩ := Option.map_eq_some_iff.1 (Except.ok.inj h)
  rw [hq]
  rw [Prepared.restrict] at hp ⊢
  split
  next => rfl
  next hf => rw [if_neg hf] at hp; cases hp

theorem still_countMatches (p : Option Prepared) : Still (countMatches p) := by
  cases p with
  | none => exact .pure 0
  | some p => exact .lift p.count

theorem still_run {r : Request} (hr : r.reads) : Still r.run := by
  cases r with
  | createTable | dropTable | setSchema | put | deleteTimes | deleteIds | clearIndex | search
  | drillSearch => cases hr
  | tableExists table =>
    exact .map (still_ensureOpen.bind fun _ => Still.get.bind fun _ => .pure _) _
  | tables => exact .map (still_ensureOpen.bind fun _ => Still.get.bind fun _ => .pure _) _
  | getSchema table =>
    exact .map (still_ensureOpen.bind fun _ => Still.get.bind fun _ =>
      (Still.lift _).bind fun _ => .pure _) _
  | planTimes table hint columns lower upper offset limit =>
    exact .map (still_ensureOpen.bind fun _ => Still.get.bind fun _ =>
      (Still.lift _).bind fun _ => Still.get.bind fun _ => .lift _) _
  | planIds table hint columns ids =>
    exact .map (still_ensureOpen.bind fun _ => Still.get.bind fun _ =>
      (Still.lift _).bind fun _ => Still.get.bind fun _ => .lift _) _
  | count table lower upper =>
    exact .map (still_ensureOpen.bind fun _ => Still.get.bind fun _ =>
      (Still.lift _).bind fun _ => Still.get.bind fun _ => .lift _) _
  | searchCount table query =>
    exact .map (still_ensureOpen.bind fun _ => Still.get.bind fun _ =>
      (Still.lift _).bind fun p => still_countMatches p) _
  | drillCount r =>
    exact .map (still_ensureOpen.bind fun _ => Still.get.bind fun _ =>
      (Still.lift _).bind fun p => still_countMatches p) _
  | drillRanges r =>
    exact .map (still_ensureOpen.bind fun _ => Still.get.bind fun _ => .lift _) _
  | drillCategories r =>
    exact .map (still_ensureOpen.bind fun _ => Still.get.bind fun _ => .lift _) _

theorem steps_ask (hs : s.Sound) (r : Request) :
    Steps s (r.happenings s) (r.run.perform s).2 := by
  have still {a : Action Response} (ha : Still a) : Steps s [] (a.perform s).2 := by
    rw [ha s]
    exact .nil s
  cases r with
  | createTable table =>
    rw [Request.run, snd_perform_bind_pure]
    exact steps_createTable hs table
  | dropTable table =>
    rw [Request.run, snd_perform_bind_pure]
    exact steps_dropTable hs table
  | setSchema table schema =>
    rw [Request.run, snd_perform_bind_pure]
    exact steps_setSchema hs table schema
  | put records =>
    rw [Request.run, perform_map]
    exact steps_put hs records
  | deleteTimes table lower upper =>
    rw [Request.run, snd_perform_bind_pure]
    exact steps_deleteTimes hs table lower upper
  | deleteIds table ids =>
    rw [Request.run, snd_perform_bind_pure]
    exact steps_deleteIds hs table ids
  | clearIndex table =>
    rw [Request.run, snd_perform_bind_pure]
    exact steps_clearIndex hs table
  | search table query start limit =>
    rw [Request.run, perform_map]
    exact steps_look hs (fun s => Prepared.prepare s.catalog s.analyzers table query)
      start limit fun p h _ => ⟨table, query, h⟩
  | drillSearch r =>
    rw [Request.run, perform_map]
    exact steps_look hs (fun s => r.prepare s.catalog s.analyzers true) r.start r.count
      fun p h hp => ⟨r.table, r.query.getD "", prepare_of_drilldown h hp⟩
  | tableExists | tables | getSchema | planTimes | planIds | count | searchCount | drillCount
  | drillRanges | drillCategories => exact still (still_run rfl)

theorem steps_after (hs : s.Sound) (moves : List Move) : Steps s (s.history moves) (s.after moves) := by
  induction moves generalizing s with
  | nil => exact .nil s
  | cons m rest ih =>
    have hm : Steps s (m.happenings s) (m.apply s) := by
      cases m with
      | ask r => exact steps_ask hs r
      | work limit shard => exact steps_work s limit shard
    exact hm.trans (ih (hs.steps hm).1)

theorem Sound.start {config : Config} {windows : Bool} (h : Service.start config windows = .ok s) :
    s.Sound := by
  obtain ⟨-, -, h⟩ := bind_eq_ok.1 h
  cases h
  exact ⟨rfl, .new _⟩

end Service

end Corpus
