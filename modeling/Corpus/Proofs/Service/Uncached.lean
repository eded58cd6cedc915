import Corpus.Proofs.Service.Blind
import Corpus.Proofs.Service.Paging

/-! A service and the same one without a cache, side by side. -/

namespace Corpus

open Corpus.Action

namespace Prepared

theorem snd_window_new_zero (p : Prepared) (start count : Nat) :
    (p.window start count (.new 0)).2 = .new 0 := by
  rw [window]
  split
  next => rfl
  next =>
    have hget : (Cache.new 0 : WindowCache).get? (p.key start count) = (none, .new 0) := rfl
    rw [hget]
    dsimp only
    cases p.plan.window scorer p.shards start count <;> rfl

end Prepared

namespace Service

def uncached (s : Service) : Service := s.withCache 0 (.new 0)

theorem Blind.perform_uncached {α : Type} {a : Action α} (ha : Blind a) (s : Service) :
    a.perform s.uncached = ((a.perform s).1, (a.perform s).2.uncached) := by
  obtain ⟨f, hf, h⟩ := ha s
  rw [uncached, h]
  rcases hf with rfl | rfl <;> rfl

variable {s : Service}

theorem snd_look_uncached {prepare : Service → Except Error (Option Prepared)}
    (hp : prepare s.uncached = prepare s) (start count : Nat) :
    ((look prepare start count).perform s.uncached).2 =
      ((look prepare start count).perform s).2.uncached := by
  simp only [look, perform_bind, blind_ensureOpen.perform_uncached s, perform_ensureOpen]
  cases s.destroyed with
  | true => rfl
  | false =>
    simp only [perform_get, perform_lift, hp, Bool.false_eq_true, if_false]
    cases prepare s with
    | error e => rfl
    | ok p =>
      cases p with
      | none => rfl
      | some p =>
        have hw := p.snd_window_new_zero start count
        simp [window, uncached, withCache, hw]

theorem snd_run_uncached (r : Request) (s : Service) :
    (r.run.perform s.uncached).2 = (r.run.perform s).2.uncached := by
  cases hr : r.looks with
  | false => rw [(blind_run hr).perform_uncached]
  | true =>
    cases r with
    | search table query start limit =>
      rw [Request.run, perform_map, perform_map]
      exact snd_look_uncached rfl start limit
    | drillSearch d =>
      rw [Request.run, perform_map, perform_map]
      exact snd_look_uncached rfl d.start d.count
    | _ => cases hr

theorem fst_run_uncached (hs : s.Sound) (hc : s.Coherent) {r : Request}
    (hr : ∀ d, r ≠ .drillSearch d) : (r.run.perform s.uncached).1 = (r.run.perform s).1 := by
  cases hl : r.looks with
  | false => rw [(blind_run hl).perform_uncached]
  | true =>
    cases r with
    | search table query start limit =>
      have hs₀ : s.uncached.Sound := ⟨hs.alive, hs.indexer⟩
      have hc₀ : s.uncached.Coherent := .new _ _ _ 0
      rw [Request.run, perform_map, perform_map]
      refine congrArg (Except.map _) ?_
      exact (fst_search hs₀ hc₀ table query start limit).trans
        (fst_search hs hc table query start limit).symm
    | drillSearch d => exact absurd rfl (hr d)
    | _ => cases hl

theorem zeroSetting?_uncached (config : Config) :
    { config with cacheSize := 0 }.zeroSetting? = config.zeroSetting? := by
  simp [Config.zeroSetting?, Config.settings, Config.mayBeZero, List.findSome?]

theorem start_uncached {config : Config} {windows : Bool}
    (h : Service.start config windows = .ok s) :
    Service.start { config with cacheSize := 0 } windows = .ok s.uncached := by
  obtain ⟨u, hv, h⟩ := bind_eq_ok.1 h
  cases h
  rw [Service.start, Config.validate, zeroSetting?_uncached]
  rw [Config.validate] at hv
  rw [hv]
  rfl

def served (s : Service) (requests : List Request) : Service :=
  requests.foldl (fun s r => (r.run.perform s).2.settle) s

theorem steps_settle (hs : s.Sound) : ∃ g, Steps s g s.settle := by
  obtain ⟨batches, hb⟩ := s.exists_after_eq_settle
  rw [hb]
  exact ⟨_, steps_after hs _⟩

theorem served_uncached (hs : s.Sound) (hc : s.Coherent) (requests : List Request) :
    (s.served requests).Sound ∧ (s.served requests).Coherent ∧
      s.uncached.served requests = (s.served requests).uncached := by
  induction requests generalizing s with
  | nil => exact ⟨hs, hc, rfl⟩
  | cons r rest ih =>
    have hask := steps_ask hs r
    obtain ⟨g, hsettle⟩ := steps_settle (hs.steps hask).1
    have hsteps := hask.trans hsettle
    have hrest := ih (hs.steps hsteps).1 (hc.steps hs hsteps)
    rw [served, served, List.foldl_cons, List.foldl_cons, snd_run_uncached]
    exact hrest

/-- No size of the cache changes what a search finds. -/
theorem run_served_uncached {config : Config} {windows : Bool}
    (h : Service.start config windows = .ok s) :
    ∃ s₀, Service.start { config with cacheSize := 0 } windows = .ok s₀ ∧
      ∀ (requests : List Request) (r : Request), (∀ d, r ≠ .drillSearch d) →
        (r.run.perform (s.served requests)).1 = (r.run.perform (s₀.served requests)).1 := by
  refine ⟨s.uncached, start_uncached h, fun requests r hr => ?_⟩
  obtain ⟨hs, hc, he⟩ := served_uncached (.start h) (.start h) requests
  rw [he, fst_run_uncached hs hc hr]

def searchedOnce : List Request :=
  [.createTable "t",
    .put [⟨"1", "t", 0, .ofList [("x", .string "a")]⟩, ⟨"2", "t", 0, .ofList [("x", .string "a")]⟩],
    .search "t" "a" 0 1]

theorem run_served_uncached_searchedOnce : ∃ s s₀ : Service,
    Service.start { Config.standard with cacheSize := 1, defaultAnalyzer := "keyword" } true = .ok s ∧
    Service.start { Config.standard with cacheSize := 0, defaultAnalyzer := "keyword" } true = .ok s₀ ∧
    ((Request.search "t" "a" 0 1).run.perform (s.served searchedOnce)).2.cache.hits = 1 ∧
    ((Request.search "t" "a" 0 1).run.perform (s.served searchedOnce)).1 =
      ((Request.search "t" "a" 0 1).run.perform (s₀.served searchedOnce)).1 := by
  have hhits : (Service.start { Config.standard with
      cacheSize := 1, defaultAnalyzer := "keyword" } true).toOption.any fun s =>
        ((Request.search "t" "a" 0 1).run.perform (s.served searchedOnce)).2.cache.hits = 1 := by
    decide +kernel
  cases hs : Service.start { Config.standard with
      cacheSize := 1, defaultAnalyzer := "keyword" } true with
  | error e => rw [hs] at hhits; cases hhits
  | ok s =>
    rw [hs] at hhits
    obtain ⟨s₀, hs₀, hrun⟩ := run_served_uncached hs
    exact ⟨s, s₀, rfl, hs₀, of_decide_eq_true hhits,
      hrun searchedOnce (.search "t" "a" 0 1) fun _ => nofun⟩

end Service

end Corpus
