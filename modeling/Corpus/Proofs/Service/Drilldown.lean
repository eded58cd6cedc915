import Corpus.Proofs.Service.Uncached

/-! Windows of drill-downs, in runs where the scope of each one tells all of its filters. -/

namespace Corpus

open Corpus.Action Number

namespace Drilldown

theorem from_of_prepare {r : Drilldown} (hr : r.Told) {c : Catalog} {analyzers : Analyzers}
    {p : Prepared} (h : r.prepare c analyzers true = .ok (some p)) : p.From c analyzers := by
  obtain ⟨⟨⟩, hcheck, h⟩ := bind_eq_ok.1 h
  obtain ⟨q, hq, h⟩ := bind_eq_ok.1 h
  obtain ⟨q, rfl, rfl⟩ := Option.map_eq_some_iff.1 (Except.ok.inj h)
  rw [Prepared.restrict]
  split
  next => exact Prepared.from_of_prepare hq
  next =>
    obtain ⟨t, ht, hplan, he⟩ := Prepared.eq_of_prepare hq
    generalize q.plan = plan at hplan he ⊢
    subst he
    refine ⟨r.table, t, plan, ht, hplan, rfl, rfl, rfl, ?_⟩
    rw [Plan.within, filters_scope hr hcheck]

end Drilldown

/-- Moves that add no filter to a search that its scope does not tell. -/
def Move.Told : Move → Prop
  | .ask (.drillSearch r) => r.Told
  | _ => True

namespace Service

variable {s t : Service}

theorem analyzers_steps {g : List Happening} (h : Steps s g t) : t.analyzers = s.analyzers := by
  induction h with
  | nil => rfl
  | cons h _ ih =>
    rw [ih]
    cases h <;> rfl

def Accurate (s : Service) : Prop :=
  Prepared.CoherentOn (fun _ => True) s.catalog s.analyzers s.cache

theorem Accurate.start {config : Config} {windows : Bool}
    (h : Service.start config windows = .ok s) : s.Accurate := by
  obtain ⟨-, -, h⟩ := bind_eq_ok.1 h
  cases h
  exact .new _ _ _ config.cacheSize

theorem Accurate.steps (ha : s.Accurate) (hs : s.Sound) {g : List Happening} (h : Steps s g t)
    (hc : t.cache = s.cache ∨ t.cache = s.cache.clear) : t.Accurate := by
  have hl := (hs.steps h).2
  rw [Accurate, analyzers_steps h]
  rcases hc with hc | hc
  · rw [hc]
    exact Prepared.CoherentOn.later ha hl
  · rw [hc]
    exact .clear _ _ _ _

section Look

variable (prepare : Service → Except Error (Option Prepared))

theorem Accurate.fst_look (ha : s.Accurate) (hs : s.Sound)
    (hp : ∀ p, prepare s = .ok (some p) → p.From s.catalog s.analyzers) (start count : Nat) :
    ((look prepare start count).perform s).1 =
      match prepare s with
      | .error e => .error e
      | .ok none => .ok []
      | .ok (some p) => if count = 0 then .ok [] else p.plan.window scorer p.shards start count := by
  rw [perform_look hs]
  cases h : prepare s with
  | error e => rfl
  | ok p =>
    cases p with
    | none => rfl
    | some p =>
      exact Prepared.CoherentOn.fst_window ha hs.indexer.catalog (hp p h) trivial start count

theorem Accurate.snd_look (ha : s.Accurate) (hs : s.Sound)
    (hp : ∀ p, prepare s = .ok (some p) → p.From s.catalog s.analyzers) (start count : Nat) :
    ((look prepare start count).perform s).2.Accurate := by
  rw [perform_look hs]
  cases h : prepare s with
  | error e => exact ha
  | ok p =>
    cases p with
    | none => exact ha
    | some p =>
      exact Prepared.CoherentOn.snd_window ha hs.indexer.catalog (fun _ => hp p h) start count

end Look

theorem Accurate.ask (ha : s.Accurate) (hs : s.Sound) {r : Request} (hr : (Move.ask r).Told) :
    (r.run.perform s).2.Accurate := by
  cases hl : r.looks with
  | false => exact ha.steps hs (steps_ask hs r) (cache_run hl s)
  | true =>
    cases r with
    | search table query start limit =>
      rw [Request.run, perform_map]
      exact ha.snd_look (fun s => Prepared.prepare s.catalog s.analyzers table query) hs
        (fun _ => Prepared.from_of_prepare) start limit
    | drillSearch d =>
      rw [Request.run, perform_map]
      exact ha.snd_look (fun s => d.prepare s.catalog s.analyzers true) hs
        (fun _ => Drilldown.from_of_prepare hr) d.start d.count
    | _ => cases hl

theorem Accurate.after (ha : s.Accurate) (hs : s.Sound) {moves : List Move}
    (hm : ∀ m ∈ moves, m.Told) : (s.after moves).Accurate := by
  induction moves generalizing s with
  | nil => exact ha
  | cons m rest ih =>
    rw [List.forall_mem_cons] at hm
    cases m with
    | ask r => exact ih (ha.ask hs hm.1) (hs.steps (steps_ask hs r)).1 hm.2
    | work limit shard =>
      have hsteps := steps_work s limit shard
      exact ih (ha.steps hs hsteps (.inl rfl)) (hs.steps hsteps).1 hm.2

theorem Accurate.fst_drillSearch (ha : s.Accurate) (hs : s.Sound) {r : Drilldown} (hr : r.Told) :
    ((drillSearch r).perform s).1 =
      match r.prepare s.catalog s.analyzers true with
      | .error e => .error e
      | .ok none => .ok []
      | .ok (some p) =>
        if r.count = 0 then .ok [] else p.plan.window scorer p.shards r.start r.count :=
  ha.fst_look (fun s => r.prepare s.catalog s.analyzers true) hs
    (fun _ => Drilldown.from_of_prepare hr) r.start r.count

theorem Accurate.drillSearch (ha : s.Accurate) (hs : s.Sound) {r : Drilldown} (hr : r.Told) :
    ∃ cache, ((drillSearch r).perform s).2 = { s with cache } ∧ { s with cache }.Accurate := by
  have hlook := ha.snd_look (fun s => r.prepare s.catalog s.analyzers true) hs
    (fun _ => Drilldown.from_of_prepare hr) r.start r.count
  obtain ⟨cache, hcache⟩ :=
    snd_perform_look hs (fun s => r.prepare s.catalog s.analyzers true) r.start r.count
  exact ⟨cache, hcache, hcache ▸ hlook⟩

/-- A window of a drill-down is the same as without a cache. -/
theorem drillSearch_drillSearch {config : Config} {windows : Bool}
    (h : Service.start config windows = .ok s) {moves : List Move} (hm : ∀ m ∈ moves, m.Told)
    {a b : Drilldown} (ha : a.Told) (hb : b.Told) :
    ((drillSearch b).perform ((drillSearch a).perform (s.after moves)).2).1 =
        ((drillSearch b).perform (s.after moves)).1 ∧
      ((drillSearch b).perform (s.after moves)).1 =
        ((drillSearch b).perform (s.after moves).uncached).1 ∧
      ∀ p q, a.prepare (s.after moves).catalog (s.after moves).analyzers true = .ok (some p) →
        b.prepare (s.after moves).catalog (s.after moves).analyzers true = .ok (some q) →
        p.key a.start a.count = q.key b.start b.count →
        p.plan.window scorer p.shards a.start a.count =
          q.plan.window scorer q.shards b.start b.count := by
  have hs := (Sound.steps (.start h) (steps_after (.start h) moves)).1
  have hacc := (Accurate.start h).after (.start h) hm
  generalize s.after moves = s at hs hacc
  refine ⟨?_, ?_, fun p q hp hq hk => ?_⟩
  · obtain ⟨cache, hcache, hacc'⟩ := hacc.drillSearch hs ha
    rw [hcache, hacc'.fst_drillSearch ⟨hs.alive, hs.indexer⟩ hb, hacc.fst_drillSearch hs hb]
    rfl
  · have hacc₀ : s.uncached.Accurate := .new _ _ _ 0
    rw [hacc₀.fst_drillSearch ⟨hs.alive, hs.indexer⟩ hb, hacc.fst_drillSearch hs hb]
    rfl
  · obtain ⟨hshards, hplan⟩ := (Drilldown.from_of_prepare ha hp).eq_of_key_eq hs.indexer.catalog
      (Drilldown.from_of_prepare hb hq) hk
    simp only [Prepared.key, WindowKey.mk.injEq] at hk
    obtain ⟨-, -, -, -, -, hstart, hcount, -⟩ := hk
    rw [hshards, hplan, hstart, hcount]

def oneNumber : List Move :=
  [.ask (.createTable "t"), .ask (.put [⟨"1", "t", 0, .ofList [("x", .double 1)]⟩]), .work 1 0]

def numbersBetween (lower upper : Binary64) : Drilldown :=
  ⟨"t", none, .empty, some "x", [⟨"r", lower, upper⟩], none, 0, 10⟩

def oneShard : Config := { Config.standard with indexShards := 1, defaultAnalyzer := "keyword" }

theorem drillSearch_drillSearch_oneNumber : ∃ s : Service, Service.start oneShard true = .ok s ∧
    ((drillSearch (numbersBetween (.infinity true) (.infinity false))).perform
      ((drillSearch (numbersBetween 2 (.infinity false))).perform (s.after oneNumber)).2).1 =
      .ok [⟨"1", 1⟩] := by
  have hb : (Service.start oneShard true).toOption.any fun s =>
      ((drillSearch (numbersBetween (.infinity true) (.infinity false))).perform
        (s.after oneNumber)).1.toOption = some [⟨"1", 1⟩] := by
    decide +kernel
  cases hs : Service.start oneShard true with
  | error e => rw [hs] at hb; cases hb
  | ok s =>
    rw [hs] at hb
    have hm : ∀ m ∈ oneNumber, m.Told := by simp [oneNumber, Move.Told]
    obtain ⟨hab, -, -⟩ := drillSearch_drillSearch hs hm
      (a := numbersBetween 2 (.infinity false))
      (b := numbersBetween (.infinity true) (.infinity false)) (by decide +kernel) (by decide +kernel)
    exact ⟨s, rfl, hab.trans (eq_ok_of_toOption (of_decide_eq_true hb))⟩

/-- A bucket at infinity shares its scope with that of all numbers, and so its window too. -/
theorem drillSearch_atInfinity : ∃ s : Service, Service.start oneShard true = .ok s ∧
    ((drillSearch (numbersBetween (.infinity true) (.infinity false))).perform
      (s.after oneNumber)).1 = .ok [⟨"1", 1⟩] ∧
    ((drillSearch (numbersBetween (.infinity true) (.infinity false))).perform
      ((drillSearch (numbersBetween (.infinity false) (.infinity false))).perform
        (s.after oneNumber)).2).1 = .ok [] := by
  have hb : (Service.start oneShard true).toOption.any fun s =>
      ((drillSearch (numbersBetween (.infinity true) (.infinity false))).perform
        (s.after oneNumber)).1.toOption = some [⟨"1", 1⟩] ∧
      ((drillSearch (numbersBetween (.infinity true) (.infinity false))).perform
        ((drillSearch (numbersBetween (.infinity false) (.infinity false))).perform
          (s.after oneNumber)).2).1.toOption = some [] := by
    decide +kernel
  cases hs : Service.start oneShard true with
  | error e => rw [hs] at hb; cases hb
  | ok s =>
    rw [hs] at hb
    obtain ⟨hbefore, hafter⟩ := of_decide_eq_true hb
    exact ⟨s, rfl, eq_ok_of_toOption hbefore, eq_ok_of_toOption hafter⟩

end Service

end Corpus
