import Corpus.Proofs.Catalog
import Corpus.Proofs.Drilldown.Scope
import Corpus.Proofs.Search.Sharding

/-! The cache of windows.  What it has for a search is what the search finds, as long as neither the
table's schema nor its index changed, and as its scope tells all of its filters. -/

namespace Corpus

namespace Cache

variable {κ : Type u} {ν : Type v} [DecidableEq κ] {c : Cache κ ν} {k : κ}

theorem mem_without {a : κ × ν} (h : a ∈ c.without k) : a ∈ c.entries := List.mem_of_mem_filter h

theorem mem_of_get?_eq_some {v : ν} (h : (c.get? k).1 = some v) : (k, v) ∈ c.entries := by
  rw [get?] at h
  split at h
  next => cases h
  next =>
    split at h
    next hl =>
      cases h
      obtain ⟨l, r, he, -⟩ := List.lookup_eq_some_iff.1 hl
      rw [he]
      exact List.mem_append_right _ (.head _)
    next => cases h

theorem mem_of_mem_get? {a : κ × ν} (h : a ∈ (c.get? k).2.entries) : a ∈ c.entries := by
  rw [get?] at h
  split at h
  next => exact h
  next hc =>
    split at h
    next hl =>
      cases List.mem_cons.1 h with
      | inl ha =>
        rw [ha]
        refine mem_of_get?_eq_some ?_
        rw [get?, if_neg hc, hl]
      | inr ha => exact mem_without ha
    next => exact h

theorem mem_put {v : ν} {a : κ × ν} (h : a ∈ (c.put k v).entries) : a = (k, v) ∨ a ∈ c.entries :=
  (List.mem_cons.1 (List.mem_of_mem_take h)).imp_right mem_without

end Cache

def Plan.within (p : Plan) : Option Scope → Plan
  | none => p
  | some s => .allOf (p :: s.filters)

namespace Prepared

theorem prepare_eq (c : Catalog) (analyzers : Analyzers) (table query : String) :
    prepare c analyzers table query =
      match c.get? table with
      | none => (Query.parse allField query).map fun _ => none
      | some t => (Plan.ofSearch t.schema analyzers query).map fun plan =>
        some ⟨t.name, query, t.epoch, t.version, t.shards, plan, none⟩ := by
  rw [prepare]
  cases hq : Query.parse allField query with
  | error e => cases c.get? table <;> simp [Plan.ofSearch, hq] <;> rfl
  | ok q =>
    cases c.get? table with
    | none => rfl
    | some t =>
      simp only [Plan.ofSearch, hq]
      show (Plan.ofQuery t.schema analyzers q >>= _) =
        ((Plan.ofQuery t.schema analyzers q >>= _) : Except Error Plan).map _
      cases Plan.ofQuery t.schema analyzers q <;> rfl

theorem eq_of_prepare {c : Catalog} {analyzers : Analyzers} {table query : String} {p : Prepared}
    (h : prepare c analyzers table query = .ok (some p)) :
    ∃ t, c.get? table = some t ∧ Plan.ofSearch t.schema analyzers query = .ok p.plan ∧
      p = ⟨t.name, query, t.epoch, t.version, t.shards, p.plan, none⟩ := by
  rw [prepare_eq] at h
  split at h
  next =>
    obtain ⟨q, -, hq⟩ := map_eq_ok.1 h
    cases hq
  next t ht =>
    obtain ⟨plan, hp, hq⟩ := map_eq_ok.1 h
    cases hq
    exact ⟨t, ht, hp, rfl⟩

/-- Whether a window is what a search finds that has the filters of the key's scope. -/
def CurrentWithin (c : Catalog) (analyzers : Analyzers) (k : WindowKey) (hits : List Hit) : Prop :=
  ∃ t, c.tables.get? k.epoch = some t ∧ k.version ≤ t.version ∧
    k.generation ≤ t.shards.generation ∧
    (k.version = t.version → k.generation = t.shards.generation →
      ∃ p, Plan.ofSearch t.schema analyzers k.query = .ok p ∧
        (p.within k.scope).window scorer t.shards k.start k.count = .ok hits)

def CoherentOn (T : Option Scope → Prop) (c : Catalog) (analyzers : Analyzers) (cache : WindowCache) :
    Prop :=
  ∀ k hits, (k, hits) ∈ cache.entries → T k.scope → CurrentWithin c analyzers k hits

/-- Whether what is prepared runs its query, with the filters of its scope, on a table of the catalog. -/
def From (p : Prepared) (c : Catalog) (analyzers : Analyzers) : Prop :=
  ∃ table t plan, c.get? table = some t ∧ Plan.ofSearch t.schema analyzers p.query = .ok plan ∧
    p.epoch = t.epoch ∧ p.version = t.version ∧ p.shards = t.shards ∧ p.plan = plan.within p.scope

variable {T : Option Scope → Prop} {c d : Catalog} {analyzers : Analyzers} {cache : WindowCache}
  {p : Prepared} {table query : String}

theorem from_of_prepare (hp : prepare c analyzers table query = .ok (some p)) :
    p.From c analyzers := by
  obtain ⟨t, ht, hplan, he⟩ := eq_of_prepare hp
  generalize p.plan = plan at hplan he
  subst he
  exact ⟨table, t, plan, ht, hplan, rfl, rfl, rfl, rfl⟩

theorem CoherentOn.later (h : CoherentOn T c analyzers cache) (hl : c.Later d) :
    CoherentOn T d analyzers cache := by
  intro k hits hk hs
  obtain ⟨t, ht, hv, hg, hw⟩ := h k hits hk hs
  obtain ⟨u, hu, htu⟩ := hl _ t ht
  refine ⟨u, hu, Nat.le_trans hv htu.version, Nat.le_trans hg htu.generation, fun hv' hg' => ?_⟩
  have hversion := htu.version
  have hgeneration := htu.generation
  rw [htu.schema (by omega), htu.shards (by omega)]
  exact hw (by omega) (by omega)

theorem CoherentOn.clear (T : Option Scope → Prop) (c : Catalog) (analyzers : Analyzers)
    (cache : WindowCache) : CoherentOn T c analyzers cache.clear := nofun

theorem CoherentOn.new (T : Option Scope → Prop) (c : Catalog) (analyzers : Analyzers)
    (capacity : Nat) : CoherentOn T c analyzers (.new capacity) := nofun

theorem currentWithin_key_iff (hc : c.Sound) (hp : p.From c analyzers) {start count : Nat}
    {hits : List Hit} :
    CurrentWithin c analyzers (p.key start count) hits ↔
      p.plan.window scorer p.shards start count = .ok hits := by
  obtain ⟨table, t, plan, ht, hplan, he, hv, hs, hp⟩ := hp
  have htable := (hc.get? ht).2.1
  rw [CurrentWithin, key, he, hv, hs, hp]
  constructor
  · intro ⟨t', ht', _, _, hw⟩
    rw [htable] at ht'
    cases ht'
    obtain ⟨q, hq, hw⟩ := hw rfl rfl
    rw [hplan] at hq
    cases hq
    exact hw
  · intro hw
    exact ⟨t, htable, Nat.le_refl _, Nat.le_refl _, fun _ _ => ⟨plan, hplan, hw⟩⟩

theorem From.eq_of_key_eq {q : Prepared} (hc : c.Sound) (hp : p.From c analyzers)
    (hq : q.From c analyzers) {start count start' count' : Nat}
    (hk : p.key start count = q.key start' count') : p.shards = q.shards ∧ p.plan = q.plan := by
  obtain ⟨table, t, plan, ht, hplan, he, hv, hs, hp⟩ := hp
  obtain ⟨table', t', plan', ht', hplan', he', hv', hs', hp'⟩ := hq
  simp only [key, WindowKey.mk.injEq] at hk
  obtain ⟨-, hquery, hscope, hepoch, -⟩ := hk
  have htable := (hc.get? ht).2.1
  rw [← he, hepoch, he', (hc.get? ht').2.1] at htable
  cases htable
  rw [hquery, hplan'] at hplan
  cases hplan
  exact ⟨hs.trans hs'.symm, by rw [hp, hp', hscope]⟩

theorem CoherentOn.fst_window (h : CoherentOn T c analyzers cache) (hc : c.Sound)
    (hp : p.From c analyzers) (hs : T p.scope) (start count : Nat) :
    (p.window start count cache).1 =
      if count = 0 then .ok [] else p.plan.window scorer p.shards start count := by
  rw [window]
  split
  next => rfl
  next =>
    cases hget : cache.get? (p.key start count) with
    | mk answer cache' =>
      cases answer with
      | some hits =>
        have hmem := Cache.mem_of_get?_eq_some (congrArg Prod.fst hget)
        exact ((currentWithin_key_iff hc hp).1 (h _ _ hmem hs)).symm
      | none => cases p.plan.window scorer p.shards start count <;> rfl

theorem CoherentOn.snd_window (h : CoherentOn T c analyzers cache) (hc : c.Sound)
    (hp : T p.scope → p.From c analyzers) (start count : Nat) :
    CoherentOn T c analyzers (p.window start count cache).2 := by
  rw [window]
  split
  next => exact h
  next =>
    have hget : CoherentOn T c analyzers (cache.get? (p.key start count)).2 :=
      fun k hits hk => h k hits (Cache.mem_of_mem_get? hk)
    generalize cache.get? (p.key start count) = answer at hget
    obtain ⟨answer, cache'⟩ := answer
    cases answer with
    | some hits => exact hget
    | none =>
      dsimp only
      cases hw : p.plan.window scorer p.shards start count with
      | error e => exact hget
      | ok hits =>
        intro k hits' hk hs
        cases Cache.mem_put hk with
        | inl he =>
          cases he
          exact (currentWithin_key_iff hc (hp hs)).2 hw
        | inr hk => exact hget k hits' hk hs

end Prepared

end Corpus
