import Corpus.Catalog
import Corpus.Proofs.Data.Failure
import Corpus.Proofs.Index.Shards

/-! The catalog of tables: what holds of it throughout, and what changes leave as it was. -/

namespace Corpus

namespace Segment

theorem generation_foldl {α : Type} {f : Segment → α → Segment}
    (hf : ∀ s a, (f s a).generation = s.generation) (as : List α) (s : Segment) :
    (as.foldl f s).generation = s.generation := by
  induction as generalizing s with
  | nil => rfl
  | cons a as ih => rw [List.foldl_cons, ih, hf]

@[simp] theorem generation_insert (s : Segment) (doc : Nat) (d : Document) :
    (s.insert doc d).generation = s.generation :=
  generation_foldl (fun s field => by rw [addField]; split <;> rfl) d.fields s

@[simp] theorem generation_remove (s : Segment) (doc : Nat) :
    (s.remove doc).generation = s.generation := by
  rw [remove]
  split
  next => rfl
  next d _ => exact generation_foldl (fun s field => by rw [removeField]; split <;> rfl) d.fields s

@[simp] theorem generation_apply (s : Segment) (e : Edit) :
    (e.apply s).generation = s.generation := by
  cases e with
  | upsert d =>
    rw [Edit.apply, upsert]
    split
    next => rw [generation_insert, generation_remove]
    next => rw [generation_insert]
  | delete id =>
    rw [Edit.apply, delete]
    split
    next => rw [generation_remove]
    next => rfl
  | clear => rfl

end Segment

namespace Shards

theorem length_new (count : Nat) : (Shards.new count).length = max count 1 := List.length_replicate

theorem generation_update (s : Shards) {i : Nat} (h : i < s.length) (e : Segment.Edit) :
    (s.update i e.apply).generation = s.generation + 1 := by
  induction s generalizing i with
  | nil => exact absurd h (Nat.not_lt_zero i)
  | cons segment rest ih =>
    cases i with
    | zero =>
      simp only [update, List.modify_zero_cons, generation, List.map_cons, total_eq_sum,
        List.sum_cons, Segment.bump, Segment.generation_apply]
      omega
    | succ i =>
      have hr := ih (Nat.lt_of_succ_lt_succ h)
      simp only [update, List.modify_succ_cons, generation, List.map_cons, total_eq_sum,
        List.sum_cons] at hr ⊢
      omega

theorem update_of_length_le (s : Shards) {i : Nat} (h : s.length ≤ i) (f : Segment → Segment) :
    s.update i f = s :=
  List.modify_eq_self h

end Shards

namespace Table

/-- What may have become of a table.  Its numbers tell whether it changed. -/
structure Later (t u : Table) : Prop where
  name : u.name = t.name
  version : t.version ≤ u.version
  generation : t.shards.generation ≤ u.shards.generation
  schema : u.version = t.version → u.schema = t.schema
  shards : u.shards.generation = t.shards.generation → u.shards = t.shards

theorem Later.refl (t : Table) : t.Later t :=
  ⟨rfl, Nat.le_refl _, Nat.le_refl _, fun _ => rfl, fun _ => rfl⟩

theorem Later.trans {t u v : Table} (h : t.Later u) (h' : u.Later v) : t.Later v where
  name := h'.name.trans h.name
  version := Nat.le_trans h.version h'.version
  generation := Nat.le_trans h.generation h'.generation
  schema hv := by
    have := h.version
    have := h'.version
    rw [h'.schema (by omega), h.schema (by omega)]
  shards hg := by
    have := h.generation
    have := h'.generation
    rw [h'.shards (by omega), h.shards (by omega)]

end Table

namespace Catalog

structure Sound (c : Catalog) : Prop where
  positive : 0 < c.shardCount
  epoch : ∀ {e t}, c.tables.get? e = some t → t.epoch = e ∧ e < c.nextEpoch
  shards : ∀ {e t}, c.tables.get? e = some t →
    t.shards.length = c.shardCount ∧ t.shards.Sound t.name
  current : ∀ {name e}, c.current.get? name = some e →
    ∃ t, c.tables.get? e = some t ∧ t.name = name ∧ t.dropped = false

def Later (c d : Catalog) : Prop :=
  ∀ e t, c.tables.get? e = some t → ∃ u, d.tables.get? e = some u ∧ t.Later u

theorem Later.refl (c : Catalog) : c.Later c := fun _ t h => ⟨t, h, .refl t⟩

theorem Later.trans {c d e : Catalog} (h : c.Later d) (h' : d.Later e) : c.Later e := fun i t ht => by
  obtain ⟨u, hu, htu⟩ := h i t ht
  obtain ⟨v, hv, huv⟩ := h' i u hu
  exact ⟨v, hv, htu.trans huv⟩

variable {c : Catalog}

theorem get?_alter (c : Catalog) (e e' : Nat) (f : Table → Table) :
    (c.alter e f).tables.get? e' =
      if e' = e then (c.tables.get? e).map f else c.tables.get? e' :=
  Dict.get?_alter ..

theorem exists_of_get?_alter {e e' : Nat} {f : Table → Table} {u : Table}
    (hu : (c.alter e f).tables.get? e' = some u) :
    ∃ t, c.tables.get? e' = some t ∧ u = if e' = e then f t else t := by
  rw [get?_alter] at hu
  split at hu
  next he =>
    subst he
    obtain ⟨t, ht, rfl⟩ := Option.map_eq_some_iff.1 hu
    exact ⟨t, ht, (if_pos rfl).symm⟩
  next he => exact ⟨u, hu, (if_neg he).symm⟩

theorem Later.alter (c : Catalog) (e : Nat) {f : Table → Table}
    (hf : ∀ t, c.tables.get? e = some t → t.Later (f t)) : c.Later (c.alter e f) := by
  intro e' t ht
  rw [get?_alter]
  by_cases he : e' = e
  · subst he
    exact ⟨f t, by rw [if_pos rfl, ht]; rfl, hf t ht⟩
  · exact ⟨t, by rwa [if_neg he], .refl t⟩

theorem Sound.alter (h : c.Sound) (e : Nat) {f : Table → Table}
    (hf : ∀ t, c.tables.get? e = some t → (f t).name = t.name ∧ (f t).epoch = t.epoch ∧
      (f t).dropped = t.dropped ∧ (f t).shards.length = t.shards.length ∧
      (f t).shards.Sound t.name) : (c.alter e f).Sound where
  positive := h.positive
  epoch hu := by
    obtain ⟨t, ht, rfl⟩ := exists_of_get?_alter hu
    split
    next he =>
      subst he
      exact (hf t ht).2.1 ▸ h.epoch ht
    next => exact h.epoch ht
  shards hu := by
    obtain ⟨t, ht, rfl⟩ := exists_of_get?_alter hu
    split
    next he =>
      subst he
      obtain ⟨hname, -, -, hlen, hs⟩ := hf t ht
      exact ⟨hlen.trans (h.shards ht).1, hname ▸ hs⟩
    next => exact h.shards ht
  current := by
    intro name e' hc
    obtain ⟨t, ht, hname, hd⟩ := h.current hc
    rw [get?_alter]
    split
    next he =>
      rw [he] at ht
      obtain ⟨hn, -, hdrop, -⟩ := hf t ht
      exact ⟨f t, by rw [ht]; rfl, hn.trans hname, hdrop.trans hd⟩
    next => exact ⟨t, ht, hname, hd⟩

theorem Sound.new (shards : Nat) : (Catalog.new shards).Sound where
  positive := Nat.lt_of_lt_of_le Nat.zero_lt_one (Nat.le_max_right ..)
  epoch h := by cases h
  shards h := by cases h
  current h := by cases h

theorem Sound.get? (h : c.Sound) {name : String} {t : Table} (ht : c.get? name = some t) :
    c.current.get? (tableName name) = some t.epoch ∧ c.tables.get? t.epoch = some t ∧
      t.name = tableName name ∧ t.dropped = false := by
  obtain ⟨e, hc, he⟩ := Option.bind_eq_some_iff.1 ht
  obtain ⟨t', ht', hname, hd⟩ := h.current hc
  rw [he] at ht'
  cases ht'
  rw [(h.epoch he).1]
  exact ⟨hc, he, hname, hd⟩

theorem get?_of_require {name : String} {t : Table} (h : c.require name = .ok t) :
    c.get? name = some t := by
  rw [require] at h
  split at h
  next ht => cases h; exact ht
  next => cases h

theorem get?_eq_of_tableName {name name' : String} (h : tableName name = tableName name') :
    c.get? name = c.get? name' := by
  rw [get?, h, ← get?]

def Has (c : Catalog) (t : Table) : Prop :=
  c.current.get? t.name = some t.epoch ∧ c.tables.get? t.epoch = some t

theorem Sound.has (h : c.Sound) {name : String} {t : Table} (ht : c.get? name = some t) :
    c.Has t := by
  obtain ⟨hc, htable, hname, -⟩ := h.get? ht
  exact ⟨hname ▸ hc, htable⟩

theorem Has.name_eq_iff {t u : Table} (ht : c.Has t) (hu : c.Has u) :
    t.name = u.name ↔ t.epoch = u.epoch := by
  constructor
  · intro hn
    exact Option.some.inj (ht.1.symm.trans (hn ▸ hu.1))
  · intro he
    exact congrArg Table.name (Option.some.inj (ht.2.symm.trans (he ▸ hu.2)))

theorem Has.exists_of_alter (h : c.Sound) {e : Nat} {f : Table → Table} {u : Table}
    (hu : (c.alter e f).Has u) (hf : ∀ t, (f t).name = t.name) :
    ∃ t, c.Has t ∧ u = if t.epoch = e then f t else t := by
  obtain ⟨hcur, hget⟩ := hu
  obtain ⟨t, ht, hut⟩ := exists_of_get?_alter hget
  have he : t.epoch = u.epoch := (h.epoch ht).1
  have hn : u.name = t.name := by
    rw [hut]
    split
    next => exact hf t
    next => rfl
  rw [hn, ← he] at hcur
  exact ⟨t, ⟨hcur, he ▸ ht⟩, he ▸ hut⟩

def fresh (c : Catalog) (name : String) : Table :=
  ⟨tableName name, c.nextEpoch, false, .empty, 0, .new c.shardCount⟩

theorem get?_create (h : c.contains name = false) (e : Nat) :
    (c.create name).tables.get? e =
      if e = c.nextEpoch then some (c.fresh name) else c.tables.get? e := by
  rw [create, h]
  exact Dict.get?_insert ..

theorem current_create (h : c.contains name = false) (name' : String) :
    (c.create name).current.get? name' =
      if name' = tableName name then some c.nextEpoch else c.current.get? name' := by
  rw [create, h]
  exact Dict.get?_insert ..

theorem create_of_contains {name : String} (h : c.contains name) : c.create name = c := by
  rw [create, if_pos h]

theorem nextEpoch_create (h : c.contains name = false) :
    (c.create name).nextEpoch = c.nextEpoch + 1 := by
  rw [create, h]
  rfl

theorem nextEpoch_le_create (c : Catalog) (name : String) :
    c.nextEpoch ≤ (c.create name).nextEpoch := by
  cases h : c.contains name with
  | true => exact Nat.le_of_eq (congrArg nextEpoch (create_of_contains h).symm)
  | false => exact nextEpoch_create h ▸ Nat.le_succ _

theorem isSome_current_create (c : Catalog) (name name' : String) :
    ((c.create name).current.get? name').isSome =
      (decide (name' = tableName name) || (c.current.get? name').isSome) := by
  cases h : c.contains name with
  | true =>
    rw [create_of_contains h]
    by_cases hn : name' = tableName name
    · rw [hn]
      exact (Bool.or_eq_right_iff_imp.2 fun _ => h).symm
    · simp [hn]
  | false =>
    rw [current_create h]
    by_cases hn : name' = tableName name <;> simp [hn]

theorem Has.of_create {name : String} {u : Table} (hu : (c.create name).Has u) :
    c.Has u ∨ u = c.fresh name ∧ c.current.get? u.name = none := by
  cases h : c.contains name with
  | true =>
    rw [create_of_contains h] at hu
    exact .inl hu
  | false =>
    obtain ⟨hcur, hget⟩ := hu
    rw [current_create h] at hcur
    rw [get?_create h] at hget
    split at hget
    next he =>
      obtain rfl := Option.some.inj hget
      exact .inr ⟨rfl, Option.not_isSome_iff_eq_none.1 (Bool.eq_false_iff.1 h)⟩
    next he =>
      split at hcur
      next => exact absurd (Option.some.inj hcur).symm he
      next => exact .inl ⟨hcur, hget⟩

theorem shardCount_create (c : Catalog) (name : String) :
    (c.create name).shardCount = c.shardCount := by
  rw [create]
  split <;> rfl

theorem Later.create (h : c.Sound) (name : String) : c.Later (c.create name) := by
  cases hn : c.contains name with
  | true => rw [create_of_contains hn]; exact .refl c
  | false =>
    intro e t ht
    have hne : e ≠ c.nextEpoch := Nat.ne_of_lt (h.epoch ht).2
    exact ⟨t, by rwa [get?_create hn, if_neg hne], .refl t⟩

theorem Sound.create (h : c.Sound) (name : String) : (c.create name).Sound := by
  cases hn : c.contains name with
  | true => rwa [create_of_contains hn]
  | false =>
    have hcount := c.shardCount_create name
    have hnext := nextEpoch_create hn
    refine ⟨hcount ▸ h.positive, ?_, ?_, ?_⟩
    · intro e t ht
      rw [get?_create hn] at ht
      rw [hnext]
      split at ht
      next he =>
        obtain rfl := Option.some.inj ht
        exact ⟨he.symm, he ▸ Nat.lt_succ_self _⟩
      next => exact (h.epoch ht).imp_right (Nat.lt_succ_of_lt)
    · intro e t ht
      rw [get?_create hn] at ht
      rw [hcount]
      split at ht
      next he =>
        obtain rfl := Option.some.inj ht
        have hl := (Shards.length_new c.shardCount).trans (Nat.max_eq_left h.positive)
        exact ⟨hl, .new ..⟩
      next => exact h.shards ht
    · intro name' e hc
      rw [current_create hn] at hc
      split at hc
      next he =>
        obtain rfl := Option.some.inj hc
        exact ⟨c.fresh name, by rw [get?_create hn, if_pos rfl], he.symm, rfl⟩
      next =>
        obtain ⟨t, ht, hrest⟩ := h.current hc
        exact ⟨t, by rwa [get?_create hn, if_neg (Nat.ne_of_lt (h.epoch ht).2)], hrest⟩

theorem setSchema_eq (h : c.Sound) (name : String) (schema : Schema) :
    c.setSchema name schema =
      match c.get? name with
      | some t => .ok (c.alter t.epoch fun t => { t with schema, version := t.version + 1 })
      | none => .error (.noTable (tableName name)) := by
  rw [setSchema, require]
  cases ht : c.get? name with
  | none => rfl
  | some t =>
    have hd : ensureLive t = .ok () := by rw [ensureLive, (h.get? ht).2.2.2]; rfl
    simp only [bind, Except.bind, hd]
    rfl

theorem Sound.setSchema (h : c.Sound) {name : String} {schema : Schema} {d : Catalog}
    (hd : c.setSchema name schema = .ok d) :
    d.Sound ∧ c.Later d ∧ d.shardCount = c.shardCount := by
  rw [setSchema_eq h] at hd
  split at hd
  next t ht =>
    cases hd
    refine ⟨h.alter _ fun u hu => ⟨rfl, rfl, rfl, rfl, (h.shards hu).2⟩,
      .alter c _ fun u _ => ?_, rfl⟩
    exact ⟨rfl, Nat.le_succ _, Nat.le_refl _, fun hv => absurd hv (Nat.succ_ne_self _), fun _ => rfl⟩
  next => cases hd

theorem remove_eq {e : Nat} {t : Table} (ht : c.tables.get? e = some t) :
    c.remove e = { c.alter e ({ · with dropped := true }) with
      current := if c.current.get? t.name = some e then c.current.erase t.name else c.current } := by
  have he : (c.alter e ({ · with dropped := true })).current = c.current := rfl
  simp only [remove, ht, he]
  split <;> rfl

theorem shardCount_remove (c : Catalog) (e : Nat) : (c.remove e).shardCount = c.shardCount := by
  rw [remove]
  split
  next => rfl
  next => dsimp only; split <;> rfl

theorem nextEpoch_remove (c : Catalog) (e : Nat) : (c.remove e).nextEpoch = c.nextEpoch := by
  rw [remove]
  split
  next => rfl
  next => dsimp only; split <;> rfl

theorem get?_remove {e : Nat} {t : Table} (ht : c.tables.get? e = some t) (e' : Nat) :
    (c.remove e).tables.get? e' =
      if e' = e then some { t with dropped := true } else c.tables.get? e' := by
  rw [remove_eq ht]
  refine (get?_alter ..).trans ?_
  rw [ht]
  rfl

theorem Sound.name_eq (h : c.Sound) {name : String} {e : Nat} {t : Table}
    (hc : c.current.get? name = some e) (ht : c.tables.get? e = some t) : name = t.name := by
  obtain ⟨t', ht', hn, -⟩ := h.current hc
  rw [ht] at ht'
  cases ht'
  exact hn.symm

theorem current_remove (h : c.Sound) {e : Nat} {t : Table} (ht : c.tables.get? e = some t)
    (name : String) :
    (c.remove e).current.get? name =
      if c.current.get? name = some e then none else c.current.get? name := by
  have hname (hc : c.current.get? name = some e) := h.name_eq hc ht
  rw [remove_eq ht]
  by_cases hc : c.current.get? name = some e
  · obtain rfl := hname hc
    simp only [if_pos hc]
    exact (Dict.get?_erase ..).trans (if_pos rfl)
  · rw [if_neg hc]
    dsimp only
    split
    next ht' =>
      refine (Dict.get?_erase ..).trans (if_neg fun hn => hc ?_)
      rwa [hn]
    next => rfl

theorem isSome_current_remove (h : c.Sound) {t : Table} (ht : c.Has t) (name : String) :
    ((c.remove t.epoch).current.get? name).isSome =
      (decide (name ≠ t.name) && (c.current.get? name).isSome) := by
  rw [current_remove h ht.2]
  by_cases hn : name = t.name
  · rw [hn, if_pos ht.1]
    simp
  · rw [if_neg fun hc => hn (h.name_eq hc ht.2)]
    simp [hn]

theorem Has.of_remove (h : c.Sound) {t u : Table} (ht : c.Has t)
    (hu : (c.remove t.epoch).Has u) : c.Has u ∧ u.epoch ≠ t.epoch := by
  obtain ⟨hcur, hget⟩ := hu
  rw [current_remove h ht.2] at hcur
  rw [get?_remove ht.2] at hget
  split at hcur
  next => cases hcur
  next hne =>
    have he : u.epoch ≠ t.epoch := fun he => hne (hcur.trans (congrArg some he))
    rw [if_neg he] at hget
    exact ⟨⟨hcur, hget⟩, he⟩

theorem Later.remove (c : Catalog) (e : Nat) : c.Later (c.remove e) := by
  cases ht : c.tables.get? e with
  | none => simp only [Catalog.remove, ht]; exact .refl c
  | some t =>
    intro e' t' ht'
    rw [get?_remove ht]
    split
    next he =>
      rw [he, ht] at ht'
      cases ht'
      exact ⟨_, rfl, rfl, Nat.le_refl _, Nat.le_refl _, fun _ => rfl, fun _ => rfl⟩
    next => exact ⟨t', ht', .refl t'⟩

theorem Sound.remove (h : c.Sound) (e : Nat) : (c.remove e).Sound := by
  cases ht : c.tables.get? e with
  | none => simp only [Catalog.remove, ht]; exact h
  | some t =>
    have hcount := c.shardCount_remove e
    have hnext := c.nextEpoch_remove e
    have hold {e' : Nat} {u : Table} (hu : (c.remove e).tables.get? e' = some u) :
        ∃ t, c.tables.get? e' = some t ∧ u.name = t.name ∧ u.epoch = t.epoch ∧
          u.shards = t.shards := by
      rw [get?_remove ht] at hu
      split at hu
      next he =>
        cases hu
        exact ⟨t, he ▸ ht, rfl, rfl, rfl⟩
      next => exact ⟨u, hu, rfl, rfl, rfl⟩
    refine ⟨hcount ▸ h.positive, fun hu => ?_, fun hu => ?_, fun {name e'} hc => ?_⟩
    · obtain ⟨t', ht', -, he, -⟩ := hold hu
      rw [he, hnext]
      exact h.epoch ht'
    · obtain ⟨t', ht', hn, -, hs⟩ := hold hu
      rw [hn, hs, hcount]
      exact h.shards ht'
    · rw [current_remove h ht] at hc
      split at hc
      next => cases hc
      next hne =>
        obtain ⟨t', ht', hrest⟩ := h.current hc
        rw [get?_remove ht, if_neg fun he => hne (hc.trans (congrArg some he))]
        exact ⟨t', ht', hrest⟩

end Catalog

end Corpus
