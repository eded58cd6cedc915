import Corpus.Proofs.Search.Algebra
import Corpus.Proofs.Service.Agreement
import Corpus.Proofs.Service.Paging
import Corpus.Proofs.Store.Listing

/-! Tables whose index was never cleared.  All that the store has of them was put, so that the index shows
each record as it was analyzed last, and searches find the stored records that match so. -/

namespace Corpus

open Store (latest)

theorem isSome_latest {id : String} {x y : Option Record} (h : x.isSome → y.isSome)
    (records : List Record) (hx : (latest id x records).isSome) : (latest id y records).isSome := by
  induction records generalizing x y with
  | nil => exact h hx
  | cons r rest ih =>
    refine ih (fun hs => ?_) hx
    by_cases hid : r.id = id
    · simp only [hid, if_true, Option.isSome_some]
    · simp only [hid, if_false] at hs ⊢
      exact h hs

theorem eq_or_mem_of_foldl {α : Type u} {β : Type v} {f : Option α → β → Option α} {l : List β}
    {last : Option α} {a : α} (h : l.foldl f last = some a) {y : β}
    (hf : ∀ last x, f last x = some a → last = some a ∨ x = y) : last = some a ∨ y ∈ l := by
  induction l generalizing last with
  | nil => exact .inl h
  | cons x rest ih =>
    cases ih h with
    | inl hx =>
      obtain hlast | rfl := hf last x hx
      · exact .inl hlast
      · exact .inr (.head _)
    | inr hy => exact .inr (.tail _ hy)

section

variable {epoch : Nat} {id : String} {g : List Happening} {r : Record}

theorem Happening.of_put?_eq_some {last : Option Record} {x : Happening}
    (h : x.put? epoch id last = some r) : last = some r ∨ x = .put epoch r := by
  cases x with
  | analysis => exact .inl h
  | clear epoch' =>
    rw [put?] at h
    split at h
    next => cases h
    next => exact .inl h
  | put epoch' r' =>
    rw [put?] at h
    split at h
    next he =>
      cases h
      exact .inr (he.1 ▸ rfl)
    next => exact .inl h

theorem Happening.of_analyzed?_eq_some {last : Option (Record × Schema)} {x : Happening}
    {schema : Schema} (h : x.analyzed? epoch id last = some (r, schema)) :
    last = some (r, schema) ∨ x = .analysis epoch r schema := by
  cases x with
  | put | clear => exact .inl h
  | analysis epoch' r' schema' =>
    rw [analyzed?] at h
    split at h
    next he =>
      cases h
      exact .inr (he.1 ▸ rfl)
    next => exact .inl h

theorem mem_of_lastPut? (h : lastPut? epoch id g = some r) : .put epoch r ∈ g :=
  (eq_or_mem_of_foldl h fun _ _ => Happening.of_put?_eq_some).resolve_left nofun

theorem mem_of_lastAnalyzed? {schema : Schema} (h : lastAnalyzed? epoch id g = some (r, schema)) :
    .analysis epoch r schema ∈ g :=
  (eq_or_mem_of_foldl h fun _ _ => Happening.of_analyzed?_eq_some).resolve_left nofun

end

namespace Service

variable {s u : Service} {g g' : List Happening}

/-- What the store has of a table whose index was never cleared was put. -/
def Traced (s : Service) (g : List Happening) : Prop :=
  ∀ t, s.catalog.Has t → .clear t.epoch ∉ g → ∀ id,
    (s.store.record? t.name id).isSome → (lastPut? t.epoch id g).isSome

theorem Traced.append (h : s.Traced g) {t : Table} (ht : s.catalog.Has t)
    (hc : .clear t.epoch ∉ g ++ g') {id : String}
    (hg : ∀ last, g'.foldl (Happening.put? t.epoch id) last = last)
    (hr : (s.store.record? t.name id).isSome) : (lastPut? t.epoch id (g ++ g')).isSome := by
  rw [lastPut?_append, hg]
  exact h t ht (fun hm => hc (List.mem_append_left _ hm)) id hr

theorem Traced.put (h : s.Traced g) (hk : s.Kept g) {table : String} {t : Table}
    (ht : s.catalog.get? table = some t) {records : List Record} {store : Store}
    (hs : s.store.put t.name records = .ok store) :
    Traced { s with
      store
      indexer := { s.indexer with
        queues := s.indexer.queues.acceptAll t (records.map .upsert) } }
      (g ++ records.map (.put t.epoch)) := by
  intro w hw hc id hr
  have hhas := hk.sound.indexer.catalog.has ht
  have hold := h w hw (fun hm => hc (List.mem_append_left _ hm)) id
  obtain ⟨-, hrecord, -⟩ := hk.store.put hs
  rw [hrecord] at hr
  rw [lastPut?_append, foldl_put?_puts]
  by_cases he : t.epoch = w.epoch
  · rw [if_pos ((Catalog.Has.name_eq_iff hw hhas).2 he.symm)] at hr
    rw [if_pos he]
    exact isSome_latest hold records hr
  · rw [if_neg fun hn => he ((Catalog.Has.name_eq_iff hw hhas).1 hn).symm] at hr
    rw [if_neg he]
    exact hold hr

theorem Traced.step (h : s.Traced g) (hk : s.Kept g) (hs : Step s g' u) : u.Traced (g ++ g') := by
  have hcat : s.catalog.Sound := hk.sound.indexer.catalog
  intro w hw hc id hr
  cases hs with
  | look | name | forget => exact h.append hw hc (fun _ => rfl) hr
  | create hs =>
    rw [(hk.store.create hs).2.1] at hr
    cases hw.of_create with
    | inl hw => exact h.append hw hc (fun _ => rfl) hr
    | inr hfresh =>
      rw [hk.record?_eq_none hfresh.2] at hr
      cases hr
  | drop ht hs =>
    obtain ⟨hw, he⟩ := (hcat.has ht).of_remove hcat hw
    have hne := fun hn => he ((hw.name_eq_iff (hcat.has ht)).1 hn)
    rw [(hk.store.drop hs).2.1 _ id hne] at hr
    exact h.append hw hc (fun _ => rfl) hr
  | setSchema hs =>
    rw [Catalog.setSchema_eq hcat] at hs
    split at hs
    next t ht =>
      cases hs
      obtain ⟨v, hv, hw⟩ := hw.exists_of_alter hcat fun _ => rfl
      have hname : w.name = v.name := by rw [hw]; split <;> rfl
      have hepoch : w.epoch = v.epoch := by rw [hw]; split <;> rfl
      rw [hepoch] at hc ⊢
      rw [hname] at hr
      exact h.append hv hc (fun _ => rfl) hr
    next => cases hs
  | put ht hs => exact h.put hk ht hs w hw hc id hr
  | delete ht hs =>
    obtain ⟨-, hrecord, -⟩ := hk.store.delete hs
    rw [hrecord] at hr
    split at hr
    next =>
      split at hr
      next => cases hr
      next => exact h.append hw hc (fun _ => rfl) hr
    next => exact h.append hw hc (fun _ => rfl) hr
  | @clear table t ht =>
    have hne : t.epoch ≠ w.epoch := fun he => hc (he ▸ List.mem_append_right _ (.head _))
    exact h.append hw hc (fun _ => if_neg hne) hr
  | @work shard v rest hq =>
    have hstep := Indexer.step_one s.analyzers hq
    rw [Indexer.follow_eq] at hstep
    rw [hstep] at hw
    obtain ⟨t, ht, hw⟩ := hw.exists_of_alter hcat fun _ => rfl
    obtain rfl : w = s.followed shard v t := hw
    rw [epoch_followed] at hc ⊢
    rw [name_followed] at hr
    exact h.append ht hc (foldl_put?_happenings _ v) hr

theorem Traced.steps (h : s.Traced g) (hk : s.Kept g) (hs : Steps s g' u) : u.Traced (g ++ g') := by
  induction hs generalizing g with
  | nil => rwa [List.append_nil]
  | cons hs _ ih =>
    rw [← List.append_assoc]
    exact ih (h.step hk hs) (hk.step hs)

theorem Traced.start {config : Config} {windows : Bool} (h : Service.start config windows = .ok s) :
    s.Traced [] := by
  obtain ⟨-, -, h⟩ := bind_eq_ok.1 h
  cases h
  intro t ht
  cases ht.1

/-- The index of a table shows the records of the store, each as it was analyzed last. -/
structure Shows (s : Service) (g : List Happening) (t : Table) : Prop where
  put : ∀ id r, s.store.record? t.name id = some r → .put t.epoch r ∈ g
  analyzed : ∀ id r, s.store.record? t.name id = some r →
    ∃ schema, lastAnalyzed? t.epoch id g = some (r, schema)
  document?_eq_some : ∀ id d, t.shards.document? t.name id = some d ↔
    ∃ r schema, s.store.record? t.name id = some r ∧
      lastAnalyzed? t.epoch id g = some (r, schema) ∧ Document.ofRecord schema s.analyzers r = .ok d

theorem Shows.map_id_hitsAmong {t : Table} (h : s.Shows g t) (hst : s.store.Sound)
    (ht : t.shards.Sound t.name) {p : Plan} {P : Record → Prop} [DecidablePred P]
    (hP : ∀ r ∈ s.store.records t.name, P r ↔ ∃ schema d,
      lastAnalyzed? t.epoch r.id g = some (r, schema) ∧
      Document.ofRecord schema s.analyzers r = .ok d ∧
      (p.score? scorer t.shards.statistics d.fields).isSome) :
    ((p.hitsAmong scorer t.shards.statistics t.shards.documents).map (·.id)).Perm
      (((s.store.records t.name).filter P).map (·.id)) := by
  have hhits : ((p.hitsAmong scorer t.shards.statistics t.shards.documents).map (·.id)).Nodup :=
    ht.nodup_ids.sublist (p.map_id_hitsAmong_sublist _ _)
  have hrecords : (((s.store.records t.name).filter P).map (·.id)).Nodup :=
    (hst.nodup_ids_records t.name).sublist (List.filter_sublist.map _)
  refine (List.perm_ext_iff_of_nodup hhits hrecords).2 fun id => ?_
  rw [List.mem_map, List.mem_map, ← Shards.mem_found_iff_hit, ht.mem_found]
  constructor
  · intro ⟨d, hd, hm⟩
    obtain ⟨r, schema, hr, ha, hof⟩ := (h.document?_eq_some id d).1 hd
    obtain rfl := hst.id_eq hr
    have hmem := hst.mem_records.2 hr
    exact ⟨r, List.mem_filter.2 ⟨hmem, decide_eq_true ((hP r hmem).2 ⟨schema, d, ha, hof, hm⟩)⟩, rfl⟩
  · rintro ⟨r, hr, rfl⟩
    obtain ⟨hmem, hp⟩ := List.mem_filter.1 hr
    obtain ⟨schema, d, ha, hd, hm⟩ := (hP r hmem).1 (of_decide_eq_true hp)
    exact ⟨d, (h.document?_eq_some r.id d).2 ⟨r, schema, hst.mem_records.1 hmem, ha, hd⟩, hm⟩

theorem shows_after {config : Config} {windows : Bool} (h : Service.start config windows = .ok s)
    (moves : List Move) (hq : ∀ events ∈ (s.after moves).indexer.queues.waiting, events = [])
    {table : String} {t : Table} (ht : (s.after moves).catalog.get? table = some t)
    (hc : .clear t.epoch ∉ s.history moves) : (s.after moves).Shows (s.history moves) t := by
  have hkept := kept_after h moves
  have htraced := (Traced.start h).steps (Kept.start h) (steps_after (.start h) moves)
  rw [List.nil_append] at htraced
  have hhas := hkept.sound.indexer.catalog.has ht
  have hmirrors := hkept.mirrors hq hhas
  have hput {id : String} {r : Record} (hr : (s.after moves).store.record? t.name id = some r) :
      lastPut? t.epoch id (s.history moves) = some r := by
    refine (hmirrors.last id r hr).resolve_left fun hnone => ?_
    have hsome := htraced t hhas hc id (Option.isSome_of_eq_some hr)
    rw [hnone] at hsome
    cases hsome
  refine ⟨fun id r hr => mem_of_lastPut? (hput hr),
    fun id r hr => hmirrors.analyzed id r hr (hput hr), fun id d => ?_⟩
  rw [(hkept.sound.shards ht).document?_eq_some, hmirrors.shown]
  constructor
  · intro ⟨r, schema, hr, _, ha, hd⟩
    exact ⟨r, schema, hr, ha, hd⟩
  · intro ⟨r, schema, hr, ha, hd⟩
    exact ⟨r, schema, hr, hput hr, ha, hd⟩

end Service

end Corpus
