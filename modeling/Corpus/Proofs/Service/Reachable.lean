import Corpus.Proofs.Index.Reachable
import Corpus.Proofs.Service.History

/-! Whatever a service is asked, the segments of its tables are those that indexing records and taking
documents out leads to. -/

namespace Corpus

theorem Change.reachable_edit {schema : Schema} {analyzers : Analyzers} (c : Change) {s : Segment}
    (h : s.Reachable) : ((c.edit schema analyzers).apply s).Reachable := by
  cases c with
  | upsert r =>
    rw [edit]
    cases hd : Document.ofRecord schema analyzers r with
    | ok d => exact .upsert h hd
    | error e => exact .delete r.id h
  | tombstone id => exact .delete id h
  | clear => exact .clear h

theorem Shards.reachable_update {s : Shards} (h : ∀ segment ∈ s, segment.Reachable)
    {f : Segment → Segment} (hf : ∀ segment, segment.Reachable → (f segment).Reachable) (i : Nat) :
    ∀ segment ∈ s.update i f, segment.Reachable := by
  intro segment hs
  obtain ⟨j, hj⟩ := List.mem_iff_getElem?.1 hs
  rw [getElem?_update] at hj
  obtain ⟨old, ho, rfl⟩ := Option.map_eq_some_iff.1 hj
  have hold := h old (List.mem_of_getElem? ho)
  split
  next => exact (hf old hold).bump
  next => exact hold

namespace Service

variable {s t : Service} {g : List Happening}

def Indexed (s : Service) : Prop :=
  ∀ t, s.catalog.Has t → ∀ segment ∈ t.shards, segment.Reachable

theorem Indexed.start {config : Config} {windows : Bool} (h : Service.start config windows = .ok s) :
    s.Indexed := by
  obtain ⟨-, -, h⟩ := bind_eq_ok.1 h
  cases h
  intro t ht
  cases ht.1

theorem Indexed.step (h : s.Indexed) (hs : s.Sound) (hstep : Step s g t) : t.Indexed := by
  have hcat : s.catalog.Sound := hs.indexer.catalog
  intro u hu
  cases hstep with
  | look | name | forget | put | delete | clear => exact h u hu
  | create =>
    cases hu.of_create with
    | inl hu => exact h u hu
    | inr hfresh =>
      obtain ⟨rfl, -⟩ := hfresh
      intro segment hsegment
      rw [List.eq_of_mem_replicate hsegment]
      exact .empty
  | drop ht => exact h u ((hcat.has ht).of_remove hcat hu).1
  | setSchema hc =>
    rw [Catalog.setSchema_eq hcat] at hc
    split at hc
    next w hw =>
      cases hc
      obtain ⟨v, hv, rfl⟩ := hu.exists_of_alter hcat fun _ => rfl
      intro segment hsegment
      split at hsegment
      next => exact h v hv segment hsegment
      next => exact h v hv segment hsegment
    next => cases hc
  | @work shard v rest hq =>
    have hstep := Indexer.step_one s.analyzers hq
    rw [Indexer.follow_eq] at hstep
    rw [hstep] at hu
    obtain ⟨w, hw, rfl⟩ := hu.exists_of_alter hcat fun _ => rfl
    split
    next => exact Shards.reachable_update (h w hw) (fun _ => v.change.reachable_edit) shard
    next => exact h w hw

theorem Indexed.steps (h : s.Indexed) (hs : s.Sound) (hsteps : Steps s g t) : t.Indexed := by
  induction hsteps with
  | nil => exact h
  | cons hstep _ ih => exact ih (h.step hs hstep) (hs.step hstep).1

theorem indexed_after {config : Config} {windows : Bool} (h : Service.start config windows = .ok s)
    (moves : List Move) : (s.after moves).Indexed :=
  (Indexed.start h).steps (.start h) (steps_after (.start h) moves)

theorem Indexed.length_numbers_le (h : s.Indexed) (hs : s.Sound) {table : String} {t : Table}
    (ht : s.catalog.get? table = some t) {d : Document} (hd : d ∈ t.shards.documents) {field : String}
    (hf : field ≠ timestampField) : (Fields.numbers d.fields field).length ≤ 1 := by
  obtain ⟨segment, hsegment, hd⟩ := List.mem_flatMap.1 hd
  obtain ⟨doc, hdoc⟩ := Dict.mem_values_iff.1 hd
  obtain ⟨schema, analyzers, r, hr⟩ :=
    (h t (hs.indexer.catalog.has ht) segment hsegment).exists_ofRecord hdoc
  exact Document.length_numbers_le hr hf

end Service

end Corpus
