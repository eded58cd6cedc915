import Corpus.Identity
import Corpus.Index.Shards
import Corpus.Proofs.Index.History

/-! Indexes of several segments, in which the identity of a document says where it is. -/

namespace Corpus

theorem shardOf_lt {n : Nat} (h : 0 < n) (table id : String) : shardOf table id n < n := by
  rw [shardOf, Nat.max_eq_left h]
  exact Nat.mod_lt _ h

namespace Shards

open Segment

structure Sound (table : String) (s : Shards) : Prop where
  nonempty : 0 < s.length
  faithful : ∀ segment ∈ s, segment.Faithful
  placed : ∀ {i segment}, s[i]? = some segment →
    ∀ {id d}, segment.document? id = some d → shardOf table id s.length = i

def document? (table : String) (s : Shards) (id : String) : Option Document :=
  s[shardOf table id s.length]?.bind (·.document? id)

def documents (s : Shards) : List Document := s.flatMap (·.docs.values)

theorem length_update (s : Shards) (i : Nat) (f : Segment → Segment) :
    (s.update i f).length = s.length :=
  List.length_modify ..

theorem getElem?_update (s : Shards) (i j : Nat) (f : Segment → Segment) :
    (s.update i f)[j]? = s[j]?.map fun segment => if i = j then (f segment).bump else segment :=
  List.getElem?_modify ..

theorem Sound.new (table : String) (count : Nat) : (Shards.new count).Sound table where
  nonempty := by rw [Shards.new, List.length_replicate]; omega
  faithful segment hs := by rw [List.eq_of_mem_replicate hs]; exact .empty
  placed hs _ _ hd := by
    rw [List.eq_of_mem_replicate (List.mem_of_getElem? hs)] at hd
    cases hd

section

variable {table : String} {s : Shards}

theorem Sound.update (h : s.Sound table) {i : Nat} {e : Edit}
    (he : ∀ d, e = .upsert d → Fields.OnePath d.fields ∧ shardOf table d.id s.length = i) :
    (s.update i e.apply).Sound table where
  nonempty := length_update s i _ ▸ h.nonempty
  faithful segment hs := by
    obtain ⟨j, hj⟩ := List.mem_iff_getElem?.1 hs
    rw [getElem?_update] at hj
    obtain ⟨old, ho, rfl⟩ := Option.map_eq_some_iff.1 hj
    have hold := h.faithful old (List.mem_of_getElem? ho)
    split
    next => exact (hold.apply fun d hd => (he d hd).1).bump
    next => exact hold
  placed := by
    intro j segment hj id d hd
    rw [getElem?_update] at hj
    obtain ⟨old, ho, rfl⟩ := Option.map_eq_some_iff.1 hj
    have hold := h.faithful old (List.mem_of_getElem? ho)
    rw [length_update]
    split at hd
    next hi =>
      rw [document?_bump, hold.document?_apply fun d hd => (he d hd).1] at hd
      cases Edit.eq_upsert_or_of_leave hd with
      | inl hu => exact hu.2 ▸ hi ▸ (he d hu.1).2
      | inr hd => exact h.placed ho hd
    next => exact h.placed ho hd

theorem Sound.document?_update (h : s.Sound table) {i : Nat} {e : Edit}
    (he : ∀ d, e = .upsert d → Fields.OnePath d.fields) (id : String) :
    (s.update i e.apply).document? table id =
      if shardOf table id s.length = i then e.leave id (s.document? table id)
      else s.document? table id := by
  have hlt := shardOf_lt h.nonempty table id
  rw [document?, document?, length_update, getElem?_update, List.getElem?_eq_getElem hlt]
  have hold := h.faithful _ (List.getElem_mem hlt)
  simp only [Option.map_some, Option.bind_some]
  by_cases hi : i = shardOf table id s.length
  · rw [if_pos hi, if_pos hi.symm, document?_bump, hold.document?_apply he]
  · rw [if_neg hi, if_neg fun h => hi h.symm]

theorem Sound.document?_eq_some (h : s.Sound table) {id : String} {d : Document} :
    s.document? table id = some d ↔ ∃ segment ∈ s, segment.document? id = some d := by
  rw [document?, Option.bind_eq_some_iff]
  constructor
  · intro ⟨segment, hs, hd⟩
    exact ⟨segment, List.mem_of_getElem? hs, hd⟩
  · intro ⟨segment, hs, hd⟩
    obtain ⟨i, hi⟩ := List.mem_iff_getElem?.1 hs
    exact ⟨segment, (h.placed hi hd).symm ▸ hi, hd⟩

theorem Sound.mem_documents (h : s.Sound table) {d : Document} :
    d ∈ s.documents ↔ s.document? table d.id = some d := by
  rw [documents, List.mem_flatMap, h.document?_eq_some]
  refine exists_congr fun segment => and_congr_right fun hs => ?_
  rw [Dict.mem_values_iff, (h.faithful segment hs).document?_eq_some]
  exact exists_congr fun doc => (and_iff_left rfl).symm

theorem Sound.nodup_ids (h : s.Sound table) : (s.documents.map (·.id)).Nodup := by
  rw [documents, List.Nodup, List.pairwise_map, List.pairwise_flatMap]
  constructor
  · intro segment hs
    have hf := h.faithful segment hs
    refine List.pairwise_map.2 (segment.docs.ascending.imp_of_mem fun ha hb hab hid => ?_)
    have hdoc := hf.eq_of_id (Dict.get?_eq_some_iff.2 ha) (Dict.get?_eq_some_iff.2 hb) hid
    simp [hdoc] at hab
  · refine List.pairwise_iff_getElem.2 fun i j hi hj hij d hd d' hd' hid => ?_
    obtain ⟨doc, hdoc⟩ := Dict.mem_values_iff.1 hd
    obtain ⟨doc', hdoc'⟩ := Dict.mem_values_iff.1 hd'
    have hs := (h.faithful _ (List.getElem_mem hi)).document?_eq_some.2 ⟨doc, hdoc, rfl⟩
    have hs' := (h.faithful _ (List.getElem_mem hj)).document?_eq_some.2 ⟨doc', hdoc', rfl⟩
    have hi' := h.placed (List.getElem?_eq_getElem hi) hs
    have hj' := h.placed (List.getElem?_eq_getElem hj) hs'
    rw [hid] at hi'
    omega

theorem Sound.nodup_documents (h : s.Sound table) : s.documents.Nodup :=
  List.Pairwise.of_map (·.id) (fun _ _ hid hd => hid (hd ▸ rfl)) h.nodup_ids

end

end Shards

end Corpus
