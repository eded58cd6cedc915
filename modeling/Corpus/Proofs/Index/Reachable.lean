import Corpus.Proofs.Index.Held
import Corpus.Proofs.Index.Segment

/-! The segments that indexing leads to.  All that is in them comes from records, so that under a name of its
own a document holds one content at most. -/

namespace Corpus

open Number

namespace Fields

theorem length_read_le {kind : Content → Option α} {fields : Fields} (hn : (fields.map (·.1)).Nodup)
    (field : String) : (read kind fields field).length ≤ 1 := by
  cases hr : read kind fields field with
  | nil => exact Nat.zero_le _
  | cons a rest =>
    obtain ⟨content, hm, -⟩ := mem_read.1 (hr ▸ List.mem_cons_self : a ∈ read kind fields field)
    rw [← hr, read_eq_of_mem hn hm]
    cases kind content <;> simp

theorem read_append (kind : Content → Option α) (fields more : Fields) (field : String) :
    read kind (fields ++ more) field = read kind fields field ++ read kind more field :=
  List.filterMap_append ..

end Fields

theorem Document.length_numbers_le {schema : Schema} {analyzers : Analyzers} {r : Record} {d : Document}
    (h : ofRecord schema analyzers r = .ok d) {field : String} (hf : field ≠ timestampField) :
    (Fields.numbers d.fields field).length ≤ 1 := by
  obtain ⟨found, hc, hfields⟩ := ofRecord_fields h
  have hnames : ((columnFields found).map (·.1)).Nodup :=
    (columnFields_names hc).nodup r.values.nodup_keys
  have hid : (if idField = field then (Content.number? (.text (analyzers.keyword.analyze r.id))).toList
      else []) = [] := by
    split <;> rfl
  have hlast : Fields.read Content.number? (if allTokens found = [] then []
      else [(allField, .text (allTokens found))]) field = [] := by
    split
    next => rfl
    next =>
      rw [Fields.read_cons]
      split <;> rfl
  rw [Fields.numbers, hfields, Fields.read_cons, Fields.read_cons, Fields.read_append, hid, hlast,
    if_neg (Ne.symm hf), List.nil_append, List.nil_append, List.append_nil]
  exact Fields.length_read_le hnames field

theorem Document.ofRecord_texts {schema : Schema} {analyzers : Analyzers} {r : Record} {d : Document}
    (h : ofRecord schema analyzers r = .ok d) :
    ∃ found, contents schema analyzers r.values.entries = .ok found ∧ ∀ field,
      Fields.texts d.fields field =
        (if idField = field then [analyzers.keyword.analyze r.id] else []) ++
          (Fields.texts (columnFields found) field ++
            if allField = field ∧ allTokens found ≠ [] then [allTokens found] else []) := by
  obtain ⟨found, hc, hfields⟩ := ofRecord_fields h
  refine ⟨found, hc, fun field => ?_⟩
  have htime : (if timestampField = field then
      (Content.tokens? (.number (.ofInt r.timestamp))).toList else []) = [] := by
    split <;> rfl
  have hlast : Fields.texts (if allTokens found = [] then []
      else [(allField, .text (allTokens found))]) field =
        if allField = field ∧ allTokens found ≠ [] then [allTokens found] else [] := by
    by_cases hall : allTokens found = []
    · rw [if_pos hall, if_neg (fun h => h.2 hall)]
      rfl
    · rw [if_neg hall, Fields.texts, Fields.read_cons]
      by_cases hname : allField = field
      · rw [if_pos hname, if_pos ⟨hname, hall⟩]
        rfl
      · rw [if_neg hname, if_neg (fun h => hname h.1)]
        rfl
  rw [← hlast, hfields, Fields.texts, Fields.read_cons, Fields.read_cons, Fields.read_append, htime]
  rfl

theorem Document.length_texts_le {schema : Schema} {analyzers : Analyzers} {r : Record} {d : Document}
    (h : ofRecord schema analyzers r = .ok d) {field : String}
    (hf : (field ≠ idField ∧ field ≠ allField) ∨ r.values.get? field = none) :
    (Fields.texts d.fields field).length ≤ 1 := by
  obtain ⟨found, hc, htexts⟩ := ofRecord_texts h
  have hcolumn : (Fields.texts (columnFields found) field).length ≤ 1 :=
    Fields.length_read_le ((columnFields_names hc).nodup r.values.nodup_keys) field
  rw [htexts]
  obtain ⟨hid, hall⟩ | hv := hf
  · rwa [if_neg hid.symm, if_neg fun h => hall h.1.symm, List.nil_append, List.append_nil]
  · rw [texts_columnFields_eq_nil hc hv, List.nil_append]
    by_cases hid : idField = field
    · rw [if_pos hid, if_neg fun h => absurd (hid.trans h.1.symm) (by decide)]
      exact Nat.le_refl 1
    · rw [if_neg hid]
      split
      next => exact Nat.le_refl 1
      next => exact Nat.zero_le 1

namespace Segment

inductive Reachable : Segment → Prop
  | empty : Reachable .empty
  | upsert {s : Segment} {schema : Schema} {analyzers : Analyzers} {r : Record} {d : Document} :
    Reachable s → Document.ofRecord schema analyzers r = .ok d → Reachable (s.upsert d)
  | delete {s : Segment} (id : String) : Reachable s → Reachable (s.delete id)
  | clear {s : Segment} : Reachable s → Reachable s.clear
  | bump {s : Segment} : Reachable s → Reachable s.bump

theorem Reachable.faithful {s : Segment} (h : s.Reachable) : s.Faithful := by
  induction h with
  | empty => exact .empty
  | upsert _ hd ih => exact ih.upsert (Document.ofRecord_onePath hd)
  | delete id _ ih => exact ih.delete id
  | clear _ _ => exact .clear _
  | bump _ ih => exact ih.bump

theorem Reachable.exists_ofRecord {s : Segment} (h : s.Reachable) {doc : Nat} {d : Document}
    (hd : s.docs.get? doc = some d) :
    ∃ schema analyzers r, Document.ofRecord schema analyzers r = .ok d := by
  induction h with
  | empty => cases hd
  | upsert _ hr ih =>
    rw [get?_docs_upsert] at hd
    split at hd
    next => cases hd; exact ⟨_, _, _, hr⟩
    next => exact ih hd
  | delete id _ ih =>
    rw [get?_docs_delete] at hd
    split at hd
    next => cases hd
    next => exact ih hd
  | clear _ _ => cases hd
  | bump _ ih => exact ih hd

end Segment

end Corpus
