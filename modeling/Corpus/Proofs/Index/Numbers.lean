import Corpus.Proofs.Index.Fields

/-! The index of numbers against the documents in it. -/

namespace Corpus

open Number

namespace Fields

theorem mem_keys {fields : Fields} {field : String} {key : Nat} :
    key ∈ keys fields field ↔ ∃ x, (field, .number x) ∈ fields ∧ x.isNaN = false ∧ sortKey x = key := by
  simp [keys, mem_numbers, and_assoc]

theorem mem_keys_cons {f : String × Content} {fields : Fields} {field : String} {key : Nat} :
    key ∈ keys (f :: fields) field ↔ key ∈ keys [f] field ∨ key ∈ keys fields field := by
  simp only [mem_keys, List.mem_cons, List.not_mem_nil, or_false, or_and_right, exists_or]

end Fields

namespace NumberIndex

def docsAt (n : NumberIndex) (field : String) (key : Nat) : DocSet :=
  ((n.fields.get? field).bind (·.get? key)).getD .empty

theorem mem_docsAt {n : NumberIndex} {field : String} {key doc : Nat} :
    doc ∈ n.docsAt field key ↔
      ∃ docs, (n.fields.get? field).bind (·.get? key) = some docs ∧ doc ∈ docs := by
  rw [docsAt]
  cases (n.fields.get? field).bind (·.get? key) <;> simp

theorem mem_range {n : NumberIndex} {field : String} {lower upper : Bound} {doc : Nat} :
    doc ∈ n.range field lower upper ↔
      ∃ key, lower.least ≤ key ∧ key < upper.limit ∧ doc ∈ n.docsAt field key := by
  simp only [range, DocSet.mem_unions, Dict.mem_values_iff, Dict.get?_filter_eq_some,
    Dict.getD_empty_get?, mem_docsAt, Bool.and_eq_true, decide_eq_true_eq]
  constructor
  · rintro ⟨docs, ⟨key, hk, hl, hu⟩, hd⟩
    exact ⟨key, hl, hu, docs, hk, hd⟩
  · rintro ⟨key, hl, hu, docs, hk, hd⟩
    exact ⟨docs, ⟨key, hk, hl, hu⟩, hd⟩

theorem mem_docsAt_add {n : NumberIndex} {doc doc' : Nat} {field field' : String} {x : Binary64}
    {key : Nat} :
    doc' ∈ (n.add doc field x).docsAt field' key ↔
      doc' = doc ∧ field' = field ∧ x.isNaN = false ∧ key = sortKey x ∨
        doc' ∈ n.docsAt field' key := by
  rw [add]
  split
  next h => simp [h]
  next h =>
    by_cases hf : field' = field
    · by_cases hk : key = sortKey x
      · subst hf hk
        cases ht : n.fields.get? field' with
        | none => simp [docsAt, Dict.get?_alter, ht, h]
        | some tree =>
          cases hd : tree.get? (sortKey x) <;> simp [docsAt, Dict.get?_alter, ht, hd, h]
      · simp [docsAt, Dict.get?_alter, hf, hk]
    · simp [docsAt, Dict.get?_alter, hf]

theorem mem_docsAt_remove {n : NumberIndex} {doc doc' : Nat} {field field' : String}
    {x : Binary64} {key : Nat} :
    doc' ∈ (n.remove doc field x).docsAt field' key ↔
      doc' ∈ n.docsAt field' key ∧ ¬(doc' = doc ∧ field' = field ∧ key = sortKey x) := by
  by_cases hf : field' = field
  · subst hf
    cases ht : n.fields.get? field' with
    | none => simp [docsAt, remove, Dict.get?_alter, ht]
    | some tree =>
      by_cases hk : key = sortKey x
      · subst hk
        cases hd : tree.get? (sortKey x) with
        | none => simp [docsAt, remove, Dict.get?_alter, ht, hd]
        | some docs =>
          by_cases he : (docs.erase doc).isEmpty
          · have hn := DocSet.isEmpty_iff.1 he doc'
            simp only [DocSet.mem_erase, not_and, ne_eq] at hn
            simp [docsAt, remove, Dict.get?_alter, ht, hd, he]
            exact fun h => Decidable.not_not.1 (hn h)
          · simp [docsAt, remove, Dict.get?_alter, ht, hd, he]
      · simp [docsAt, remove, Dict.get?_alter, ht, hk]
  · simp [docsAt, remove, Dict.get?_alter, hf]

def addField (doc : Nat) (n : NumberIndex) (field : String × Content) : NumberIndex :=
  match field.2 with
  | .number x => n.add doc field.1 x
  | _ => n

def removeField (doc : Nat) (n : NumberIndex) (field : String × Content) : NumberIndex :=
  match field.2 with
  | .number x => n.remove doc field.1 x
  | _ => n

theorem mem_docsAt_foldl_addField {doc doc' : Nat} {fields : Fields} {n : NumberIndex}
    {field : String} {key : Nat} :
    doc' ∈ (fields.foldl (addField doc) n).docsAt field key ↔
      doc' = doc ∧ key ∈ Fields.keys fields field ∨ doc' ∈ n.docsAt field key := by
  induction fields generalizing n with
  | nil => simp [Fields.mem_keys]
  | cons f rest ih =>
    obtain ⟨name, content⟩ := f
    rw [List.foldl_cons, ih, Fields.mem_keys_cons]
    cases content with
    | text tokens => simp [addField, Fields.mem_keys]
    | number x =>
      rw [addField, mem_docsAt_add]
      simp [Fields.mem_keys]
      grind
    | facet path => simp [addField, Fields.mem_keys]

theorem mem_docsAt_foldl_removeField {doc doc' : Nat} {fields : Fields} {n : NumberIndex}
    {field : String} {key : Nat} :
    doc' ∈ (fields.foldl (removeField doc) n).docsAt field key ↔
      doc' ∈ n.docsAt field key ∧
        ¬(doc' = doc ∧ ∃ x, (field, .number x) ∈ fields ∧ key = sortKey x) := by
  induction fields generalizing n with
  | nil => simp
  | cons f rest ih =>
    obtain ⟨name, content⟩ := f
    rw [List.foldl_cons, ih]
    cases content with
    | text tokens => simp [removeField]
    | number x =>
      rw [removeField, mem_docsAt_remove]
      simp
      grind
    | facet path => simp [removeField]

def Reflects (n : NumberIndex) (docs : Dict Nat Document) : Prop :=
  ∀ field key doc,
    doc ∈ n.docsAt field key ↔ ∃ d, docs.get? doc = some d ∧ key ∈ Fields.keys d.fields field

theorem Reflects.empty : NumberIndex.empty.Reflects .empty := by
  intro field key doc
  simp [mem_docsAt, NumberIndex.empty]

theorem Reflects.insert {n : NumberIndex} {docs : Dict Nat Document} (h : n.Reflects docs)
    {doc : Nat} (hdoc : docs.get? doc = none) (d : Document) :
    (d.fields.foldl (addField doc) n).Reflects (docs.insert doc d) := by
  intro field key doc'
  rw [mem_docsAt_foldl_addField, h field key doc', Dict.get?_insert]
  by_cases hd : doc' = doc <;> simp [hd, hdoc]

theorem Reflects.erase {n : NumberIndex} {docs : Dict Nat Document} (h : n.Reflects docs)
    {doc : Nat} {d : Document} (hdoc : docs.get? doc = some d) :
    (d.fields.foldl (removeField doc) n).Reflects (docs.erase doc) := by
  intro field key doc'
  rw [mem_docsAt_foldl_removeField, h field key doc', Dict.get?_erase]
  by_cases hd : doc' = doc
  · subst hd
    simp only [hdoc, Option.some.injEq, exists_eq_left', Fields.mem_keys, if_true, reduceCtorEq,
      false_and, exists_false, iff_false, true_and, not_and]
    intro ⟨x, hx, _, hk⟩ hn
    exact hn ⟨x, hx, hk.symm⟩
  · simp [hd]

end NumberIndex

end Corpus
