import Corpus.Proofs.Index.Reachable
import Corpus.Proofs.Search.Statistics
import Mathlib.Algebra.BigOperators.Group.List.Basic

/-! What the index counts of a field against the documents that hold it.  The index counts values, which are
as many as the documents unless one of them has two values in the field. -/

namespace Corpus

open Number

def TermIndex.holders (t : TermIndex) (field : String) : DocSet := Plan.docsOf (t.terms field).entries

namespace Segment

def valueCount (s : Segment) (field : String) (doc : Nat) : Nat :=
  ((s.docs.get? doc).map fun d => (Fields.lengths d.fields field).length).getD 0

def tokenCount (s : Segment) (field : String) (doc : Nat) : Nat :=
  ((s.docs.get? doc).map fun d => (Fields.words d.fields field).length).getD 0

end Segment

theorem sum_map_filter {p : α → Prop} [DecidablePred p] {f : α → Nat} {l : List α}
    (h : ∀ a ∈ l, ¬p a → f a = 0) : ((l.filter p).map f).sum = (l.map f).sum := by
  have hrest : ((l.filter fun a => ¬p a).map f).sum = 0 :=
    List.sum_eq_zero <| List.forall_mem_map.2 fun a ha =>
      h a (List.mem_of_mem_filter ha) (of_decide_eq_true (List.mem_filter.1 ha).2)
  rw [← List.sum_map_filter_add_sum_map_filter_not p f l, hrest, Nat.add_zero]

theorem sum_eq_length_iff {l : List Nat} (h : ∀ n ∈ l, 0 < n) : l.sum = l.length ↔ ∀ n ∈ l, n ≤ 1 := by
  induction l with
  | nil => simp
  | cons n rest ih =>
    rw [List.forall_mem_cons] at h ⊢
    have hle : rest.length ≤ rest.sum := List.length_le_sum_of_one_le rest h.2
    rw [← ih h.2, List.sum_cons, List.length_cons]
    omega

namespace Fields

variable {fields : Fields} {field : String}

theorem sum_lengths (fields : Fields) (field : String) :
    (lengths fields field).sum = (words fields field).length := by
  rw [lengths, sum_map_filter (by simp), words, List.length_flatMap]
  simp only [List.length_map]

theorem words_eq_nil : words fields field = [] ↔ lengths fields field = [] := by
  simp [words, lengths, List.flatMap_eq_nil_iff]

end Fields

namespace Segment

variable {s : Segment} {field : String}

theorem Faithful.holders_eq (h : s.Faithful) (field : String) :
    s.terms.holders field = (s.docs.filter fun _ d => Fields.words d.fields field ≠ []).docs := by
  refine DocSet.ext fun doc => ?_
  have hl (text : String) (l : PostingList) : (text, l) ∈ (s.terms.terms field).entries ↔
      s.terms.get? field text = some l ∧ True := by
    rw [and_true, TermIndex.get?, Dict.get?_eq_some_iff]
  rw [TermIndex.holders, h.mem_docsOf hl, Dict.mem_docs, Option.isSome_iff_exists]
  simp only [Dict.get?_filter_eq_some, and_true, decide_eq_true_eq, ne_eq, ← List.length_eq_zero_iff,
    ← Nat.pos_iff_ne_zero, List.length_pos_iff_exists_mem]

theorem Faithful.mem_holders (h : s.Faithful) {doc : Nat} : doc ∈ s.terms.holders field ↔
    ∃ d, s.docs.get? doc = some d ∧ Fields.words d.fields field ≠ [] := by
  rw [h.holders_eq, Dict.mem_docs, Option.isSome_iff_exists]
  simp only [Dict.get?_filter_eq_some, decide_eq_true_eq]

theorem Faithful.sum_holders (h : s.Faithful) (field : String) {g : Document → Nat}
    (hg : ∀ d, Fields.words d.fields field = [] → g d = 0) :
    ((s.terms.holders field).toList.map fun doc => ((s.docs.get? doc).map g).getD 0).sum =
      (s.docs.values.map g).sum := by
  have hkeys : (s.terms.holders field).toList =
      (s.docs.entries.filter fun e => Fields.words e.2.fields field ≠ []).map (·.1) := by
    rw [h.holders_eq]
    rfl
  have hget : ∀ e ∈ s.docs.entries.filter fun e => Fields.words e.2.fields field ≠ [],
      ((s.docs.get? e.1).map g).getD 0 = g e.2 := by
    intro e he
    rw [Dict.get?_eq_some_iff.2 (List.mem_of_mem_filter he)]
    rfl
  simp only [hkeys, Dict.values, List.map_map, Function.comp_def]
  rw [List.map_congr_left hget]
  exact sum_map_filter fun e _ he => hg e.2 (by simpa using he)

theorem Faithful.size_holders (h : s.Faithful) (field : String) :
    (s.terms.holders field).size =
      s.docs.values.countP fun d => Fields.words d.fields field ≠ [] := by
  rw [h.holders_eq, DocSet.size, Dict.docs, Dict.length_keys, Dict.size, Dict.filter,
    ← List.countP_eq_length_filter, Dict.values, List.countP_map]
  rfl

theorem Faithful.docCount_eq (h : s.Faithful) (field : String) :
    (s.terms.fieldStats field).docCount =
      ((s.terms.holders field).toList.map (s.valueCount field)).sum := by
  have hsum := h.sum_holders field (g := fun d => (Fields.lengths d.fields field).length)
    fun d hd => by rw [Fields.words_eq_nil.1 hd]; rfl
  rw [h.fieldStats_eq, List.length_flatMap, ← hsum]
  rfl

theorem Faithful.totalLength_eq (h : s.Faithful) (field : String) :
    (s.terms.fieldStats field).totalLength =
      ((s.terms.holders field).toList.map (s.tokenCount field)).sum := by
  have hsum := h.sum_holders field (g := fun d => (Fields.words d.fields field).length)
    fun d hd => by rw [hd]; rfl
  rw [h.fieldStats_eq, Shards.sum_flatMap]
  simp only [Fields.sum_lengths]
  rw [← hsum]
  rfl

theorem Faithful.valueCount_pos (h : s.Faithful) {doc : Nat} (hdoc : doc ∈ s.terms.holders field) :
    0 < s.valueCount field doc := by
  obtain ⟨d, hd, hw⟩ := h.mem_holders.1 hdoc
  rw [valueCount, hd]
  exact List.length_pos_iff.2 (mt Fields.words_eq_nil.2 hw)

theorem Faithful.size_le (h : s.Faithful) {text : String} {l : PostingList}
    (hl : s.terms.get? field text = some l) : l.size ≤ (s.terms.holders field).size := by
  have hfreq := h.docFreq_eq field text
  rw [hl] at hfreq
  change l.size = _ at hfreq
  rw [hfreq, h.size_holders]
  refine List.countP_mono_left fun d _ hd => ?_
  exact decide_eq_true (List.ne_nil_of_mem (Fields.isSome_posting?.1 hd))

theorem Faithful.forall_valueCount_pos (h : s.Faithful) (field : String) :
    ∀ n ∈ (s.terms.holders field).toList.map (s.valueCount field), 0 < n :=
  List.forall_mem_map.2 fun _ hdoc => h.valueCount_pos hdoc

theorem Faithful.size_le_docCount (h : s.Faithful) (field : String) :
    (s.terms.holders field).size ≤ (s.terms.fieldStats field).docCount := by
  rw [h.docCount_eq, DocSet.size, ← List.length_map (s.valueCount field)]
  exact List.length_le_sum_of_one_le _ (h.forall_valueCount_pos field)

theorem Faithful.docCount_eq_size_iff (h : s.Faithful) (field : String) :
    (s.terms.fieldStats field).docCount = (s.terms.holders field).size ↔
      ∀ doc d, s.docs.get? doc = some d → (Fields.lengths d.fields field).length ≤ 1 := by
  rw [h.docCount_eq, DocSet.size, ← List.length_map (s.valueCount field),
    sum_eq_length_iff (h.forall_valueCount_pos field), List.forall_mem_map]
  constructor
  · intro hone doc d hd
    by_cases hw : Fields.words d.fields field = []
    · rw [Fields.words_eq_nil.1 hw]
      exact Nat.zero_le 1
    · have hle := hone doc (h.mem_holders.2 ⟨d, hd, hw⟩)
      rwa [valueCount, hd] at hle
  · intro hone doc hdoc
    obtain ⟨d, hd, -⟩ := h.mem_holders.1 hdoc
    rw [valueCount, hd]
    exact hone doc d hd

/-- What is counted as documents are values, as many as the holders where none has two in the field. -/
theorem Reachable.fieldStats_holders (h : s.Reachable) (field : String) :
    (∀ doc ∈ s.terms.holders field, doc ∈ s.live) ∧
    (s.terms.fieldStats field).totalLength =
      ((s.terms.holders field).toList.map (s.tokenCount field)).sum ∧
    (∀ text l, s.terms.get? field text = some l → l.size ≤ (s.terms.holders field).size) ∧
    (s.terms.holders field).size ≤ (s.terms.fieldStats field).docCount ∧
    ((s.terms.fieldStats field).docCount = (s.terms.holders field).size ↔
      ∀ doc d, s.docs.get? doc = some d → (Fields.lengths d.fields field).length ≤ 1) ∧
    ((field ≠ idField ∧ field ≠ allField ∨ ∀ doc d, s.docs.get? doc = some d →
        ∃ schema analyzers r, Document.ofRecord schema analyzers r = .ok d ∧
          r.values.get? field = none) →
      (s.terms.fieldStats field).docCount = (s.terms.holders field).size) := by
  have hf := h.faithful
  refine ⟨fun doc hdoc => ?_, hf.totalLength_eq field, fun text l hl => hf.size_le hl,
    hf.size_le_docCount field, hf.docCount_eq_size_iff field,
    fun hcolumn => (hf.docCount_eq_size_iff field).2 fun doc d hd => ?_⟩
  · obtain ⟨d, hd, -⟩ := hf.mem_holders.1 hdoc
    exact Dict.mem_docs.2 (Option.isSome_of_eq_some hd)
  · have htexts : (Fields.texts d.fields field).length ≤ 1 := by
      obtain hname | hcolumn := hcolumn
      · obtain ⟨schema, analyzers, r, hr⟩ := h.exists_ofRecord hd
        exact Document.length_texts_le hr (.inl hname)
      · obtain ⟨schema, analyzers, r, hr, hv⟩ := hcolumn doc d hd
        exact Document.length_texts_le hr (.inr hv)
    rw [Fields.lengths, List.length_map]
    exact Nat.le_trans (List.length_filter_le ..) htexts

def textRecord (id name text : String) : Record := ⟨id, "t", 0, .ofList [(name, .string text)]⟩

theorem fieldStats_holders_replaced : ∃ d e : Document,
    Document.ofRecord .empty (.withDefault "standard") (textRecord "1" "w" "red fox") = .ok d ∧
    Document.ofRecord .empty (.withDefault "standard") (textRecord "2" "w" "fox") = .ok e ∧
    (((empty.upsert d).upsert e).upsert d).Reachable ∧
    ((((empty.upsert d).upsert e).upsert d).terms.holders "w").toList = [0, 1] ∧
    ((((empty.upsert d).upsert e).upsert d).terms.fieldStats "w") = ⟨2, 3⟩ ∧
    ((((empty.upsert d).upsert e).upsert d).terms.fieldStats "w").docCount =
      ((((empty.upsert d).upsert e).upsert d).terms.holders "w").size ∧
    ((((empty.upsert d).upsert e).upsert d).terms.fieldStats "w").totalLength =
      (((((empty.upsert d).upsert e).upsert d).terms.holders "w").toList.map
        ((((empty.upsert d).upsert e).upsert d).tokenCount "w")).sum := by
  obtain ⟨d, hd⟩ : ∃ d, Document.ofRecord .empty (.withDefault "standard")
    (textRecord "1" "w" "red fox") = .ok d := ⟨_, rfl⟩
  obtain ⟨e, he⟩ : ∃ e, Document.ofRecord .empty (.withDefault "standard")
    (textRecord "2" "w" "fox") = .ok e := ⟨_, rfl⟩
  have hreach : (((empty.upsert d).upsert e).upsert d).Reachable :=
    ((Reachable.empty.upsert hd).upsert he).upsert hd
  obtain ⟨-, hlength, -, -, -, hcount⟩ := hreach.fieldStats_holders "w"
  refine ⟨d, e, hd, he, hreach, ?_, ?_, hcount (.inl (by decide)), hlength⟩
  · cases hd
    cases he
    decide +kernel
  · cases hd
    cases he
    decide +kernel

/-- A column named like the field of identities makes two documents of one. -/
theorem fieldStats_idColumn : ∃ d : Document,
    Document.ofRecord .empty (.withDefault "keyword") (textRecord "1" "_id" "2") = .ok d ∧
    (empty.upsert d).Reachable ∧ ((empty.upsert d).terms.holders "_id").toList = [0] ∧
    ((empty.upsert d).terms.fieldStats "_id").docCount = 2 := by
  obtain ⟨d, hd⟩ : ∃ d, Document.ofRecord .empty (.withDefault "keyword")
    (textRecord "1" "_id" "2") = .ok d := ⟨_, rfl⟩
  refine ⟨d, hd, .upsert .empty hd, ?_, ?_⟩
  · cases hd
    decide +kernel
  · cases hd
    decide +kernel

end Segment

end Corpus
