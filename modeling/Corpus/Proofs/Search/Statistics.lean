import Corpus.Proofs.Index.Shards
import Corpus.Proofs.Search.Scan

/-! The statistics of an index are those of its documents, in whatever order and segments they are. -/

namespace Corpus

open Number

namespace Statistics

def of (docs : List Document) : Statistics where
  docFreq field text := docs.countP fun d => (Fields.posting? d.fields field text).isSome
  mean field :=
    let lengths := docs.flatMap (Fields.lengths ·.fields field)
    ⟨lengths.length,
      if lengths.length = 0 then 0 else .ofNat lengths.sum / .ofNat lengths.length⟩

theorem of_perm {docs docs' : List Document} (h : docs.Perm docs') : of docs = of docs' := by
  have hl (field : String) := h.flatMap_right (Fields.lengths ·.fields field)
  simp only [of, h.countP_eq, (hl _).length_eq, (hl _).sum_nat]

end Statistics

namespace Segment.Faithful

variable {s : Segment}

theorem docFreq_eq (h : s.Faithful) (field text : String) :
    ((s.terms.get? field text).map (·.size)).getD 0 =
      s.docs.values.countP fun d => (Fields.posting? d.fields field text).isSome := by
  have hl : (s.terms.get? field text).getD .empty =
      s.docs.filterMapValues (Fields.posting? ·.fields field text) :=
    Dict.ext_get? fun doc => by
      rw [Dict.getD_empty_get?, h.posting?_eq, Dict.get?_filterMapValues]
  have hsize : ((s.terms.get? field text).map (·.size)).getD 0 =
      ((s.terms.get? field text).getD .empty).size := by
    cases s.terms.get? field text <;> rfl
  rw [hsize, hl, Dict.size_eq_length_values, Dict.values_filterMapValues,
    List.length_filterMap_eq_countP]

theorem fieldStats_eq (h : s.Faithful) (field : String) :
    s.terms.fieldStats field =
      ⟨(s.docs.values.flatMap (Fields.lengths ·.fields field)).length,
        (s.docs.values.flatMap (Fields.lengths ·.fields field)).sum⟩ := by
  rw [TermIndex.fieldStats, h.terms.stats, FieldStats.of?]
  split
  next hn => rw [hn]; rfl
  next => rfl

end Segment.Faithful

namespace Shards

variable {s : Shards}

theorem docFreq_eq (h : ∀ segment ∈ s, segment.Faithful) (field text : String) :
    s.docFreq field text =
      s.documents.countP fun d => (Fields.posting? d.fields field text).isSome := by
  rw [docFreq, documents, List.countP_flatMap, total_eq_sum]
  exact congrArg _ (List.map_congr_left fun segment hs => (h segment hs).docFreq_eq field text)

theorem flatMap_documents (s : Shards) (f : Document → List α) :
    s.documents.flatMap f = s.flatMap fun segment => segment.docs.values.flatMap f :=
  List.flatMap_assoc

theorem sum_flatMap (l : List α) (f : α → List Nat) :
    (l.flatMap f).sum = (l.map fun a => (f a).sum).sum := by
  induction l with
  | nil => rfl
  | cons a rest ih => rw [List.flatMap_cons, List.sum_append, ih, List.map_cons, List.sum_cons]

theorem fieldMean_eq (h : ∀ segment ∈ s, segment.Faithful) (field : String) :
    s.fieldMean field = (Statistics.of s.documents).mean field := by
  have hdocs : (s.map (·.terms.fieldStats field |>.docCount)).sum =
      (s.documents.flatMap (Fields.lengths ·.fields field)).length := by
    rw [flatMap_documents, List.length_flatMap]
    exact congrArg _ (List.map_congr_left fun segment hs => by rw [(h segment hs).fieldStats_eq])
  have hsum : (s.map (·.terms.fieldStats field |>.totalLength)).sum =
      (s.documents.flatMap (Fields.lengths ·.fields field)).sum := by
    rw [flatMap_documents, sum_flatMap]
    exact congrArg _ (List.map_congr_left fun segment hs => by rw [(h segment hs).fieldStats_eq])
  simp only [fieldMean, total_eq_sum, hdocs, hsum, Statistics.of]

theorem statistics_eq (h : ∀ segment ∈ s, segment.Faithful) :
    s.statistics = Statistics.of s.documents := by
  have hfreq : s.docFreq = (Statistics.of s.documents).docFreq :=
    funext fun field => funext (docFreq_eq h field)
  rw [statistics, hfreq, funext (fieldMean_eq h)]

end Shards

end Corpus
