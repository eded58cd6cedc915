import Corpus.Proofs.Query.Single
import Corpus.Proofs.Search.Algebra
import Corpus.Proofs.Search.Finding

/-! Phrases that name no field.  They are looked for in all text of a record, where a gap in the phrase can
go over from one column to the next, and nothing else can. -/

namespace Corpus

open Query

theorem Document.posting?_allField {schema : Schema} {analyzers : Analyzers} {r : Record} {d : Document}
    (h : ofRecord schema analyzers r = .ok d) (hall : r.values.get? allField = none) :
    ∃ found, contents schema analyzers r.values.entries = .ok found ∧
      ∀ text, Fields.posting? d.fields allField text = Posting.of? (allTokens found) text := by
  obtain ⟨found, hc, htexts⟩ := ofRecord_texts h
  refine ⟨found, hc, fun text => ?_⟩
  rw [Fields.posting?, htexts, texts_columnFields_eq_nil hc hall, if_neg (by decide), List.nil_append,
    List.nil_append]
  by_cases hnil : allTokens found = []
  · rw [if_neg fun h => h.2 hnil, hnil]
    rfl
  · rw [if_pos ⟨rfl, hnil⟩]
    cases hp : Posting.of? (allTokens found) text <;> simp [hp]

namespace Plan

theorem simplify_ofTokens (field : String) (boost : Number.Binary32) (tokens : List Token) :
    (ofTokens field boost tokens).simplify = ofTokens field boost tokens ∧
      (ofTokens field boost tokens).hasOversized = false := by
  match tokens with
  | [] => exact ⟨rfl, rfl⟩
  | [_] => exact ⟨rfl, rfl⟩
  | _ :: _ :: _ => exact ⟨rfl, rfl⟩

theorem ofSearch_quoted (schema : Schema) (analyzers : Analyzers) {text : String}
    (h : '"' ∉ text.toList) : ofSearch schema analyzers (quoted text) =
      .ok (ofTokens allField 1 (analyzers.default.analyze text)) := by
  have hindexing : schema.indexing allField = .text none := rfl
  refine ofSearch_eq_ok.2 ⟨_, parse_quoted h, ofTokens allField 1 (analyzers.default.analyze text), ?_,
    (simplify_ofTokens ..).1⟩
  change ofValue schema analyzers allField text 1 = _
  rw [ofValue, hindexing]
  rfl

/-- A phrase without gaps finds the records that have it in a single text column. -/
theorem finds_quoted {schema : Schema} {analyzers : Analyzers} {r : Record} {d : Document}
    (h : Document.ofRecord schema analyzers r = .ok d) (hall : r.values.get? allField = none)
    {text : String} (hquote : '"' ∉ text.toList) :
    ∃ p, ofSearch schema analyzers (quoted text) = .ok p ∧
      ∀ (s : Segment) (doc : Nat), s.Reachable → s.docs.get? doc = some d →
        ∀ (score : Scorer) (shards : Shards), ∃ scored, p.run score shards s = .ok scored ∧
          (doc ∈ scored.docs → ∀ part, part <:+: analyzers.default.analyze text → part ≠ [] →
            Unbroken part → r.HasInColumn schema analyzers part) ∧
          (analyzers.default.analyze text ≠ [] →
            r.HasInColumn schema analyzers (analyzers.default.analyze text) → doc ∈ scored.docs) ∧
          (Unbroken (analyzers.default.analyze text) →
            (doc ∈ scored.docs ↔ analyzers.default.analyze text ≠ [] ∧
              r.HasInColumn schema analyzers (analyzers.default.analyze text))) := by
  refine ⟨_, ofSearch_quoted schema analyzers hquote, fun s doc hs hd score shards => ?_⟩
  refine ⟨_, run_of_hasOversized (simplify_ofTokens ..).2 score shards s, ?_⟩
  obtain ⟨found, hc, hposting⟩ := Document.posting?_allField h hall
  generalize hphrase : analyzers.default.analyze text = phrase
  have hascending : Ascending phrase := hphrase ▸ Analyzer.ascending_analyze ..
  have hmem : doc ∈ ((ofTokens allField 1 phrase).evaluate score shards s).docs ↔
      phrase ≠ [] ∧ OccursIn phrase (Document.allTokens found) := by
    rw [Dict.mem_docs, evaluate_eq_scan hs.faithful, get?_scan, hd, Option.bind_some]
    exact isSome_ofTokens_iff hposting hascending
  have hparts : ∀ part, part <:+: phrase → part ≠ [] → Unbroken part →
      OccursIn phrase (Document.allTokens found) → r.HasInColumn schema analyzers part :=
    fun part hpart hne hu hoccurs =>
      Document.hasInColumn_of_occursIn hc hu hne (hoccurs.of_subset hpart.subset)
  have hcolumn : r.HasInColumn schema analyzers phrase → OccursIn phrase (Document.allTokens found) :=
    Document.occursIn_allTokens hc
  rw [hmem]
  refine ⟨fun hfound part hpart hne hu => hparts part hpart hne hu hfound.2,
    fun hne hin => ⟨hne, hcolumn hin⟩, fun hu => and_congr_right fun hne => ⟨?_, hcolumn⟩⟩
  exact hparts phrase List.infix_rfl hne hu

def foxAndDog : Record := ⟨"1", "t", 0, .ofList [("a", .string "red fox"), ("b", .string "dog")]⟩

theorem finds_quoted_redFox : ∃ d p,
    Document.ofRecord .empty (.withDefault "simple") foxAndDog = .ok d ∧
    ofSearch .empty (.withDefault "simple") (quoted "red fox") = .ok p ∧
    (Segment.empty.upsert d).Reachable ∧ (Segment.empty.upsert d).docs.get? 0 = some d ∧
    ∃ scored, p.run (fun _ _ _ => 1) [] (Segment.empty.upsert d) = .ok scored ∧ 0 ∈ scored.docs ∧
      foxAndDog.HasInColumn .empty (.withDefault "simple")
        ((Analyzers.withDefault "simple").default.analyze "red fox") := by
  obtain ⟨d, hd⟩ : ∃ d, Document.ofRecord .empty (.withDefault "simple") foxAndDog = .ok d := ⟨_, rfl⟩
  have hreach : (Segment.empty.upsert d).Reachable := .upsert .empty hd
  have hget : (Segment.empty.upsert d).docs.get? 0 = some d := Segment.get?_docs_upsert ..
  have hquote : '"' ∉ "red fox".toList := by decide
  obtain ⟨p, hp, hfinds⟩ := finds_quoted hd (by decide) hquote
  obtain ⟨scored, hrun, -, -, hexact⟩ := hfinds _ 0 hreach hget (fun _ _ _ => 1) []
  have hkeeps (words : List String) : .stopWords words ∉ Analyzer.simple.filters := by
    simp [Analyzer.simple]
  have hunbroken : Unbroken ((Analyzers.withDefault "simple").default.analyze "red fox") :=
    Analyzer.unbroken_analyze hkeeps _
  have hin : foxAndDog.HasInColumn .empty (.withDefault "simple")
      ((Analyzers.withDefault "simple").default.analyze "red fox") :=
    ⟨"a", .string "red fox", _, rfl, rfl, rfl, 0, 0, fun t ht => ⟨t, ht, rfl, rfl⟩⟩
  exact ⟨d, p, hd, hp, hreach, hget, scored, hrun, (hexact hunbroken).2 ⟨by decide +kernel, hin⟩, hin⟩

/-- A word that is dropped from a phrase leaves a gap that goes over from one column to the next. -/
theorem quoted_goesOver : ∃ d p,
    Document.ofRecord .empty (.withDefault "standard") foxAndDog = .ok d ∧
    (∀ name ∈ [idField, timestampField, allField], foxAndDog.values.get? name = none) ∧
    ofSearch .empty (.withDefault "standard") (quoted "fox the dog") = .ok p ∧
    (Segment.empty.upsert d).Reachable ∧ (Segment.empty.upsert d).docs.get? 0 = some d ∧
    ∃ scored, p.run (fun _ _ _ => 1) [] (Segment.empty.upsert d) = .ok scored ∧ 0 ∈ scored.docs ∧
      ¬foxAndDog.HasInColumn .empty (.withDefault "standard")
        ((Analyzers.withDefault "standard").default.analyze "fox the dog") := by
  have hrun : (do
      let d ← Document.ofRecord .empty (.withDefault "standard") foxAndDog
      let p ← ofSearch .empty (.withDefault "standard") (quoted "fox the dog")
      let scored ← p.run (fun _ _ _ => 1) [] (Segment.empty.upsert d)
      return decide (0 ∈ scored.docs)).toOption = some true := by
    decide +kernel
  have hapart : foxAndDog.values.entries.all fun e =>
      ((Document.indexed? .empty (.withDefault "standard") e.1 e.2).toOption.bind
        (·.bind Content.tokens?)).all fun tokens =>
          ((Analyzers.withDefault "standard").default.analyze "fox the dog").any fun t =>
            tokens.all (·.text ≠ t.text) := by
    decide +kernel
  obtain ⟨d, hd, hrun⟩ := bind_eq_ok.1 (eq_ok_of_toOption hrun)
  obtain ⟨p, hp, hrun⟩ := bind_eq_ok.1 hrun
  obtain ⟨scored, hscored, hmem⟩ := bind_eq_ok.1 hrun
  refine ⟨d, p, hd, by decide, hp, .upsert .empty hd, Segment.get?_docs_upsert .., scored, hscored,
    of_decide_eq_true (Except.ok.inj hmem), ?_⟩
  rintro ⟨name, value, tokens, hv, -, hi, back, forth, hoccurs⟩
  have hcolumn := List.all_eq_true.1 hapart (name, value) (Dict.get?_eq_some_iff.1 hv)
  rw [hi] at hcolumn
  obtain ⟨t, ht, hother⟩ := List.any_eq_true.1 hcolumn
  obtain ⟨u, hu, htext, -⟩ := hoccurs t ht
  exact of_decide_eq_true (List.all_eq_true.1 hother u hu) htext

end Plan

end Corpus
