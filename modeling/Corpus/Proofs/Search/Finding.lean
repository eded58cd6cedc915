import Corpus.Proofs.Drilldown.Filters
import Corpus.Proofs.Index.Columns
import Corpus.Proofs.Index.Reachable

/-! Whether a document is found by a plan once it is in an index, whatever else the index holds. -/

namespace Corpus

open Number

namespace Plan

def Finds (p : Plan) (d : Document) : Prop :=
  ∀ s : Segment, s.Reachable → ∀ (score : Scorer) (shards : Shards), ∃ scored doc,
    p.simplify.run score shards (s.upsert d) = .ok scored ∧
      (s.upsert d).docOf? d.id = some doc ∧ doc ∈ scored.docs

theorem Replaces.run {q p : Plan} {score : Scorer} {shards : Shards} {s : Segment}
    (h : Replaces score shards s q p) (hp : p.hasOversized = false) :
    q.run score shards s = .ok (p.evaluate score shards s) := by
  have hq : (q.hasOversized && q.meetsOversized score shards s) = false := by
    refine Bool.eq_false_iff.2 fun hm => Bool.eq_false_iff.1 hp ?_
    exact hasOversized_of_meets p (h.meets (Bool.and_eq_true_iff.1 hm).2)
  rw [Plan.run, hq, if_neg Bool.false_ne_true, h.evaluate]

theorem finds_iff {p : Plan} (hp : p.hasOversized = false) {d : Document}
    (hd : Fields.OnePath d.fields) {P : Prop}
    (h : ∀ score st, (p.score? score st d.fields).isSome ↔ P) : p.Finds d ↔ P := by
  have hin (s : Segment) (hs : s.Reachable) :
      ∃ doc, (s.upsert d).docOf? d.id = some doc ∧ (s.upsert d).docs.get? doc = some d := by
    have hdoc := hs.faithful.document?_upsert hd d.id
    rw [if_pos rfl] at hdoc
    obtain ⟨doc, hget, hid⟩ := ((hs.faithful.upsert hd).document?_eq_some).1 hdoc
    exact ⟨doc, (hs.faithful.upsert hd).docOf?_eq_some.2 ⟨d, hget, hid⟩, hget⟩
  have hrun (s : Segment) (hs : s.Reachable) (score : Scorer) (shards : Shards) :
      p.simplify.run score shards (s.upsert d) = .ok (p.scan score shards.statistics (s.upsert d)) := by
    rw [simplify, Replaces.run (replaces_simplifyBy _ p) hp, evaluate_eq_scan (hs.faithful.upsert hd)]
  have hmem {s : Segment} {doc : Nat} (hget : (s.upsert d).docs.get? doc = some d) (score : Scorer)
      (st : Statistics) : doc ∈ (p.scan score st (s.upsert d)).docs ↔ P := by
    rw [Dict.mem_docs, get?_scan, hget, Option.bind_some, h]
  constructor
  · intro hf
    obtain ⟨scored, doc, hok, hdoc, hm⟩ := hf .empty .empty (fun _ _ _ => 0) []
    obtain ⟨doc', hdoc', hget⟩ := hin .empty .empty
    rw [hdoc] at hdoc'
    cases hdoc'
    rw [hrun _ .empty] at hok
    cases hok
    exact (hmem hget ..).1 hm
  · intro hP s hs score shards
    obtain ⟨doc, hdoc, hget⟩ := hin s hs
    exact ⟨_, doc, hrun s hs score shards, hdoc, (hmem hget ..).2 hP⟩

theorem finds_of_isSome {p : Plan} (hp : p.hasOversized = false) {d : Document}
    (hd : Fields.OnePath d.fields) (h : ∀ score st, (p.score? score st d.fields).isSome) : p.Finds d :=
  (finds_iff hp hd fun score st => iff_of_true (h score st) trivial).2 trivial

section

variable {score : Scorer} {st : Statistics} {fields : Fields} {field : String} {boost : Binary32}

theorem posting?_of_held {tokens : List Token} (h : fields.held field = [.text tokens])
    (text : String) : fields.posting? field text = Posting.of? tokens text := by
  rw [Fields.posting?, Fields.texts, Fields.read_eq_filterMap_held, h]
  cases hp : Posting.of? tokens text <;> simp [Content.tokens?, hp]

theorem posting?_of_texts (h : fields.texts field = []) (text : String) :
    fields.posting? field text = none := by
  rw [Fields.posting?, h]
  rfl

theorem any_isPhrase_iff {t : Token} {rest tokens : List Token}
    (h : ∀ text, fields.posting? field text = Posting.of? tokens text) (ha : Ascending (t :: rest)) :
    (fields.places? field ((t :: rest).map fun u => (u.text, u.position - t.position))).any isPhrase ↔
      OccursIn (t :: rest) tokens := by
  rw [Fields.any_isPhrase_places?_iff, and_iff_right (by simp)]
  simp only [h, Posting.exists_of?_iff, List.mem_map, forall_exists_index, and_imp,
    forall_apply_eq_imp_iff₂]
  constructor
  · rintro ⟨start, hall⟩
    refine ⟨t.position, start, fun u hu => ?_⟩
    obtain ⟨v, hv, htext, hat⟩ := hall u hu
    have hle := ha.le_of_mem hu
    exact ⟨v, hv, htext, by omega⟩
  · rintro ⟨back, forth, hall⟩
    obtain ⟨w, -, -, hfirst⟩ := hall t (.head _)
    refine ⟨w.position, fun u hu => ?_⟩
    obtain ⟨v, hv, htext, hat⟩ := hall u hu
    have hle := ha.le_of_mem hu
    exact ⟨v, hv, htext, by omega⟩

theorem isSome_ofTokens_iff {phrase tokens : List Token}
    (h : ∀ text, fields.posting? field text = Posting.of? tokens text) (ha : Ascending phrase) :
    ((ofTokens field boost phrase).score? score st fields).isSome ↔
      phrase ≠ [] ∧ OccursIn phrase tokens := by
  match phrase with
  | [] => exact iff_of_false Bool.false_ne_true fun hne => hne.1 rfl
  | [t] =>
    change (Option.map _ _).isSome ↔ _
    rw [Option.isSome_map, h, Posting.isSome_of?, and_iff_right (List.cons_ne_nil _ _)]
    constructor
    · rintro ⟨u, hu, htext⟩
      exact ⟨t.position, u.position, List.forall_mem_singleton.2 ⟨u, hu, htext, Nat.add_comm ..⟩⟩
    · rintro ⟨back, forth, hall⟩
      obtain ⟨u, hu, htext, -⟩ := hall t (.head _)
      exact ⟨u, hu, htext⟩
  | t :: u :: rest =>
    change (Option.isSome (ite _ _ _)) = true ↔ _
    rw [Option.isSome_ite, any_isPhrase_iff h ha, and_iff_right (List.cons_ne_nil _ _)]

theorem isSome_term {tokens : List Token} (h : fields.held field = [.text tokens]) (text : String) :
    ((Plan.leaf (.term field text) boost).score? score st fields).isSome ↔
      ∃ t ∈ tokens, t.text = text := by
  change (Option.map _ _).isSome ↔ _
  rw [Option.isSome_map, posting?_of_held h, Posting.isSome_of?]

theorem isSome_ofTokens {tokens : List Token} (h : fields.held field = [.text tokens])
    (ha : Ascending tokens) (hne : tokens ≠ []) :
    ((ofTokens field boost tokens).score? score st fields).isSome :=
  (isSome_ofTokens_iff (posting?_of_held h) ha).2 ⟨hne, 0, 0, fun t ht => ⟨t, ht, rfl, rfl⟩⟩

theorem isSome_ofTokens_of_texts (h : fields.texts field = []) (tokens : List Token) :
    ¬((ofTokens field boost tokens).score? score st fields).isSome := by
  match tokens with
  | [] => exact Bool.false_ne_true
  | [t] =>
    change ¬(Option.map _ _).isSome
    rw [Option.isSome_map, posting?_of_texts h]
    exact Bool.false_ne_true
  | t :: u :: ts =>
    change ¬(Option.isSome (ite _ _ _)) = true
    rw [Option.isSome_ite, Fields.any_isPhrase_places?_iff]
    rintro ⟨-, start, hall⟩
    obtain ⟨p, hp, -⟩ := hall _ (.head _)
    rw [posting?_of_texts h] at hp
    cases hp

theorem isSome_equalTo {x : Binary64} (hx : x.isFinite) :
    ((equalTo field x boost).score? score st fields).isSome ↔ ∃ y ∈ fields.numbers field, x.eq y := by
  change (Option.isSome (ite _ _ _)) = true ↔ _
  have hnan := Binary.isNaN_of_isFinite hx
  rw [Option.isSome_ite, Fields.keys, List.any_map, List.any_filter, List.any_eq_true]
  refine exists_congr fun y => and_congr_right fun _ => ?_
  cases hy : y.isNaN with
  | true => simp [Binary.eq, hy]
  | false =>
    have hl := Bound.least_le_sortKey (b := .included x) hx hy
    have hu := Bound.sortKey_lt_limit (b := .included x) hx hy
    simp only [Bound.Below, Bound.Above, Binary.le, hnan, hy, Bool.not_false, Bool.true_and,
      decide_eq_true_eq] at hl hu
    simp only [Function.comp_apply, Bool.not_false, Bool.true_and, Bool.and_eq_true,
      decide_eq_true_eq, hl, hu, Binary.eq, hnan, hy]
    omega

theorem isSome_under (h : Fields.OnePath fields) (path : Path) :
    ((Plan.leaf (.under field path) boost).score? score st fields).isSome ↔
      ∃ p ∈ fields.paths field, path <+: p := by
  change (Option.isSome (ite _ _ _)) = true ↔ _
  rw [Option.isSome_ite, Option.any_eq_true]
  simp only [Fields.mem_paths_of_onePath h, List.isPrefixOf_iff_prefix]

end

end Plan

end Corpus
