import Corpus.Proofs.Query.Negated
import Corpus.Proofs.Query.Single
import Corpus.Proofs.Service.Algebra
import Mathlib.Order.BooleanAlgebra.Set

/-! What NOT in front of a query finds.  In parentheses each NOT takes the other ids of the index.  Without
them a clause is negated once at most, however many NOTs there are. -/

namespace Corpus

open Number Text

namespace Plan

variable {schema : Schema} {analyzers : Analyzers} {q : Query} {c : Clause} {p : Plan}

theorem runAll_must (p : Plan) : runAll [.prune, .unwrap] (.bool [p] [] [] 1) = p := by
  cases p <;> rfl

theorem Of.of_must (h : Of schema analyzers (.bool [q] [] [] none) p) : Of schema analyzers q p := by
  obtain ⟨r, hr, rfl⟩ := h
  rw [ofQuery, ofQueries, ofQueries] at hr
  cases hq : ofQuery schema analyzers q with
  | error e => rw [hq] at hr; cases hr
  | ok r' =>
    rw [hq] at hr
    cases hr
    exact ⟨r', hq, (runAll_must r'.simplify).symm⟩

theorem Of.of_combine (hc : c.occur ≠ .mustNot) (h : Of schema analyzers (Clause.combine [c]) p) :
    Of schema analyzers c.query p := by
  obtain ⟨occur, q⟩ := c
  cases occur with
  | should => exact h
  | must => exact h.of_must
  | mustNot => exact absurd rfl hc

variable {score : Scorer} {shards : Shards}

theorem any_fails_not (h : shards.any (p.fails score shards) = false) :
    shards.any ((runAll [.prune, .unwrap] (.bool [] [] [p] 1)).fails score shards) = false := by
  refine List.any_eq_false.2 fun segment hs hnot => List.any_eq_false.1 h segment hs ?_
  rw [fails, Bool.and_eq_true] at hnot ⊢
  have hmeets := (Replaces.runAll _ _).meets hnot.2
  simp only [meetsOversized, meetsInAny, meetsWhileLeft, Bool.false_or, Bool.or_false,
    Bool.and_eq_true] at hmeets
  exact ⟨hasOversized_of_meets p hmeets.2, hmeets.2⟩

end Plan

namespace Service

variable {s : Service} {table text text' : String} {t : Table} {ids ids' : Set String} {p : Plan}
  {q : Query} {c : Clause}

theorem Finds.unique (h : s.Finds table text ids) (h' : s.Finds table text ids') : ids = ids' :=
  Set.ext fun id => (h.mem_iff id).trans (h'.mem_iff id).symm

section

variable (hs : s.Sound) (hc : s.Coherent) (ht : s.catalog.get? table = some t)
  (hn : t.shards.docCount < UInt64.size)

include hs hc ht hn

theorem Finds.exists_plan (h : s.Finds table text ids) : ∃ q p,
    Query.parse allField text = .ok q ∧ Plan.Of t.schema s.analyzers q p ∧
      t.shards.any (p.fails scorer t.shards) = false ∧ ids = t.shards.found scorer p := by
  obtain ⟨hits, hsearch⟩ := h.answered 0 1
  rw [fst_search hs hc, ht] at hsearch
  dsimp only at hsearch
  cases hp : Plan.ofSearch t.schema s.analyzers text with
  | error e => rw [Shards.search_of_error hp] at hsearch; cases hsearch
  | ok p =>
    rw [Shards.search_of_ok hp, if_neg Nat.one_ne_zero] at hsearch
    have hfails := Plan.any_fails_of_window (hs.shards ht).faithful hsearch
    obtain ⟨q, hq, hof⟩ := Plan.ofSearch_eq_ok.1 hp
    exact ⟨q, p, hq, hof, hfails, h.unique (finds_found hs hc ht hn hp hfails)⟩

theorem finds_of (hq : Query.parse allField text = .ok q) (hof : Plan.Of t.schema s.analyzers q p)
    (hf : t.shards.any (p.fails scorer t.shards) = false) :
    s.Finds table text (t.shards.found scorer p) :=
  finds_found hs hc ht hn (Plan.ofSearch_eq_ok.2 ⟨q, hq, hof⟩) hf

theorem Finds.congr (h : s.Finds table text ids)
    (hq : Query.parse allField text' = Query.parse allField text) : s.Finds table text' ids := by
  obtain ⟨q, p, hparse, hof, hfails, rfl⟩ := h.exists_plan hs hc ht hn
  exact finds_of hs hc ht hn (hq.trans hparse) hof hfails

theorem finds_mustNot (hq : Query.parse allField text = .ok (.bool [] [] [q] none))
    (hof : Plan.Of t.schema s.analyzers q p) (hf : t.shards.any (p.fails scorer t.shards) = false) :
    s.Finds table text (t.shards.live \ t.shards.found scorer p) := by
  have hshards := hs.shards ht
  have hfind := finds_of hs hc ht hn hq (.bool .nil .nil (.cons hof .nil)) (Plan.any_fails_not hf)
  have hcongr : t.shards.found scorer (Plan.runAll [.prune, .unwrap] (.bool [] [] [p] 1)) =
      t.shards.found scorer (.bool [] [] [p] 1) :=
    Shards.found_congr hshards.faithful fun _ => .runAll ..
  rwa [hcongr, hshards.found_not] at hfind

theorem Finds.enclosed (h : s.Finds table text ids) (hw : trim text.toList ≠ []) :
    s.Finds table ("(" ++ text ++ ")") ids := by
  obtain ⟨q, p, hq, -⟩ := h.exists_plan hs hc ht hn
  exact h.congr hs hc ht hn ((Query.isClause_enclosed hw hq).parse.trans hq.symm)

theorem Finds.not_enclosed (h : s.Finds table text ids) (hw : trim text.toList ≠ []) :
    s.Finds table ("NOT (" ++ text ++ ")") (t.shards.live \ ids) := by
  obtain ⟨q, p, hq, hof, hfails, rfl⟩ := h.exists_plan hs hc ht hn
  exact finds_mustNot hs hc ht hn (Query.parse_not hw hq) hof hfails

theorem Finds.subset_live (h : s.Finds table text ids) : ids ⊆ t.shards.live := by
  obtain ⟨q, p, -, -, -, rfl⟩ := h.exists_plan hs hc ht hn
  exact fun _ => (hs.shards ht).mem_live_of_found

theorem Finds.negated (h : s.Finds table text ids) (hw : trim text.toList ≠ []) (n : Nat) :
    s.Finds table (Query.negated n text) (if n % 2 = 0 then ids else t.shards.live \ ids) := by
  have hlive := h.subset_live hs hc ht hn
  induction n with
  | zero => exact h
  | succ n ih =>
    have hnot := ih.not_enclosed hs hc ht hn (Query.trim_negated_ne_nil hw n)
    by_cases heven : n % 2 = 0
    · rw [if_pos heven] at hnot
      rw [if_neg (by omega)]
      exact hnot
    · rw [if_neg heven, Set.sdiff_sdiff_cancel_left hlive] at hnot
      rw [if_pos (by omega)]
      exact hnot

theorem Finds.nots (h : s.Finds table text ids) (hc' : Query.IsClause allField text c) (n : Nat) :
    s.Finds table (Query.nots (n + 1) text)
      (if c.occur = .mustNot then ids else t.shards.live \ ids) := by
  have hparse := (Query.isClause_nots hc' n).parse
  split
  next ho =>
    obtain ⟨occur, q⟩ := c
    cases ho
    exact h.congr hs hc ht hn (hparse.trans hc'.parse.symm)
  next ho =>
    obtain ⟨q, p, hq, hof, hfails, rfl⟩ := h.exists_plan hs hc ht hn
    rw [hc'.parse] at hq
    cases hq
    have hquery : Plan.Of t.schema s.analyzers c.query p := hof.of_combine ho
    exact finds_mustNot hs hc ht hn hparse hquery hfails

end

/-- NOTs before a clause are as one, unless the clause is prohibited already. -/
theorem finds_negated {config : Config} {windows : Bool}
    (h : Service.start config windows = .ok s) (moves : List Move)
    (ht : (s.after moves).catalog.get? table = some t) (hn : t.shards.docCount < UInt64.size)
    (hw : trim text.toList ≠ []) :
    (∀ p, Plan.ofSearch t.schema (s.after moves).analyzers text = .ok p → p.hasOversized = false →
      ∃ ids, (s.after moves).Finds table text ids) ∧
    ∀ ids, (s.after moves).Finds table text ids →
      (s.after moves).Finds table ("(" ++ text ++ ")") ids ∧
      (∀ n, (s.after moves).Finds table (Query.negated n text)
        (if n % 2 = 0 then ids else t.shards.live \ ids)) ∧
      (∀ n, (s.after moves).Finds table (Query.nots (n + 1) ("(" ++ text ++ ")"))
        (t.shards.live \ ids)) ∧
      ∀ c, Query.IsClause allField text c → ∀ n,
        (s.after moves).Finds table (Query.nots (n + 1) text)
          (if c.occur = .mustNot then ids else t.shards.live \ ids) := by
  obtain ⟨hs, hc⟩ := sound_after h moves
  generalize s.after moves = s at hs hc ht
  constructor
  · intro p hp ho
    exact ⟨_, finds_found hs hc ht hn hp (Shards.any_fails_of_hasOversized (fun _ => .refl p) ho)⟩
  · intro ids hfind
    have henclosed := hfind.enclosed hs hc ht hn hw
    obtain ⟨q, p, hq, -⟩ := hfind.exists_plan hs hc ht hn
    refine ⟨henclosed, hfind.negated hs hc ht hn hw, fun n => ?_, fun c hclause n => ?_⟩
    · exact henclosed.nots hs hc ht hn (Query.isClause_enclosed hw hq) n
    · exact hfind.nots hs hc ht hn hclause n

theorem finds_negated_twoFields : ∃ (s : Service) (t : Table) (ids : Set String),
    Service.start { Config.standard with indexShards := 2, defaultAnalyzer := "keyword" } true =
      .ok s ∧
    (s.after twoFields).Finds "t" "x:a" ids ∧
    (s.after twoFields).Finds "t" "NOT x:a" (t.shards.live \ ids) ∧
    (s.after twoFields).Finds "t" "NOT (NOT (x:a))" ids ∧ "3" ∈ t.shards.live \ ids := by
  have hrun : (Service.start { Config.standard with
      indexShards := 2, defaultAnalyzer := "keyword" } true).toOption.any fun s =>
        ((s.after twoFields).catalog.get? "t").any (fun t =>
          t.shards.docCount = 3 &&
          (Plan.ofSearch t.schema (s.after twoFields).analyzers "x:a").toOption.any
            (!·.hasOversized)) &&
        ((search "t" "NOT x:a" 0 1).perform (s.after twoFields)).1.toOption.any
          fun hits => hits.any (·.id = "3") := by
    decide +kernel
  simp only [Option.any_eq_true, Bool.and_eq_true, decide_eq_true_eq, Bool.not_eq_true',
    List.any_eq_true] at hrun
  obtain ⟨s, hs, ⟨t, ht, hn, p, hp, ho⟩, hits, hhits, hit⟩ := hrun
  have h := eq_ok_of_toOption hs
  have hclause : Query.IsClause allField "x:a" ⟨.should, .field "x" (.term "a") none⟩ := by
    rw [show "x:a" = (Pattern.term "a").ask "x" by decide +kernel]
    exact ⟨[], Query.clause_ask (by decide +kernel)
      ⟨by decide, by decide +kernel, List.forall_mem_singleton.2 rfl, by decide⟩, rfl⟩
  have hw : trim "x:a".toList ≠ [] := by decide
  obtain ⟨hanswered, hfinds⟩ := finds_negated h twoFields ht (hn ▸ by decide) hw
  obtain ⟨ids, hids⟩ := hanswered p (eq_ok_of_toOption hp) ho
  obtain ⟨-, hnegated, -, hnots⟩ := hfinds ids hids
  have hnot := hnots _ hclause 0
  exact ⟨s, t, ids, h, hids, hnot, hnegated 2,
    (hnot.mem_iff "3").2 ⟨0, 1, hits, eq_ok_of_toOption hhits, hit⟩⟩

def barePut : List Move :=
  [.ask (.createTable "t"), .ask (.put [⟨"1", "t", 0, .empty⟩]), .work 1 0]

/-- The second NOT of two does not take back the first one, unless it stands in parentheses. -/
theorem not_not_finds_none : ∃ s : Service,
    Service.start { Config.standard with indexShards := 1, defaultAnalyzer := "keyword" } true =
      .ok s ∧
    ((search "t" "(*:*)" 0 10).perform (s.after barePut)).1 = .ok [⟨"1", 1⟩] ∧
    ((search "t" "NOT NOT (*:*)" 0 10).perform (s.after barePut)).1 = .ok [] ∧
    ((search "t" "NOT (NOT (*:*))" 0 10).perform (s.after barePut)).1 = .ok [⟨"1", 1⟩] := by
  have hrun : (Service.start { Config.standard with
      indexShards := 1, defaultAnalyzer := "keyword" } true).toOption.any fun s =>
        ((search "t" "(*:*)" 0 10).perform (s.after barePut)).1.toOption = some [⟨"1", 1⟩] &&
        ((search "t" "NOT NOT (*:*)" 0 10).perform (s.after barePut)).1.toOption = some [] &&
        ((search "t" "NOT (NOT (*:*))" 0 10).perform (s.after barePut)).1.toOption =
          some [⟨"1", 1⟩] := by
    decide +kernel
  simp only [Option.any_eq_true, Bool.and_eq_true, decide_eq_true_eq] at hrun
  obtain ⟨s, hs, ⟨hone, hnone⟩, htwice⟩ := hrun
  exact ⟨s, eq_ok_of_toOption hs, eq_ok_of_toOption hone, eq_ok_of_toOption hnone,
    eq_ok_of_toOption htwice⟩

end Service

end Corpus
