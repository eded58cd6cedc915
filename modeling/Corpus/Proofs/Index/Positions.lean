import Corpus.Plan.OfQuery
import Corpus.Proofs.Index.Columns

/-! Where tokens stand.  Positions grow through the tokens of a text, through the phrase that is planned for
it, and through all text of a record, where tokens of two columns are two positions apart at least. -/

namespace Corpus

/-- Whether the terms of a phrase come one behind the other, from its first term on. -/
def Criterion.Spaced : Criterion → Prop
  | .phrase _ terms => (terms.map (·.2)).head? = some 0 ∧ (terms.map (·.2)).Pairwise (· < ·)
  | _ => True

namespace Plan

open Number

theorem ofTokens_eq_phrase {tokens : List Token} (ha : Ascending tokens) (hl : 2 ≤ tokens.length)
    (field : String) (boost : Binary32) :
    ∃ first terms, ofTokens field boost tokens = .leaf (.phrase field terms) boost ∧
      terms.map (·.1) = tokens.map (·.text) ∧ terms.map (first + ·.2) = tokens.map (·.position) ∧
      (Criterion.phrase field terms).Spaced := by
  match tokens with
  | [] => cases hl
  | [_] => exact absurd hl (Nat.not_succ_le_self 1)
  | t :: u :: rest =>
    refine ⟨t.position, _, rfl, ?_, ?_, ?_, ?_⟩
    · rw [List.map_map]
      rfl
    · rw [List.map_map]
      exact List.map_congr_left fun v hv => Nat.add_sub_cancel' (ha.le_of_mem hv)
    · exact congrArg some (Nat.sub_self t.position)
    · rw [List.map_map]
      refine List.pairwise_map.2 (ha.imp_of_mem fun hv _ hlt => ?_)
      exact Nat.sub_lt_sub_right (ha.le_of_mem hv) hlt

/-- Tokens whose places in a phrase can be told from their positions. -/
structure Measured (tokens : List Token) : Prop where
  ascending : Ascending tokens
  first_le : ∀ first ∈ tokens.head?, ∀ t ∈ tokens, first.position ≤ t.position
  phrase : ∀ field boost, 2 ≤ tokens.length → ∃ first terms,
    ofTokens field boost tokens = .leaf (.phrase field terms) boost ∧
      terms.map (·.1) = tokens.map (·.text) ∧ terms.map (first + ·.2) = tokens.map (·.position) ∧
      (Criterion.phrase field terms).Spaced

theorem measured_of_ascending {tokens : List Token} (ha : Ascending tokens) : Measured tokens where
  ascending := ha
  first_le first hfirst t ht := by
    cases tokens with
    | nil => cases ht
    | cons u rest =>
      cases hfirst
      exact ha.le_of_mem ht
  phrase field boost hl := ofTokens_eq_phrase ha hl field boost

inductive Spaced : Plan → Prop
  | nothing : Spaced .nothing
  | leaf {c : Criterion} {boost : Binary32} (h : c.Spaced) : Spaced (.leaf c boost)
  | bool {must should mustNot : List Plan} {boost : Binary32} (hm : ∀ p ∈ must, Spaced p)
    (hs : ∀ p ∈ should, Spaced p) (hn : ∀ p ∈ mustNot, Spaced p) : Spaced (.bool must should mustNot boost)

theorem spaced_anyOf {ps : List Plan} (h : ∀ p ∈ ps, p.Spaced) : (anyOf ps).Spaced := by
  match ps with
  | [] => exact .nothing
  | [p] => exact h p (.head _)
  | p :: q :: rest => exact .bool nofun h nofun

theorem spaced_ofTokens {tokens : List Token} (ha : Ascending tokens) (field : String) (boost : Binary32) :
    (ofTokens field boost tokens).Spaced := by
  match tokens with
  | [] => exact .nothing
  | [t] =>
    rw [ofTokens]
    exact .leaf trivial
  | t :: u :: rest =>
    obtain ⟨_, _, hphrase, -, -, hspaced⟩ := ofTokens_eq_phrase ha (by simp) field boost
    exact hphrase ▸ .leaf hspaced

def Spaces (x : Except Error Plan) : Prop := ∀ p, x = .ok p → p.Spaced

namespace Spaces

theorem ok {p : Plan} (h : p.Spaced) : Spaces (.ok p) := by
  intro q hq
  cases hq
  exact h

theorem error (e : Error) : Spaces (.error e) := nofun

theorem map {α : Type} {x : Except Error α} {f : α → Plan} (h : ∀ a, (f a).Spaced) : Spaces (x.map f) := by
  intro p hp
  obtain ⟨a, -, rfl⟩ := map_eq_ok.1 hp
  exact h a

theorem bind {α : Type} {x : Except Error α} {f : α → Except Error Plan} (h : ∀ a, Spaces (f a)) :
    Spaces (x >>= f) := by
  intro p hp
  obtain ⟨a, -, hp⟩ := bind_eq_ok.1 hp
  exact h a p hp

end Spaces

section

variable (schema : Schema) (analyzers : Analyzers)

theorem spaces_ofValue (field text : String) (boost : Binary32) :
    Spaces (ofValue schema analyzers field text boost) := by
  rw [ofValue]
  split
  next => exact .ok (.leaf trivial)
  next a _ => exact .map fun a => spaced_ofTokens (a.ascending_analyze text) field boost
  next => exact .ok (.leaf trivial)
  next => exact .map fun x => .leaf trivial
  next => exact .ok (.leaf trivial)
  next => exact .ok .nothing
  next => exact .ok .nothing
  next =>
    refine .ok (spaced_anyOf fun p hp => ?_)
    obtain hp | hp := List.mem_append.1 hp
    · obtain hp | hp := List.mem_append.1 hp
      · split at hp
        next => cases hp
        next =>
          rw [List.mem_singleton.1 hp]
          exact spaced_ofTokens (analyzers.default.ascending_analyze text) field boost
      · obtain ⟨x, -, rfl⟩ := Option.map_eq_some_iff.1 (Option.mem_toList.1 hp)
        exact .leaf trivial
    · split at hp
      next => cases hp
      next =>
        rw [List.mem_singleton.1 hp]
        exact .leaf trivial

theorem spaces_ofPattern (field : String) (boost : Binary32) (p : Pattern) :
    Spaces (ofPattern schema analyzers field boost p) := by
  have whereEmpty {l : List Plan} {start : String} (hl : ∀ p ∈ l, p.Spaced) :
      ∀ p ∈ if start = "" then l else [], p.Spaced := by
    split
    next => exact hl
    next => exact nofun
  cases p with
  | term text => exact spaces_ofValue schema analyzers field text boost
  | phrase text => exact spaces_ofValue schema analyzers field text boost
  | prefixed start =>
    have numbers : ∀ p ∈ if start = "" then [anyNumber field boost] else [], p.Spaced :=
      whereEmpty (List.forall_mem_singleton.2 (.leaf trivial))
    have paths : ∀ p ∈ if start = "" then [leaf (.under field []) boost] else [], p.Spaced :=
      whereEmpty (List.forall_mem_singleton.2 (.leaf trivial))
    rw [ofPattern, ofPrefix]
    split
    next => exact .ok (.leaf trivial)
    next a _ => exact .map fun a => .leaf trivial
    next => exact .ok (.leaf trivial)
    next => exact .ok (spaced_anyOf numbers)
    next => exact .ok (spaced_anyOf paths)
    next => exact .ok .nothing
    next => exact .ok .nothing
    next =>
      refine .ok (spaced_anyOf (List.forall_mem_cons.2 ⟨.leaf trivial, ?_⟩))
      exact List.forall_mem_append.2 ⟨numbers, paths⟩
  | wildcard glob =>
    rw [ofPattern, ofWildcard]
    split
    next => exact .ok (.leaf trivial)
    next a _ => exact .map fun a => .leaf trivial
    next => exact .ok (.leaf trivial)
    next => exact .ok (.leaf trivial)
    all_goals exact .ok .nothing
  | range lower upper includeLower includeUpper =>
    rw [ofPattern, ofRange]
    split
    next => exact .bind fun lower => .bind fun upper => .ok (.leaf trivial)
    next => exact .bind fun lower => .bind fun upper => .ok (.leaf trivial)
    next => exact .ok .nothing
    all_goals exact .error _

mutual

theorem spaces_ofQuery : ∀ q, Spaces (ofQuery schema analyzers q)
  | .matchAll => .ok (.leaf trivial)
  | .field name p boost => spaces_ofPattern schema analyzers name (boost.getD 1) p
  | .bool must should mustNot _ => by
    intro p hp
    obtain ⟨must', hm, hp⟩ := bind_eq_ok.1 hp
    obtain ⟨should', hs, hp⟩ := bind_eq_ok.1 hp
    obtain ⟨mustNot', hn, hp⟩ := bind_eq_ok.1 hp
    cases hp
    exact .bool (spaced_ofQueries must must' hm) (spaced_ofQueries should should' hs)
      (spaced_ofQueries mustNot mustNot' hn)

theorem spaced_ofQueries : ∀ qs ps, ofQueries schema analyzers qs = .ok ps → ∀ p ∈ ps, p.Spaced
  | [], ps, h => by
    cases h
    exact nofun
  | q :: qs, ps, h => by
    obtain ⟨p, hp, h⟩ := bind_eq_ok.1 h
    obtain ⟨ps', hps, h⟩ := bind_eq_ok.1 h
    cases h
    exact List.forall_mem_cons.2 ⟨spaces_ofQuery q p hp, spaced_ofQueries qs ps' hps⟩

end

end

end Plan

structure Section where
  column : String
  start : Nat
  tokens : List Token
  deriving DecidableEq

namespace Section

def placed (s : Section) : List Token := s.tokens.map fun t => { t with position := s.start + t.position }

def Apart (s later : Section) : Prop :=
  ∀ t ∈ s.placed, ∀ u ∈ later.placed, t.position + 2 ≤ u.position

end Section

namespace Document

def sections (all : List Token) : List (String × List Token) → List Section
  | [] => []
  | (column, tokens) :: rest => ⟨column, next all, tokens⟩ :: sections (append all tokens) rest

section

variable (all : List Token) (columns : List (String × List Token))

theorem map_sections : (sections all columns).map (fun s => (s.column, s.tokens)) = columns := by
  induction columns generalizing all with
  | nil => rfl
  | cons c rest ih => rw [sections, List.map_cons, ih]

theorem exists_mem_sections {column : String} {tokens : List Token} :
    (∃ s ∈ sections all columns, s.column = column ∧ s.tokens = tokens) ↔ (column, tokens) ∈ columns := by
  conv_rhs => rw [← map_sections all columns, List.mem_map]
  simp only [Prod.mk.injEq]

theorem foldl_append_eq :
    (columns.map (·.2)).foldl append all = all ++ (sections all columns).flatMap Section.placed := by
  induction columns generalizing all with
  | nil => exact (List.append_nil all).symm
  | cons c rest ih =>
    rw [List.map_cons, List.foldl_cons, ih, sections, List.flatMap_cons, ← List.append_assoc]
    rfl

end

section

variable {all : List Token} {columns : List (String × List Token)}

theorem ascending_foldl_append (ha : Ascending all) (hc : ∀ c ∈ columns, Ascending c.2) :
    Ascending ((columns.map (·.2)).foldl append all) := by
  induction columns generalizing all with
  | nil => exact ha
  | cons c rest ih =>
    rw [List.forall_mem_cons] at hc
    exact ih (ascending_append ha hc.1) hc.2

theorem sections_apart (ha : Ascending all) (hc : ∀ c ∈ columns, Ascending c.2) :
    (∀ s ∈ sections all columns, ∀ t ∈ all, ∀ u ∈ s.placed, t.position + 2 ≤ u.position) ∧
      (sections all columns).Pairwise Section.Apart := by
  induction columns generalizing all with
  | nil => exact ⟨nofun, .nil⟩
  | cons c rest ih =>
    rw [List.forall_mem_cons] at hc
    obtain ⟨hbefore, hrest⟩ := ih (ascending_append ha hc.1) hc.2
    rw [sections]
    -- the section starts two positions behind the last token before it
    refine ⟨List.forall_mem_cons.2 ⟨fun t ht u hu => ?_, fun s hs t ht => ?_⟩, .cons (fun s hs t ht => ?_) hrest⟩
    · obtain ⟨v, -, rfl⟩ := List.mem_map.1 hu
      have hlt := lt_next ha ht
      exact Nat.le_add_right_of_le hlt
    · exact hbefore s hs t (List.mem_append_left _ ht)
    · exact hbefore s hs t (List.mem_append_right _ ht)

end

end Document

def Record.Writes (schema : Schema) (analyzers : Analyzers) (r : Record) (column : String)
    (tokens : List Token) : Prop :=
  ∃ value a, r.values.get? column = some value ∧ value ≠ .null ∧
    Document.typeOf? schema column value = some .string ∧
    analyzers.resolve (schema.analyzer? column) = .ok a ∧ a.analyze value.text = tokens

namespace Document

variable {schema : Schema} {analyzers : Analyzers} {r : Record} {d : Document}
  {found : List (String × Content × Bool)}

theorem mem_textColumns_iff (h : contents schema analyzers r.values.entries = .ok found) {column : String}
    {tokens : List Token} : (column, tokens) ∈ textColumns found ↔ r.Writes schema analyzers column tokens := by
  rw [mem_textColumns, mem_contents h]
  constructor
  · rintro ⟨value, hv, hi, ht⟩
    have ht := beq_iff_eq.1 ht
    obtain ⟨hvalue, a, ha, htokens⟩ := (indexed?_eq_text ht).1 hi
    exact ⟨value, a, Dict.get?_eq_some_iff.2 hv, hvalue, ht, ha, htokens⟩
  · rintro ⟨value, a, hv, hvalue, ht, ha, htokens⟩
    exact ⟨value, Dict.get?_eq_some_iff.1 hv, (indexed?_eq_text ht).2 ⟨hvalue, a, ha, htokens⟩,
      beq_iff_eq.2 ht⟩

theorem pairwise_textColumns (h : contents schema analyzers r.values.entries = .ok found) :
    ((textColumns found).map (·.1)).Pairwise (· < ·) := by
  have hkeys : r.values.keys.Pairwise (· < ·) :=
    List.pairwise_map.2 (r.values.ascending.imp compareOfLessAndEq_eq_lt.1)
  exact hkeys.sublist ((textColumns_names found).trans (contents_names h))

/-- All text of a record in sections, one for each text column and in the order of these. -/
structure LaidOut (schema : Schema) (analyzers : Analyzers) (r : Record) (sections : List Section) : Prop where
  columns : ∀ column tokens, (∃ s ∈ sections, s.column = column ∧ s.tokens = tokens) ↔
    r.Writes schema analyzers column tokens
  ordered : (sections.map (·.column)).Pairwise (· < ·)
  ascending : Ascending (sections.flatMap Section.placed)
  apart : sections.Pairwise Section.Apart

theorem laidOut_sections (h : contents schema analyzers r.values.entries = .ok found) :
    LaidOut schema analyzers r (sections [] (textColumns found)) := by
  have hascending : ∀ c ∈ textColumns found, Ascending c.2 := by
    intro c hc
    obtain ⟨value, a, -, -, -, -, htokens⟩ := (mem_textColumns_iff h).1 hc
    exact htokens ▸ a.ascending_analyze value.text
  refine ⟨fun column tokens => ?_, ?_, ?_, (sections_apart .nil hascending).2⟩
  · exact (exists_mem_sections ..).trans (mem_textColumns_iff h)
  · have hcolumns := congrArg (List.map Prod.fst) (map_sections [] (textColumns found))
    rw [List.map_map] at hcolumns
    exact hcolumns ▸ pairwise_textColumns h
  · have hall := ascending_foldl_append .nil hascending
    rwa [foldl_append_eq, List.nil_append] at hall

theorem exists_laidOut (h : ofRecord schema analyzers r = .ok d) :
    ∃ sections, LaidOut schema analyzers r sections ∧
      (sections.flatMap Section.placed ≠ [] →
        d.fields.getLast? = some (allField, .text (sections.flatMap Section.placed))) := by
  obtain ⟨found, hc, hf⟩ := ofRecord_fields h
  have hall : allTokens found = (sections [] (textColumns found)).flatMap Section.placed := by
    rw [allTokens_eq, columnTexts_eq, foldl_append_eq, List.nil_append]
  refine ⟨_, laidOut_sections hc, fun hne => ?_⟩
  rw [hf, hall, if_neg hne, ← List.cons_append, ← List.cons_append, List.getLast?_concat]

end Document

/-- Positions grow through the tokens of a text, and through all text of a record. -/
theorem positions_grow :
    (∀ (t : Tokenizer) (filters : List (Filter × Stemmer)) (text : String),
      Plan.Measured (t.filtered filters text)) ∧
    (∀ (a : Analyzer) (text : String), a.analyze text = a.tokenizer.filtered a.stemming text) ∧
    (∀ schema analyzers q p, Plan.ofQuery schema analyzers q = .ok p → p.Spaced) ∧
    ∀ schema analyzers r d, Document.ofRecord schema analyzers r = .ok d → ∃ sections,
      Document.LaidOut schema analyzers r sections ∧
      (sections.flatMap Section.placed ≠ [] →
        d.fields.getLast? = some (allField, .text (sections.flatMap Section.placed))) :=
  ⟨fun t filters text => Plan.measured_of_ascending (t.ascending_filtered filters text),
    Analyzer.analyze_eq_filtered, Plan.spaces_ofQuery, fun _ _ _ _ h => Document.exists_laidOut h⟩

def threeColumns : Record :=
  ⟨"1", "t", 0, .ofList [("a", .string "the red fox"), ("b", .string "of the"), ("c", .string "a dog")]⟩

theorem positions_grow_threeColumns : ∃ d sections first terms p,
    Document.ofRecord .empty (.withDefault "standard") threeColumns = .ok d ∧
    Document.LaidOut .empty (.withDefault "standard") threeColumns sections ∧
    d.fields.getLast? = some (allField, .text (sections.flatMap Section.placed)) ∧
    (sections.flatMap Section.placed).map (·.position) = [1, 2, 5] ∧
    2 ≤ (Analyzer.standard.analyze "the red fox").length ∧
    Plan.ofTokens allField 1 (Analyzer.standard.analyze "the red fox") = .leaf (.phrase allField terms) 1 ∧
    terms.map (first + ·.2) = [1, 2] ∧
    Plan.ofQuery .empty (.withDefault "standard") (.field allField (.phrase "the red fox") none) = .ok p ∧
    p.Spaced := by
  obtain ⟨hmeasured, hanalyze, hplans, hrecords⟩ := positions_grow
  obtain ⟨d, hd⟩ : ∃ d, Document.ofRecord .empty (.withDefault "standard") threeColumns = .ok d := ⟨_, rfl⟩
  obtain ⟨sections, hlaid, hlast⟩ := hrecords _ _ _ d hd
  have hcolumn : threeColumns.Writes .empty (.withDefault "standard") "a"
      (Analyzer.standard.analyze "the red fox") :=
    ⟨.string "the red fox", .standard, rfl, nofun, rfl, rfl, rfl⟩
  have hne : sections.flatMap Section.placed ≠ [] := fun hnil => by
    obtain ⟨s, hs, -, htokens⟩ := (hlaid.columns ..).2 hcolumn
    have hplaced := List.flatMap_eq_nil_iff.1 hnil s hs
    rw [Section.placed, List.map_eq_nil_iff, htokens] at hplaced
    exact absurd hplaced (by decide +kernel)
  have hpositions : ((Document.ofRecord .empty (.withDefault "standard") threeColumns).toOption.bind fun d =>
      d.fields.getLast?.bind (·.2.tokens?)).map (·.map (·.position)) = some [1, 2, 5] := by
    decide +kernel
  rw [hd] at hpositions
  have hlength : 2 ≤ (Analyzer.standard.analyze "the red fox").length := by decide +kernel
  have hstandard := hmeasured Analyzer.standard.tokenizer Analyzer.standard.stemming "the red fox"
  rw [← hanalyze] at hstandard
  obtain ⟨first, terms, hphrase, -, hterms, -⟩ := hstandard.phrase allField 1 hlength
  obtain ⟨p, hp⟩ : ∃ p, Plan.ofQuery .empty (.withDefault "standard")
      (.field allField (.phrase "the red fox") none) = .ok p := ⟨_, rfl⟩
  refine ⟨d, sections, first, terms, p, hd, hlaid, hlast hne, ?_, hlength, hphrase, ?_, hp, hplans _ _ _ _ hp⟩
  · have hall : (some (sections.flatMap Section.placed)).map (·.map (·.position)) = some [1, 2, 5] := by
      simpa [Except.toOption, hlast hne, Content.tokens?] using hpositions
    exact Option.some.inj hall
  · exact hterms.trans (by decide +kernel)

end Corpus
