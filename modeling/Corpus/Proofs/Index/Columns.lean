import Corpus.Proofs.Analysis
import Corpus.Proofs.Index.Held

/-! All text of a record and the columns that it comes from.  The texts of two columns are apart, so that
tokens at one position after the other are in one column. -/

namespace Corpus

/-- Whether tokens occur among others, with the same texts at the same distances. -/
def OccursIn (part tokens : List Token) : Prop :=
  ∃ back forth, ∀ t ∈ part, ∃ u ∈ tokens, u.text = t.text ∧ u.position + back = t.position + forth

theorem OccursIn.of_subset {part phrase tokens : List Token} (h : OccursIn phrase tokens)
    (hs : part ⊆ phrase) : OccursIn part tokens := by
  obtain ⟨back, forth, h⟩ := h
  exact ⟨back, forth, fun t ht => h t (hs ht)⟩

theorem forall_of_isChain {R : α → α → Prop} {P : α → Prop} {a : α} {rest : List α}
    (h : (a :: rest).IsChain R) (ha : P a)
    (hstep : ∀ b ∈ a :: rest, ∀ c ∈ a :: rest, R b c → P b → P c) : ∀ b ∈ a :: rest, P b :=
  (List.IsChain.iff_mem.1 h).induction P _ (fun b c hbc => hstep b hbc.1 c hbc.2.1 hbc.2.2)
    fun _ => ha

namespace Document

variable {all tokens part : List Token}

def next (all : List Token) : Nat := (all.getLast?.map (·.position + 2)).getD 0

theorem mem_append {u : Token} : u ∈ append all tokens ↔
    u ∈ all ∨ ∃ t ∈ tokens, { t with position := next all + t.position } = u := by
  rw [append, List.mem_append, List.mem_map]
  rfl

theorem lt_next (h : Ascending all) {u : Token} (hu : u ∈ all) : u.position + 1 < next all := by
  obtain rfl | ⟨init, last, rfl⟩ := List.eq_nil_or_concat' all
  · cases hu
  · rw [next, List.getLast?_append]
    have hlast : u.position ≤ last.position := by
      obtain hu | hu := List.mem_append.1 hu
      · exact Nat.le_of_lt ((List.pairwise_append.1 h).2.2 u hu last (.head _))
      · rw [List.mem_singleton.1 hu]
    exact Nat.add_lt_add_right (Nat.lt_succ_of_le hlast) 1

theorem ascending_append (ha : Ascending all) (ht : Ascending tokens) : Ascending (append all tokens) := by
  refine List.pairwise_append.2 ⟨ha, ?_, fun u hu v hv => ?_⟩
  · exact List.pairwise_map.2 (ht.imp fun hlt => Nat.add_lt_add_left hlt _)
  · obtain ⟨t, -, rfl⟩ := List.mem_map.1 hv
    have hlt := lt_next ha hu
    exact Nat.lt_of_lt_of_le (Nat.lt_of_succ_lt hlt) (Nat.le_add_right ..)

theorem occursIn_of_append (h : OccursIn part (append all tokens)) (hu : Unbroken part)
    (ha : Ascending all) : OccursIn part all ∨ OccursIn part tokens := by
  obtain ⟨back, forth, h⟩ := h
  cases part with
  | nil => exact .inl ⟨0, 0, nofun⟩
  | cons t rest =>
    obtain ⟨u, hfirst, htext, hat⟩ := h t (.head _)
    -- The other tokens are on the side of the first: a gap of two is wider than their steps.
    obtain hfirst | ⟨v, hv, rfl⟩ := mem_append.1 hfirst
    · refine .inl ⟨back, forth, forall_of_isChain hu ⟨u, hfirst, htext, hat⟩ ?_⟩
      intro b _ c hc hbc ⟨w, hw, _, hwat⟩
      obtain ⟨x, hx, hxtext, hxat⟩ := h c hc
      obtain hx | ⟨y, -, rfl⟩ := mem_append.1 hx
      · exact ⟨x, hx, hxtext, hxat⟩
      · have hlt := lt_next ha hw
        have hxat : next all + y.position + back = c.position + forth := hxat
        omega
    · have hat : next all + v.position + back = t.position + forth := hat
      refine .inr ⟨next all + back, forth, forall_of_isChain hu ⟨v, hv, htext, by omega⟩ ?_⟩
      intro b _ c hc hbc ⟨w, _, _, hwat⟩
      obtain ⟨x, hx, hxtext, hxat⟩ := h c hc
      obtain hx | ⟨y, hy, rfl⟩ := mem_append.1 hx
      · have hlt := lt_next ha hx
        omega
      · have hxat : next all + y.position + back = c.position + forth := hxat
        exact ⟨y, hy, hxtext, by omega⟩

theorem occursIn_append (h : OccursIn part all ∨ OccursIn part tokens) :
    OccursIn part (append all tokens) := by
  obtain ⟨back, forth, h⟩ | ⟨back, forth, h⟩ := h
  · refine ⟨back, forth, fun t ht => ?_⟩
    obtain ⟨u, hu, htu⟩ := h t ht
    exact ⟨u, mem_append.2 (.inl hu), htu⟩
  · refine ⟨back, next all + forth, fun t ht => ?_⟩
    obtain ⟨u, hu, htext, hat⟩ := h t ht
    refine ⟨_, mem_append.2 (.inr ⟨u, hu, rfl⟩), htext, ?_⟩
    change next all + u.position + back = _
    omega

theorem occursIn_foldl_append {texts : List (List Token)}
    (h : OccursIn part all ∨ ∃ tokens ∈ texts, OccursIn part tokens) :
    OccursIn part (texts.foldl append all) := by
  induction texts generalizing all with
  | nil =>
    obtain h | ⟨_, hm, -⟩ := h
    · exact h
    · cases hm
  | cons tokens rest ih =>
    refine ih ?_
    rw [List.exists_mem_cons_iff, ← or_assoc] at h
    exact h.imp_left occursIn_append

theorem occursIn_of_foldl_append {texts : List (List Token)} (hu : Unbroken part) (ha : Ascending all)
    (ht : ∀ tokens ∈ texts, Ascending tokens) (h : OccursIn part (texts.foldl append all)) :
    OccursIn part all ∨ ∃ tokens ∈ texts, OccursIn part tokens := by
  induction texts generalizing all with
  | nil => exact .inl h
  | cons tokens rest ih =>
    rw [List.forall_mem_cons] at ht
    rw [List.exists_mem_cons_iff, ← or_assoc]
    exact (ih (ascending_append ha ht.1) ht.2 h).imp_left fun h => occursIn_of_append h hu ha

def columnTexts (found : List (String × Content × Bool)) : List (List Token) :=
  found.filterMap fun (_, content, isText) => if isText then content.tokens? else none

theorem allTokens_eq (found : List (String × Content × Bool)) :
    allTokens found = (columnTexts found).foldl append [] := by
  rw [allTokens, columnTexts, List.foldl_filterMap]
  congr 1
  funext all f
  obtain ⟨name, content, isText⟩ := f
  cases isText <;> cases content <;> rfl

def textColumns (found : List (String × Content × Bool)) : List (String × List Token) :=
  found.filterMap fun (name, content, isText) => if isText then content.tokens?.map (name, ·) else none

theorem columnTexts_eq (found : List (String × Content × Bool)) :
    columnTexts found = (textColumns found).map (·.2) := by
  rw [columnTexts, textColumns, List.map_filterMap]
  congr 1
  funext f
  obtain ⟨name, content, isText⟩ := f
  cases isText <;> cases content <;> rfl

theorem mem_textColumns {found : List (String × Content × Bool)} {name : String} :
    (name, tokens) ∈ textColumns found ↔ (name, .text tokens, true) ∈ found := by
  simp only [textColumns, List.mem_filterMap, Prod.exists]
  constructor
  · rintro ⟨name', content, isText, hm, h⟩
    cases isText with
    | false => cases h
    | true =>
      cases content with
      | text tokens' =>
        cases h
        exact hm
      | number x => cases h
      | facet path => cases h
  · intro hm
    exact ⟨name, _, _, hm, rfl⟩

theorem textColumns_names (found : List (String × Content × Bool)) :
    ((textColumns found).map (·.1)).Sublist (found.map (·.1)) := by
  induction found with
  | nil => exact .slnil
  | cons f rest ih =>
    obtain ⟨name, content, isText⟩ := f
    cases isText with
    | false => exact ih.cons name
    | true =>
      cases content with
      | text tokens => exact ih.cons_cons name
      | number x => exact ih.cons name
      | facet path => exact ih.cons name

variable {schema : Schema} {analyzers : Analyzers}

theorem indexed?_eq_text {name : String} {value : Value} (ht : typeOf? schema name value = some .string) :
    indexed? schema analyzers name value = .ok (some (.text tokens)) ↔
      value ≠ .null ∧ ∃ a, analyzers.resolve (schema.analyzer? name) = .ok a ∧ a.analyze value.text = tokens := by
  rw [indexed?, ht]
  change content? schema analyzers name .string value = _ ↔ _
  rw [content?.eq_def]
  split
  next hnull => simp [hnull]
  next hvalue =>
    simp only [map_eq_ok, hvalue, ne_eq, not_false_eq_true, true_and, Option.some.injEq, Content.text.injEq]

theorem ascending_indexed {name : String} {value : Value}
    (ht : typeOf? schema name value = some .string)
    (h : indexed? schema analyzers name value = .ok (some (.text tokens))) : Ascending tokens := by
  obtain ⟨-, a, -, rfl⟩ := (indexed?_eq_text ht).1 h
  exact a.ascending_analyze value.text

end Document

/-- Whether tokens occur in what a single text column adds to the text of the record. -/
def Record.HasInColumn (schema : Schema) (analyzers : Analyzers) (r : Record) (part : List Token) : Prop :=
  ∃ name value tokens, r.values.get? name = some value ∧
    Document.typeOf? schema name value = some .string ∧
    Document.indexed? schema analyzers name value = .ok (some (.text tokens)) ∧ OccursIn part tokens

namespace Document

variable {schema : Schema} {analyzers : Analyzers} {r : Record} {tokens part : List Token}
  {found : List (String × Content × Bool)}

theorem mem_columnTexts (h : contents schema analyzers r.values.entries = .ok found) :
    tokens ∈ columnTexts found ↔ ∃ name value, r.values.get? name = some value ∧
      typeOf? schema name value = some .string ∧
      indexed? schema analyzers name value = .ok (some (.text tokens)) := by
  simp only [columnTexts_eq, List.mem_map, Prod.exists, exists_eq_right, mem_textColumns, mem_contents h,
    beq_iff_eq, Dict.get?_eq_some_iff]
  exact exists_congr fun name => exists_congr fun value => and_congr_right fun _ => and_comm

theorem occursIn_allTokens (h : contents schema analyzers r.values.entries = .ok found)
    (hcolumn : r.HasInColumn schema analyzers part) : OccursIn part (allTokens found) := by
  obtain ⟨name, value, tokens, hv, ht, hi, hpart⟩ := hcolumn
  rw [allTokens_eq]
  exact occursIn_foldl_append (.inr ⟨tokens, (mem_columnTexts h).2 ⟨name, value, hv, ht, hi⟩, hpart⟩)

theorem hasInColumn_of_occursIn (h : contents schema analyzers r.values.entries = .ok found)
    (hu : Unbroken part) (hne : part ≠ []) (hpart : OccursIn part (allTokens found)) :
    r.HasInColumn schema analyzers part := by
  have hascending : ∀ tokens ∈ columnTexts found, Ascending tokens := by
    intro tokens hm
    obtain ⟨name, value, -, ht, hi⟩ := (mem_columnTexts h).1 hm
    exact ascending_indexed ht hi
  rw [allTokens_eq] at hpart
  obtain ⟨back, forth, hnone⟩ | ⟨tokens, hm, hpart⟩ :=
    occursIn_of_foldl_append hu .nil hascending hpart
  · obtain ⟨t, ht⟩ := List.exists_mem_of_ne_nil part hne
    obtain ⟨u, hu, -⟩ := hnone t ht
    cases hu
  · obtain ⟨name, value, hv, ht, hi⟩ := (mem_columnTexts h).1 hm
    exact ⟨name, value, tokens, hv, ht, hi, hpart⟩

end Document

end Corpus
