import Corpus.Proofs.Index.Tidy

/-! Looking terms up.  All terms of an index stand in one order, by field and then by text, in which the
terms of a field with a common start are a run.  What is looked up there is what a look at every term would
find. -/

namespace Corpus

open Text

namespace Term

theorem before_iff {a b : Term} :
    a.before b ↔ a.field < b.field ∨ a.field = b.field ∧ a.text < b.text := by
  simp [before, utf8_lt_utf8_iff]

theorem before_trans {a b c : Term} (hab : a.before b) (hbc : b.before c) : a.before c := by
  rw [before_iff] at *
  rcases hab with hab | ⟨hab, hab'⟩
  · rcases hbc with hbc | ⟨hbc, -⟩
    · exact .inl (Std.lt_trans hab hbc)
    · exact .inl (hbc ▸ hab)
  · rcases hbc with hbc | ⟨hbc, hbc'⟩
    · exact .inl (hab ▸ hbc)
    · exact .inr ⟨hab.trans hbc, Std.lt_trans hab' hbc'⟩

end Term

namespace TermIndex

def scan (t : TermIndex) (field : String) (asked : String → Prop) [DecidablePred asked] :
    List (String × PostingList) :=
  (t.listing.filter fun e => e.1.field = field && asked e.1.text).map fun e => (e.1.text, e.2)

theorem mem_listing {t : TermIndex} {term : Term} {l : PostingList} :
    (term, l) ∈ t.listing ↔ t.get? term.field term.text = some l := by
  rw [get?, terms, Dict.getD_empty_get?, Option.bind_eq_some_iff, listing, List.mem_flatMap]
  constructor
  · rintro ⟨⟨field, terms⟩, hf, he⟩
    obtain ⟨⟨text, l⟩, hl, he⟩ := List.mem_map.1 he
    cases he
    exact ⟨terms, Dict.get?_eq_some_iff.2 hf, Dict.get?_eq_some_iff.2 hl⟩
  · rintro ⟨terms, hf, hl⟩
    exact ⟨(term.field, terms), Dict.get?_eq_some_iff.1 hf,
      List.mem_map.2 ⟨(term.text, l), Dict.get?_eq_some_iff.1 hl, rfl⟩⟩

theorem pairwise_listing (t : TermIndex) : t.listing.Pairwise fun a b => a.1.before b.1 := by
  rw [listing, List.pairwise_flatMap]
  constructor
  · rintro ⟨field, terms⟩ -
    refine List.pairwise_map.2 (terms.ascending.imp fun hab => ?_)
    exact Term.before_iff.2 (.inr ⟨rfl, compareOfLessAndEq_eq_lt.1 hab⟩)
  · refine t.postings.ascending.imp fun {a b} hab x hx y hy => ?_
    obtain ⟨_, _, rfl⟩ := List.mem_map.1 hx
    obtain ⟨_, _, rfl⟩ := List.mem_map.1 hy
    exact Term.before_iff.2 (.inl (compareOfLessAndEq_eq_lt.1 hab))

theorem flatMap_eq_find {entries : List (String × ν)}
    (h : entries.Pairwise fun a b => compare a.1 b.1 = .lt) (key : String) (f : ν → List α) :
    (entries.flatMap fun e => if e.1 = key then f e.2 else []) = ((Dict.find key entries).map f).getD [] := by
  induction entries with
  | nil => rfl
  | cons e rest ih =>
    rw [List.flatMap_cons, Dict.find, ih h.of_cons]
    by_cases he : e.1 = key
    · subst he
      have hrest : Dict.find e.1 rest = none := Dict.find_eq_none fun a => List.rel_of_pairwise_cons h
      rw [hrest, if_pos rfl, if_pos Std.ReflCmp.compare_self]
      exact List.append_nil _
    · rw [if_neg he, if_neg fun hc => he (Std.LawfulEqCmp.eq_of_compare hc).symm, List.nil_append]

theorem scan_eq_filter (t : TermIndex) (field : String) (asked : String → Prop) [DecidablePred asked] :
    t.scan field asked = (t.terms field).entries.filter (asked ·.1) := by
  have hparts (e : String × Dict String PostingList) :
      ((e.2.entries.map fun d => ((⟨e.1, d.1⟩ : Term), d.2)).filter
        fun d => d.1.field = field && asked d.1.text).map (fun d => (d.1.text, d.2)) =
      if e.1 = field then e.2.entries.filter (asked ·.1) else [] := by
    rw [List.filter_map, List.map_map]
    split
    next he => simp [Function.comp_def, he]
    next he => simp [Function.comp_def, he]
  calc t.scan field asked
      = t.postings.entries.flatMap fun e => if e.1 = field then e.2.entries.filter (asked ·.1) else [] := by
        rw [scan, listing, List.filter_flatMap, List.map_flatMap]
        exact List.flatMap_congr fun e _ => hparts e
    _ = ((t.postings.get? field).map fun terms => terms.entries.filter (asked ·.1)).getD [] :=
        flatMap_eq_find t.postings.ascending field fun terms => terms.entries.filter (asked ·.1)
    _ = (t.terms field).entries.filter (asked ·.1) := by
        rw [terms]
        cases t.postings.get? field <;> rfl

theorem seek_eq_scan (t : TermIndex) (first : Term) :
    t.seek first = t.scan first.field fun text => startsWith first.text text := by
  simp only [seek, scan, Bool.decide_eq_true]
  refine congrArg (List.map _) (takeWhile_dropWhile_eq_filter ?_ ?_ ?_ t.pairwise_listing)
  · intro a ha
    rw [Bool.and_eq_true, decide_eq_true_eq, startsWith, List.isPrefixOf_iff_prefix] at ha
    refine Bool.eq_false_iff.2 fun hb => ?_
    rcases Term.before_iff.1 hb with hb | ⟨-, hb⟩
    · exact String.lt_irrefl _ (ha.1 ▸ hb)
    · exact not_lt_of_prefix ha.2 hb
  · intro a b hab ha
    exact Bool.eq_false_iff.2 fun hb => Bool.eq_false_iff.1 ha (Term.before_trans hab hb)
  · intro a b hab ha hb
    rw [← Bool.not_eq_true, Term.before_iff, not_or, not_and] at ha
    rw [Bool.and_eq_true, decide_eq_true_eq, startsWith, List.isPrefixOf_iff_prefix] at hb ⊢
    rcases Term.before_iff.1 hab with hab | ⟨hfield, hab⟩
    · exact absurd (hb.1 ▸ hab) ha.1
    · have hfirst : a.1.field = first.field := hfield.trans hb.1
      exact ⟨hfirst, prefix_of_not_lt (ha.2 hfirst) hab hb.2⟩

theorem withStart_eq_scan (t : TermIndex) (field start : String) :
    t.withStart field start = t.scan field fun text => utf8 start <+: utf8 text := by
  rw [withStart_eq_filter, scan_eq_filter]
  refine List.filter_congr fun e _ => ?_
  rw [startsWith, Bool.eq_iff_iff, List.isPrefixOf_iff_prefix, decide_eq_true_eq, utf8_prefix_utf8_iff]

theorem matching_eq_scan (t : TermIndex) (field glob : String) :
    t.matching field glob = t.scan field (StandsFor glob) := by
  rw [matching, withStart_eq_filter, scan_eq_filter, List.filter_filter]
  refine List.filter_congr fun e _ => ?_
  rw [Bool.eq_iff_iff, Bool.and_eq_true, decide_eq_true_eq, globMatches_iff_standsFor]
  refine and_iff_left_of_imp fun h => ?_
  rw [startsWith, List.isPrefixOf_iff_prefix, String.toList_ofList]
  exact (globMatches_iff.1 (globMatches_iff_standsFor.2 h)).startsWith_literalPart

inductive Edit
  | add (doc : Nat) (field : String) (tokens : List Token)
  | remove (doc : Nat) (field : String) (texts : List String) (length : Nat)
  deriving DecidableEq

namespace Edit

def apply (t : TermIndex) : Edit → TermIndex
  | .add doc field tokens => t.add doc field tokens
  | .remove doc field texts length => t.remove doc field texts length

def leave (doc : Nat) (term : Term) (held : Option Posting) : Edit → Option Posting
  | .add doc' field tokens =>
    if doc = doc' ∧ term.field = field then (Posting.of? tokens term.text).or held else held
  | .remove doc' field texts _ =>
    if (doc = doc' ∧ term.field = field) ∧ term.text ∈ texts then none else held

end Edit

def edited (edits : List Edit) : TermIndex := edits.foldl Edit.apply .empty

def held (edits : List Edit) (doc : Nat) (term : Term) : Option Posting :=
  edits.foldl (Edit.leave doc term) none

theorem posting?_edited (edits : List Edit) (doc : Nat) (term : Term) :
    (edited edits).posting? term.field term.text doc = held edits doc term := by
  suffices ∀ t : TermIndex, (edits.foldl Edit.apply t).posting? term.field term.text doc =
      edits.foldl (Edit.leave doc term) (t.posting? term.field term.text doc) from this .empty
  induction edits with
  | nil => exact fun _ => rfl
  | cons e rest ih =>
    intro t
    rw [List.foldl_cons, List.foldl_cons, ih]
    cases e with
    | add => rw [Edit.apply, posting?_add, Edit.leave]
    | remove => rw [Edit.apply, posting?_remove, Edit.leave]

theorem tidy_edited (edits : List Edit) : (edited edits).Tidy := by
  suffices ∀ t : TermIndex, t.Tidy → (edits.foldl Edit.apply t).Tidy from this _ .empty
  induction edits with
  | nil => exact fun _ h => h
  | cons e rest ih =>
    intro t h
    cases e with
    | add doc field tokens => exact ih _ (h.add doc field tokens)
    | remove doc field texts length => exact ih _ (h.remove doc field texts length)

theorem mem_listing_edited {edits : List Edit} {term : Term} {l : PostingList} :
    (term, l) ∈ (edited edits).listing ↔
      l.isEmpty = false ∧ ∀ doc, l.get? doc = held edits doc term := by
  simp only [mem_listing, ← posting?_edited, posting?]
  constructor
  · intro h
    have hget : ((edited edits).postings.get? term.field).bind (·.get? term.text) = some l := by
      rwa [get?, terms, Dict.getD_empty_get?] at h
    exact ⟨(tidy_edited edits).postings.of_bind_get? hget, fun doc => by rw [h]; rfl⟩
  · rintro ⟨hne, hl⟩
    obtain ⟨doc, p, hp⟩ := Dict.exists_get? hne
    obtain ⟨l', hl', -⟩ := Option.bind_eq_some_iff.1 ((hl doc).symm.trans hp)
    have heq : l' = l := Dict.ext_get? fun doc => by rw [hl, hl']; rfl
    rw [hl', heq]

/-- Lookups find, in order, what a look at every term finds. -/
theorem lookups_edited (edits : List Edit) (field : String) :
    (edited edits).listing.Pairwise (fun a b => a.1.before b.1) ∧
      (∀ (term : Term) (l : PostingList), (term, l) ∈ (edited edits).listing ↔
        l.isEmpty = false ∧ ∀ doc, l.get? doc = held edits doc term) ∧
      ((edited edits).terms field).entries = (edited edits).scan field (fun _ => True) ∧
      (∀ start, (edited edits).withStart field start =
        (edited edits).scan field (fun text => utf8 start <+: utf8 text)) ∧
      (∀ start, (edited edits).withStart field start = (edited edits).seek ⟨field, start⟩) ∧
      (∀ glob, (edited edits).matching field glob = (edited edits).scan field (StandsFor glob)) ∧
      ∀ glob text : String, FoundIn (expression glob.toList) text.toList ↔ StandsFor glob text := by
  refine ⟨pairwise_listing _, fun _ _ => mem_listing_edited, ?_, withStart_eq_scan _ field, fun start => ?_,
    matching_eq_scan _ field, fun _ _ => foundIn_expression_iff⟩
  · rw [scan_eq_filter]
    exact (List.filter_eq_self.2 fun _ _ => decide_eq_true trivial).symm
  · rw [seek_eq_scan, withStart_eq_filter, scan_eq_filter]
    simp only [Bool.decide_eq_true]

end TermIndex

end Corpus
