import Corpus.Proofs.Data.Nested
import Corpus.Proofs.Index.History

/-! Indexes without empty parts.  What is put in and taken out again leaves none behind, and two indexes
without empty parts that hold the same documents are one and the same. -/

namespace Corpus

namespace TermIndex

/-- No field without terms, no term without postings, and no statistics of nothing. -/
structure Tidy (t : TermIndex) : Prop where
  postings : t.postings.Filled fun list => list.isEmpty = false
  stats : t.stats.All fun s => 0 < s.docCount

theorem Tidy.empty : TermIndex.empty.Tidy := ⟨.empty, .empty⟩

variable {doc : Nat} {terms : Dict String PostingList}

theorem all_addPosting (h : terms.All fun list => list.isEmpty = false) (length : Nat)
    (entry : String × List Nat) :
    (addPosting doc length terms entry).All fun list => list.isEmpty = false := by
  refine h.alter fun list hl => ?_
  cases hl
  exact Dict.isEmpty_alter rfl

theorem all_foldl_addPosting (h : terms.All fun list => list.isEmpty = false) (length : Nat)
    (entries : List (String × List Nat)) :
    (entries.foldl (addPosting doc length) terms).All fun list => list.isEmpty = false := by
  induction entries generalizing terms with
  | nil => exact h
  | cons entry rest ih => exact ih (all_addPosting h length entry)

theorem all_foldl_removePosting (h : terms.All fun list => list.isEmpty = false)
    (texts : List String) :
    (texts.foldl (removePosting doc) terms).All fun list => list.isEmpty = false := by
  induction texts generalizing terms with
  | nil => exact h
  | cons text rest ih =>
    refine ih (h.alter fun list hl => ?_)
    obtain ⟨old, -, he⟩ := Option.bind_eq_some_iff.1 hl
    obtain ⟨rfl, hne⟩ := Dict.nonempty?_eq_some he
    exact hne

theorem isEmpty_foldl_addPosting {entries : List (String × List Nat)} (h : entries ≠ [])
    (length : Nat) (terms : Dict String PostingList) :
    (entries.foldl (addPosting doc length) terms).isEmpty = false := by
  obtain ⟨init, last, rfl⟩ := (List.eq_nil_or_concat entries).resolve_left h
  rw [List.concat_eq_append, List.foldl_append]
  exact Dict.isEmpty_alter rfl

theorem entries_grouped_ne_nil {tokens : List Token} (h : tokens ≠ []) : (grouped tokens).entries ≠ [] := by
  obtain ⟨u, hu⟩ := List.exists_mem_of_ne_nil tokens h
  have hm := mem_keys_grouped.2 (Posting.isSome_of?.2 ⟨u, hu, rfl⟩)
  intro he
  rw [Dict.keys, he] at hm
  cases hm

theorem Tidy.add {t : TermIndex} (h : t.Tidy) (doc : Nat) (field : String) (tokens : List Token) :
    (t.add doc field tokens).Tidy := by
  rw [TermIndex.add]
  split
  next => exact h
  next hne =>
    refine ⟨h.postings.alter fun terms ht => ?_, h.stats.alter fun s hs => ?_⟩
    · cases ht
      exact ⟨isEmpty_foldl_addPosting (entries_grouped_ne_nil hne) ..,
        all_foldl_addPosting (h.postings.getD field) ..⟩
    · cases hs
      exact Nat.succ_pos _

theorem Tidy.remove {t : TermIndex} (h : t.Tidy) (doc : Nat) (field : String) (texts : List String)
    (length : Nat) : (t.remove doc field texts length).Tidy := by
  refine ⟨h.postings.alter fun terms ht => ?_, h.stats.alter fun s hs => ?_⟩
  · obtain ⟨old, hold, he⟩ := Option.bind_eq_some_iff.1 ht
    obtain ⟨rfl, hne⟩ := Dict.nonempty?_eq_some he
    exact ⟨hne, all_foldl_removePosting (h.postings hold).2 texts⟩
  · obtain ⟨old, hold, he⟩ := Option.bind_eq_some_iff.1 hs
    split at he
    next => cases he
    next hcount =>
      cases he
      exact Nat.sub_pos_of_lt (Nat.not_le.1 hcount)

theorem Tidy.addField {t : TermIndex} (h : t.Tidy) (doc : Nat) (f : String × Content) :
    (addField doc t f).Tidy := by
  obtain ⟨name, content⟩ := f
  cases content with
  | text tokens => exact h.add doc name tokens
  | number x => exact h
  | facet path => exact h

theorem Tidy.removeField {t : TermIndex} (h : t.Tidy) (doc : Nat) (f : String × Content) :
    (removeField doc t f).Tidy := by
  obtain ⟨name, content⟩ := f
  cases content with
  | text tokens =>
    cases tokens with
    | nil => exact h
    | cons u rest => exact h.remove ..
  | number x => exact h
  | facet path => exact h

theorem Reflects.eq {t u : TermIndex} {docs : Dict Nat Document} (ht : t.Reflects docs)
    (hu : u.Reflects docs) (h : t.Tidy) (h' : u.Tidy) : t = u := by
  have hpostings : t.postings = u.postings := by
    refine h.postings.eq h'.postings fun field text => ?_
    refine Dict.eq_of_bind_get? (fun _ => h.postings.of_bind_get?) (fun _ => h'.postings.of_bind_get?)
      fun doc => ?_
    rw [← posting?_eq, ← posting?_eq, ht.posting?, hu.posting?]
  have hstats : t.stats = u.stats := Dict.ext_get? fun field => by rw [ht.stats, hu.stats]
  cases t
  cases u
  cases hpostings
  cases hstats
  rfl

end TermIndex

namespace NumberIndex

open Number

def Tidy (n : NumberIndex) : Prop := n.fields.Filled fun docs => docs.isEmpty = false

theorem Tidy.empty : NumberIndex.empty.Tidy := Dict.All.empty

theorem Tidy.add {n : NumberIndex} (h : n.Tidy) (doc : Nat) (field : String) (x : Binary64) :
    (n.add doc field x).Tidy := by
  rw [NumberIndex.add]
  split
  next => exact h
  next =>
    refine Dict.All.alter h fun tree ht => ?_
    cases ht
    refine ⟨Dict.isEmpty_alter rfl, (Dict.Filled.getD h field).alter fun docs hd => ?_⟩
    cases hd
    exact DocSet.isEmpty_insert ..

theorem Tidy.remove {n : NumberIndex} (h : n.Tidy) (doc : Nat) (field : String) (x : Binary64) :
    (n.remove doc field x).Tidy := by
  refine Dict.All.alter h fun tree ht => ?_
  obtain ⟨old, hold, he⟩ := Option.bind_eq_some_iff.1 ht
  obtain ⟨rfl, hne⟩ := Dict.nonempty?_eq_some he
  refine ⟨hne, (h hold).2.alter fun docs hd => ?_⟩
  obtain ⟨docs', -, he⟩ := Option.bind_eq_some_iff.1 hd
  split at he
  next => cases he
  next hdocs =>
    cases he
    exact Bool.eq_false_iff.2 hdocs

theorem Tidy.addField {n : NumberIndex} (h : n.Tidy) (doc : Nat) (f : String × Content) :
    (addField doc n f).Tidy := by
  obtain ⟨name, content⟩ := f
  cases content with
  | text tokens => exact h
  | number x => exact h.add doc name x
  | facet path => exact h

theorem Tidy.removeField {n : NumberIndex} (h : n.Tidy) (doc : Nat) (f : String × Content) :
    (removeField doc n f).Tidy := by
  obtain ⟨name, content⟩ := f
  cases content with
  | text tokens => exact h
  | number x => exact h.remove doc name x
  | facet path => exact h

theorem Reflects.eq {n m : NumberIndex} {docs : Dict Nat Document} (hn : n.Reflects docs)
    (hm : m.Reflects docs) (h : n.Tidy) (h' : m.Tidy) : n = m := by
  have hfields : n.fields = m.fields := by
    refine Dict.Filled.eq h h' fun field key => ?_
    refine DocSet.eq_of_mem_getD (fun _ => Dict.Filled.of_bind_get? h)
      (fun _ => Dict.Filled.of_bind_get? h') fun doc => ?_
    exact (hn field key doc).trans (hm field key doc).symm
  cases n
  cases m
  cases hfields
  rfl

end NumberIndex

namespace FacetIndex

structure Tidy (x : FacetIndex) : Prop where
  below : x.below.Filled fun docs => docs.isEmpty = false
  paths : x.paths.All fun paths => paths.isEmpty = false

theorem Tidy.empty : FacetIndex.empty.Tidy := ⟨.empty, .empty⟩

variable {below : Dict Path DocSet}

theorem all_foldl_insertBelow (doc : Nat) (h : below.All fun docs => docs.isEmpty = false)
    (list : List Path) :
    (list.foldl (insertBelow doc) below).All fun docs => docs.isEmpty = false := by
  induction list generalizing below with
  | nil => exact h
  | cons start rest ih =>
    refine ih (h.alter fun docs hd => ?_)
    cases hd
    exact DocSet.isEmpty_insert ..

theorem all_foldl_eraseBelow (doc : Nat) (h : below.All fun docs => docs.isEmpty = false)
    (list : List Path) :
    (list.foldl (eraseBelow doc) below).All fun docs => docs.isEmpty = false := by
  induction list generalizing below with
  | nil => exact h
  | cons start rest ih =>
    refine ih (h.alter fun docs hd => ?_)
    obtain ⟨old, -, he⟩ := Option.bind_eq_some_iff.1 hd
    split at he
    next => cases he
    next hdocs =>
      cases he
      exact Bool.eq_false_iff.2 hdocs

theorem isEmpty_foldl_insertBelow (doc : Nat) (path : Path) (below : Dict Path DocSet) :
    ((starts path).foldl (insertBelow doc) below).isEmpty = false := by
  have hm : doc ∈ (((starts path).foldl (insertBelow doc) below).get? path).getD .empty :=
    mem_foldl_insertBelow.2 (.inl ⟨rfl, mem_starts.2 (List.prefix_refl path)⟩)
  cases hd : ((starts path).foldl (insertBelow doc) below).get? path with
  | none =>
    rw [hd] at hm
    exact absurd hm (DocSet.mem_empty doc)
  | some docs => exact Dict.isEmpty_eq_false hd

theorem filled_below_add {x : FacetIndex} (h : x.below.Filled fun docs => docs.isEmpty = false)
    (doc : Nat) (field : String) (path : Path) :
    (x.add doc field path).below.Filled fun docs => docs.isEmpty = false := by
  refine h.alter fun below hb => ?_
  cases hb
  exact ⟨isEmpty_foldl_insertBelow .., all_foldl_insertBelow doc (h.getD field) _⟩

theorem Covers.filled_below_remove {x : FacetIndex} (hc : x.Covers)
    (h : x.below.Filled fun docs => docs.isEmpty = false) (doc : Nat) (field : String) :
    (x.remove doc field).below.Filled fun docs => docs.isEmpty = false := by
  cases hp : x.pathOf? field doc with
  | none => rwa [remove_of_pathOf?_eq_none hp]
  | some path =>
    obtain ⟨below, hb⟩ := Option.isSome_iff_exists.1 (hc.below_isSome hp)
    rw [remove_of_pathOf?_eq_some hp hb]
    split
    next => exact h.alter fun _ hl => by cases hl
    next hempty =>
      refine h.alter fun left hl => ?_
      cases hl
      exact ⟨Bool.eq_false_iff.2 hempty, all_foldl_eraseBelow doc (h hb).2 (starts path)⟩

theorem Tidy.add {x : FacetIndex} (h : x.Tidy) (doc : Nat) (field : String) (path : Path) :
    (x.add doc field path).Tidy := by
  refine ⟨filled_below_add h.below doc field path, h.paths.alter fun paths hp => ?_⟩
  cases hp
  exact Dict.isEmpty_alter rfl

theorem Mirrors.isEmpty_paths {x : FacetIndex} (hm : x.Mirrors) {field : String}
    {below : Dict Path DocSet} (hb : x.below.get? field = some below) (hne : below.isEmpty = false)
    (hall : below.All fun docs => docs.isEmpty = false) {paths : Dict Nat Path}
    (hp : x.paths.get? field = some paths) : paths.isEmpty = false := by
  obtain ⟨start, docs, hdocs⟩ := Dict.exists_get? hne
  obtain ⟨doc, hdoc⟩ := DocSet.exists_mem (hall hdocs)
  have hunder : doc ∈ x.docsUnder field start := by
    rw [docsUnder, hb, Option.bind_some, hdocs]
    exact hdoc
  obtain ⟨path, hpath, -⟩ := (hm field start doc).1 hunder
  rw [pathOf?, hp] at hpath
  exact Dict.isEmpty_eq_false hpath

theorem Tidy.remove {x : FacetIndex} (h : x.Tidy) (hm : x.Mirrors) (doc : Nat) (field : String) :
    (x.remove doc field).Tidy := by
  refine ⟨hm.covers.filled_below_remove h.below doc field, ?_⟩
  cases hp : x.pathOf? field doc with
  | none =>
    rw [remove_of_pathOf?_eq_none hp]
    exact h.paths
  | some path =>
    obtain ⟨below, hb⟩ := Option.isSome_iff_exists.1 (hm.covers.below_isSome hp)
    have hmirrors := hm.remove doc field
    rw [remove_of_pathOf?_eq_some hp hb] at hmirrors ⊢
    split
    next =>
      intro field' paths hget
      rw [Dict.get?_erase, Dict.get?_alter] at hget
      split at hget
      next => cases hget
      next => exact h.paths hget
    next hempty =>
      rw [if_neg hempty] at hmirrors
      have hall := all_foldl_eraseBelow doc (h.below hb).2 (starts path)
      refine h.paths.alter fun paths hget => hmirrors.isEmpty_paths ?_ (Bool.eq_false_iff.2 hempty) hall
        ((Dict.get?_alter ..).trans ((if_pos rfl).trans hget))
      rw [Dict.get?_insert, if_pos rfl]

theorem Tidy.addField {x : FacetIndex} (h : x.Tidy) (doc : Nat) (f : String × Content) :
    (addField doc x f).Tidy := by
  obtain ⟨name, content⟩ := f
  cases content with
  | text tokens => exact h
  | number y => exact h
  | facet path => exact h.add doc name path

theorem Tidy.foldl_removeField {x : FacetIndex} (h : x.Tidy) (hm : x.Mirrors) (doc : Nat)
    (fields : Fields) : (fields.foldl (removeField doc) x).Tidy := by
  induction fields generalizing x with
  | nil => exact h
  | cons f rest ih =>
    obtain ⟨name, content⟩ := f
    cases content with
    | text tokens => exact ih h hm
    | number y => exact ih h hm
    | facet path => exact ih (h.remove hm doc name) (hm.remove doc name)

theorem Reflects.eq {x y : FacetIndex} {docs : Dict Nat Document} (hx : x.Reflects docs)
    (hy : y.Reflects docs) (h : x.Tidy) (h' : y.Tidy) : x = y := by
  have hpath (field : String) (doc : Nat) : x.pathOf? field doc = y.pathOf? field doc :=
    (hx.pathOf? field doc).trans (hy.pathOf? field doc).symm
  have hbelow : x.below = y.below := by
    refine h.below.eq h'.below fun field start => ?_
    refine DocSet.eq_of_mem_getD (fun _ => h.below.of_bind_get?) (fun _ => h'.below.of_bind_get?)
      fun doc => ?_
    refine (hx.mirrors field start doc).trans (.trans ?_ (hy.mirrors field start doc).symm)
    rw [hpath]
  have hpaths : x.paths = y.paths := by
    refine Dict.ext_get? fun field => Dict.eq_of_bind_get? (fun _ hp => h.paths hp)
      (fun _ hp => h'.paths hp) (hpath field)
  cases x
  cases y
  cases hbelow
  cases hpaths
  rfl

end FacetIndex

namespace Segment

structure Tidy (s : Segment) : Prop where
  terms : s.terms.Tidy
  numbers : s.numbers.Tidy
  facets : s.facets.Tidy

/-- Two segments with the same documents and the same indexes over them.  The next document and the
generation may differ. -/
structure SameContent (s r : Segment) : Prop where
  docs : s.docs = r.docs
  terms : s.terms = r.terms
  numbers : s.numbers = r.numbers
  facets : s.facets = r.facets

theorem Tidy.empty : Segment.empty.Tidy := ⟨.empty, .empty, .empty⟩

variable {s r : Segment}

theorem Tidy.insert (h : s.Tidy) (doc : Nat) (d : Document) : (s.insert doc d).Tidy := by
  rw [Segment.insert, foldl_addField]
  exact ⟨List.foldlRecOn _ _ h.terms fun _ ht f _ => ht.addField doc f,
    List.foldlRecOn _ _ h.numbers fun _ hn f _ => hn.addField doc f,
    List.foldlRecOn _ _ h.facets fun _ hx f _ => hx.addField doc f⟩

theorem Tidy.remove (h : s.Tidy) (hs : s.Faithful) (doc : Nat) : (s.remove doc).Tidy := by
  cases hdoc : s.docs.get? doc with
  | none => rwa [remove_of_get?_eq_none hdoc]
  | some d =>
    rw [remove_of_get?_eq_some hdoc, foldl_removeField]
    exact ⟨List.foldlRecOn _ _ h.terms fun _ ht f _ => ht.removeField doc f,
      List.foldlRecOn _ _ h.numbers fun _ hn f _ => hn.removeField doc f,
      h.facets.foldl_removeField hs.facets.mirrors doc d.fields⟩

theorem Tidy.upsert (h : s.Tidy) (hs : s.Faithful) (d : Document) : (s.upsert d).Tidy := by
  rw [Segment.upsert]
  split
  next doc _ => exact (h.remove hs doc).insert doc d
  next =>
    have hnext : ({ s with nextDoc := s.nextDoc + 1 } : Segment).Tidy := ⟨h.terms, h.numbers, h.facets⟩
    exact hnext.insert s.nextDoc d

theorem Tidy.delete (h : s.Tidy) (hs : s.Faithful) (id : String) : (s.delete id).Tidy := by
  rw [Segment.delete]
  split
  next doc _ => exact h.remove hs doc
  next => exact h

theorem Tidy.apply (h : s.Tidy) (hs : s.Faithful) (e : Edit) : (e.apply s).Tidy := by
  cases e with
  | upsert d => exact h.upsert hs d
  | delete id => exact h.delete hs id
  | clear => exact ⟨.empty, .empty, .empty⟩

theorem tidy_edited {edits : List Edit} (he : ∀ d, .upsert d ∈ edits → Fields.OnePath d.fields) :
    (edited edits).Tidy := by
  induction edits using List.reverseRecOn with
  | nil => exact .empty
  | append_singleton edits e ih =>
    have hinit : ∀ d, .upsert d ∈ edits → Fields.OnePath d.fields := fun d hd =>
      he d (List.mem_append_left _ hd)
    rw [edited, List.foldl_append]
    exact (ih hinit).apply (faithful_edited hinit) e

theorem Faithful.sameContent (hs : s.Faithful) (hr : r.Faithful) (h : s.Tidy) (h' : r.Tidy)
    (hd : s.docs = r.docs) : s.SameContent r where
  docs := hd
  terms := hs.terms.eq (hd ▸ hr.terms) h.terms h'.terms
  numbers := hs.numbers.eq (hd ▸ hr.numbers) h.numbers h'.numbers
  facets := hs.facets.eq (hd ▸ hr.facets) h.facets h'.facets

end Segment

end Corpus
