import Corpus.Proofs.Index.Tidy
import Mathlib.Data.List.Nodup
import Mathlib.Data.Set.Function

/-! Segments with other numbers for their documents. -/

namespace Corpus

open Number

variable {ρ : Nat → Nat}

def Dict.rename (ρ : Nat → Nat) (d : Dict Nat ν) : Dict Nat ν :=
  .ofList (d.entries.map fun (doc, v) => (ρ doc, v))

def DocSet.rename (ρ : Nat → Nat) (s : DocSet) : DocSet := .ofList (s.toList.map ρ)

def Dict.holders (d : Dict Nat ν) : Set Nat := {doc | (d.get? doc).isSome}

namespace Dict

variable {d : Dict Nat ν}

theorem nodup_renamed (h : Set.InjOn ρ d.holders) :
    ((d.entries.map fun (doc, v) => (ρ doc, v)).map (·.1)).Nodup := by
  have hkeys : (d.entries.map fun (doc, v) => (ρ doc, v)).map (·.1) = d.keys.map ρ := by
    rw [keys, List.map_map, List.map_map]
    rfl
  rw [hkeys]
  exact List.Nodup.map_on (fun doc hdoc doc' hdoc' => h (mem_keys_iff.1 hdoc) (mem_keys_iff.1 hdoc'))
    d.nodup_keys

theorem get?_rename (h : Set.InjOn ρ d.holders) {doc : Nat} {v : ν} :
    (d.rename ρ).get? doc = some v ↔ ∃ old, ρ old = doc ∧ d.get? old = some v := by
  rw [rename, get?_ofList (nodup_renamed h), List.mem_map]
  constructor
  · rintro ⟨⟨old, w⟩, hm, he⟩
    cases he
    exact ⟨old, rfl, get?_eq_some_iff.2 hm⟩
  · rintro ⟨old, rfl, hget⟩
    exact ⟨(old, v), get?_eq_some_iff.1 hget, rfl⟩

theorem get?_rename_apply (h : Set.InjOn ρ d.holders) {doc : Nat} (hdoc : doc ∈ d.holders) :
    (d.rename ρ).get? (ρ doc) = d.get? doc := by
  obtain ⟨v, hv⟩ := Option.isSome_iff_exists.1 hdoc
  rw [hv]
  exact (get?_rename h).2 ⟨doc, rfl, hv⟩

theorem values_rename_perm (h : Set.InjOn ρ d.holders) : (d.rename ρ).values.Perm d.values := by
  have hn := nodup_renamed h
  have hp : (d.rename ρ).entries.Perm (d.entries.map fun (doc, v) => (ρ doc, v)) := by
    refine (List.perm_ext_iff_of_nodup (nodup_entries _) (List.Nodup.of_map _ hn)).2 fun ⟨doc, v⟩ => ?_
    rw [← get?_eq_some_iff, rename, get?_ofList hn]
  refine (hp.map (·.2)).trans (.of_eq ?_)
  rw [List.map_map]
  rfl

theorem isEmpty_rename (h : Set.InjOn ρ d.holders) (hd : d.isEmpty = false) :
    (d.rename ρ).isEmpty = false := by
  obtain ⟨doc, v, hv⟩ := exists_get? hd
  exact isEmpty_eq_false ((get?_rename h).2 ⟨doc, rfl, hv⟩)

section

variable {κ κ' : Type} [Ord κ] [Ord κ'] [Std.LawfulEqOrd κ] [Std.LawfulEqOrd κ']

theorem bind_get?_mapValues (g : ν → μ) (d : Dict κ (Dict κ' ν)) (k : κ) (j : κ') :
    ((d.mapValues (·.mapValues g)).get? k).bind (·.get? j) = ((d.get? k).bind (·.get? j)).map g := by
  cases hk : d.get? k <;> simp [hk]

theorem Filled.mapValues {P : ν → Prop} {Q : μ → Prop} {g : ν → μ} {d : Dict κ (Dict κ' ν)}
    (h : d.Filled P) (hg : ∀ k j v, (d.get? k).bind (·.get? j) = some v → Q (g v)) :
    (d.mapValues (·.mapValues g)).Filled Q := by
  intro k e he
  rw [get?_mapValues] at he
  obtain ⟨inner, hk, rfl⟩ := Option.map_eq_some_iff.1 he
  constructor
  · obtain ⟨j, v, hv⟩ := exists_get? (h hk).1
    exact isEmpty_eq_false (v := g v) ((get?_mapValues g inner j).trans (by rw [hv]; rfl))
  · intro j w hw
    rw [get?_mapValues] at hw
    obtain ⟨v, hv, rfl⟩ := Option.map_eq_some_iff.1 hw
    exact hg k j v (by rw [hk]; exact hv)

end

end Dict

@[simp] theorem DocSet.mem_rename {s : DocSet} {doc : Nat} :
    doc ∈ s.rename ρ ↔ ∃ old ∈ s, ρ old = doc := by
  rw [rename, mem_ofList, List.mem_map]
  rfl

theorem DocSet.isEmpty_rename {s : DocSet} (h : s.isEmpty = false) : (s.rename ρ).isEmpty = false := by
  obtain ⟨doc, hdoc⟩ := exists_mem h
  refine Bool.eq_false_iff.2 fun he => ?_
  exact isEmpty_iff.1 he (ρ doc) (mem_rename.2 ⟨doc, hdoc, rfl⟩)

def TermIndex.rename (ρ : Nat → Nat) (t : TermIndex) : TermIndex where
  postings := t.postings.mapValues (·.mapValues (·.rename ρ))
  stats := t.stats

def NumberIndex.rename (ρ : Nat → Nat) (n : NumberIndex) : NumberIndex :=
  ⟨n.fields.mapValues (·.mapValues (·.rename ρ))⟩

def FacetIndex.rename (ρ : Nat → Nat) (x : FacetIndex) : FacetIndex where
  below := x.below.mapValues (·.mapValues (·.rename ρ))
  paths := x.paths.mapValues (·.rename ρ)

def Segment.rename (ρ : Nat → Nat) (s : Segment) : Segment :=
  { s with docs := s.docs.rename ρ, terms := s.terms.rename ρ, numbers := s.numbers.rename ρ,
           facets := s.facets.rename ρ }

section

variable {docs : Dict Nat Document}

namespace TermIndex

variable {t : TermIndex}

theorem Reflects.holders_subset (h : t.Reflects docs) {field text : String} {list : PostingList}
    (hl : (t.postings.get? field).bind (·.get? text) = some list) : list.holders ⊆ docs.holders := by
  intro doc hdoc
  have hp := h.posting? field text doc
  rw [posting?_eq, hl, Option.bind_some] at hp
  have hsome : (list.get? doc).isSome := hdoc
  rw [hp, Option.isSome_bind, Option.any_eq_true] at hsome
  obtain ⟨d, hd, -⟩ := hsome
  exact Option.isSome_of_eq_some hd

theorem Reflects.tidy_rename (h : t.Reflects docs) (ht : t.Tidy) (hρ : Set.InjOn ρ docs.holders) :
    (t.rename ρ).Tidy := by
  refine ⟨ht.postings.mapValues fun field text list hl => ?_, ht.stats⟩
  exact Dict.isEmpty_rename (hρ.mono (h.holders_subset hl)) (ht.postings.of_bind_get? hl)

theorem Reflects.posting?_rename (h : t.Reflects docs) (hρ : Set.InjOn ρ docs.holders)
    {field text : String} {doc : Nat} {p : Posting} :
    (t.rename ρ).posting? field text doc = some p ↔
      ∃ old, ρ old = doc ∧ t.posting? field text old = some p := by
  simp only [posting?_eq]
  rw [TermIndex.rename, Dict.bind_get?_mapValues]
  cases hl : (t.postings.get? field).bind (·.get? text) with
  | none => simp
  | some list => exact Dict.get?_rename (hρ.mono (h.holders_subset hl))

theorem Reflects.rename (h : t.Reflects docs) (hρ : Set.InjOn ρ docs.holders) :
    (t.rename ρ).Reflects (docs.rename ρ) := by
  refine ⟨fun field text doc => Option.ext fun p => ?_, fun field => ?_⟩
  · simp only [h.posting?_rename hρ, h.posting?, Option.bind_eq_some_iff, Dict.get?_rename hρ]
    constructor
    · rintro ⟨old, rfl, d, hd, hp⟩
      exact ⟨d, ⟨old, rfl, hd⟩, hp⟩
    · rintro ⟨d, ⟨old, rfl, hd⟩, hp⟩
      exact ⟨old, rfl, d, hd, hp⟩
  · exact (h.stats field).trans
      (FieldStats.of?_perm ((Dict.values_rename_perm hρ).flatMap_right _).symm)

end TermIndex

namespace NumberIndex

variable {n : NumberIndex}

theorem Tidy.rename (h : n.Tidy) (ρ : Nat → Nat) : (n.rename ρ).Tidy :=
  Dict.Filled.mapValues h fun _ _ _ hdocs => DocSet.isEmpty_rename (Dict.Filled.of_bind_get? h hdocs)

theorem mem_docsAt_rename {field : String} {key doc : Nat} :
    doc ∈ (n.rename ρ).docsAt field key ↔ ∃ old ∈ n.docsAt field key, ρ old = doc := by
  rw [docsAt, docsAt, NumberIndex.rename, Dict.bind_get?_mapValues]
  cases (n.fields.get? field).bind (·.get? key) <;> simp

theorem Reflects.rename (h : n.Reflects docs) (hρ : Set.InjOn ρ docs.holders) :
    (n.rename ρ).Reflects (docs.rename ρ) := by
  intro field key doc
  simp only [mem_docsAt_rename, h field key, Dict.get?_rename hρ]
  constructor
  · rintro ⟨old, ⟨d, hd, hk⟩, rfl⟩
    exact ⟨d, ⟨old, rfl, hd⟩, hk⟩
  · rintro ⟨d, ⟨old, rfl, hd⟩, hk⟩
    exact ⟨old, ⟨d, hd, hk⟩, rfl⟩

end NumberIndex

namespace FacetIndex

variable {x : FacetIndex}

theorem Reflects.holders_subset (h : x.Reflects docs) {field : String} {paths : Dict Nat Path}
    (hp : x.paths.get? field = some paths) : paths.holders ⊆ docs.holders := by
  intro doc hdoc
  have hpath := h.pathOf? field doc
  rw [FacetIndex.pathOf?, hp, Option.bind_some] at hpath
  have hsome : (paths.get? doc).isSome := hdoc
  rw [hpath, Option.isSome_bind, Option.any_eq_true] at hsome
  obtain ⟨d, hd, -⟩ := hsome
  exact Option.isSome_of_eq_some hd

theorem Reflects.tidy_rename (h : x.Reflects docs) (hx : x.Tidy) (hρ : Set.InjOn ρ docs.holders) :
    (x.rename ρ).Tidy := by
  refine ⟨hx.below.mapValues fun _ _ _ hd => DocSet.isEmpty_rename (hx.below.of_bind_get? hd), ?_⟩
  intro field paths hp
  rw [FacetIndex.rename, Dict.get?_mapValues] at hp
  obtain ⟨old, hold, rfl⟩ := Option.map_eq_some_iff.1 hp
  exact Dict.isEmpty_rename (hρ.mono (h.holders_subset hold)) (hx.paths hold)

theorem Reflects.pathOf?_rename (h : x.Reflects docs) (hρ : Set.InjOn ρ docs.holders) {field : String}
    {doc : Nat} {path : Path} : (x.rename ρ).pathOf? field doc = some path ↔
      ∃ old, ρ old = doc ∧ x.pathOf? field old = some path := by
  simp only [FacetIndex.pathOf?, FacetIndex.rename, Dict.get?_mapValues]
  cases hp : x.paths.get? field with
  | none => simp
  | some paths => exact Dict.get?_rename (hρ.mono (h.holders_subset hp))

theorem mem_docsUnder_rename {field : String} {start : Path} {doc : Nat} :
    doc ∈ (x.rename ρ).docsUnder field start ↔ ∃ old ∈ x.docsUnder field start, ρ old = doc := by
  rw [docsUnder, docsUnder, FacetIndex.rename, Dict.bind_get?_mapValues]
  cases (x.below.get? field).bind (·.get? start) <;> simp

theorem Reflects.rename (h : x.Reflects docs) (hρ : Set.InjOn ρ docs.holders) :
    (x.rename ρ).Reflects (docs.rename ρ) := by
  refine ⟨fun field start doc => ?_, fun field doc => Option.ext fun path => ?_⟩
  · simp only [mem_docsUnder_rename, h.mirrors field start, h.pathOf?_rename hρ]
    constructor
    · rintro ⟨old, ⟨path, hpath, hle⟩, rfl⟩
      exact ⟨path, ⟨old, rfl, hpath⟩, hle⟩
    · rintro ⟨path, ⟨old, rfl, hpath⟩, hle⟩
      exact ⟨old, ⟨path, hpath, hle⟩, rfl⟩
  · simp only [h.pathOf?_rename hρ, h.pathOf?, Option.bind_eq_some_iff, Dict.get?_rename hρ]
    constructor
    · rintro ⟨old, rfl, d, hd, hp⟩
      exact ⟨d, ⟨old, rfl, hd⟩, hp⟩
    · rintro ⟨d, ⟨old, rfl, hd⟩, hp⟩
      exact ⟨old, rfl, d, hd, hp⟩

end FacetIndex

namespace Segment

variable {s r : Segment}

theorem Faithful.sameContent_rename (hs : s.Faithful) (hr : r.Faithful) (h : s.Tidy) (h' : r.Tidy)
    (hρ : Set.InjOn ρ s.docs.holders) (hd : s.docs.rename ρ = r.docs) :
    (s.rename ρ).SameContent r where
  docs := hd
  terms := (hs.terms.rename hρ).eq (hd ▸ hr.terms) (hs.terms.tidy_rename h.terms hρ) h'.terms
  numbers := (hs.numbers.rename hρ).eq (hd ▸ hr.numbers) (h.numbers.rename ρ) h'.numbers
  facets := (hs.facets.rename hρ).eq (hd ▸ hr.facets) (hs.facets.tidy_rename h.facets hρ) h'.facets

/-- The number in `r` of the document that has its identity. -/
def counterpart (s r : Segment) (doc : Nat) : Nat := ((s.idOf? doc).bind r.docOf?).getD 0

theorem Faithful.counterpart_eq (hr : r.Faithful) {doc doc' : Nat} {d d' : Document}
    (hd : s.docs.get? doc = some d) (hd' : r.docs.get? doc' = some d') (hid : d'.id = d.id) :
    s.counterpart r doc = doc' := by
  rw [counterpart, idOf?, hd, Option.map_some, Option.bind_some,
    hr.docOf?_eq_some.2 ⟨d', hd', hid⟩, Option.getD_some]

theorem Faithful.exists_renaming (hs : s.Faithful) (hr : r.Faithful) (h : s.Tidy) (h' : r.Tidy)
    (hd : ∀ id, s.document? id = r.document? id) :
    ∃ ρ, Set.BijOn ρ s.docs.holders r.docs.holders ∧ (s.rename ρ).SameContent r := by
  have hto {doc : Nat} {d : Document} (hdoc : s.docs.get? doc = some d) :
      r.docs.get? (s.counterpart r doc) = some d := by
    obtain ⟨doc', hdoc', hid⟩ := hr.document?_eq_some.1
      ((hd d.id).symm.trans (hs.document?_eq_some.2 ⟨doc, hdoc, rfl⟩))
    rwa [hr.counterpart_eq hdoc hdoc' hid]
  have hfrom {doc : Nat} {d : Document} (hdoc : r.docs.get? doc = some d) :
      ∃ old, s.counterpart r old = doc ∧ s.docs.get? old = some d := by
    obtain ⟨old, hold, hid⟩ := hs.document?_eq_some.1
      ((hd d.id).trans (hr.document?_eq_some.2 ⟨doc, hdoc, rfl⟩))
    exact ⟨old, hr.counterpart_eq hold hdoc hid.symm, hold⟩
  have hinj : Set.InjOn (s.counterpart r) s.docs.holders := by
    intro doc hdoc doc' hdoc' he
    obtain ⟨d, hget⟩ := Option.isSome_iff_exists.1 hdoc
    obtain ⟨d', hget'⟩ := Option.isSome_iff_exists.1 hdoc'
    have hsame := (hto hget).symm.trans (he ▸ hto hget')
    cases hsame
    exact hs.eq_of_id hget hget' rfl
  refine ⟨s.counterpart r, ⟨fun doc hdoc => ?_, hinj, fun doc hdoc => ?_⟩, ?_⟩
  · obtain ⟨d, hget⟩ := Option.isSome_iff_exists.1 hdoc
    exact Option.isSome_of_eq_some (hto hget)
  · obtain ⟨d, hget⟩ := Option.isSome_iff_exists.1 hdoc
    obtain ⟨old, he, hold⟩ := hfrom hget
    exact ⟨old, Option.isSome_of_eq_some hold, he⟩
  · refine hs.sameContent_rename hr h h' hinj (Dict.ext_get? fun doc => Option.ext fun d => ?_)
    rw [Dict.get?_rename hinj]
    constructor
    · rintro ⟨old, rfl, hold⟩
      exact hto hold
    · exact hfrom

end Segment

end

end Corpus
