import Corpus.Proofs.Index.Facets
import Corpus.Proofs.Index.Numbers
import Corpus.Proofs.Index.Terms

/-! Segments whose indexes hold exactly the documents that are live, with one document for each
identity.  Every change keeps a segment so. -/

namespace Corpus.Segment

def document? (s : Segment) (id : String) : Option Document := (s.docOf? id).bind s.docs.get?

structure Faithful (s : Segment) : Prop where
  terms : s.terms.Reflects s.docs
  numbers : s.numbers.Reflects s.docs
  facets : s.facets.Reflects s.docs
  lt_nextDoc : ∀ {doc d}, s.docs.get? doc = some d → doc < s.nextDoc
  eq_of_id : ∀ {doc doc' d d'}, s.docs.get? doc = some d → s.docs.get? doc' = some d' →
    d.id = d'.id → doc = doc'

theorem foldl_addField (doc : Nat) (fields : Fields) (s : Segment) :
    fields.foldl (addField doc) s =
      { s with
        terms := fields.foldl (TermIndex.addField doc) s.terms
        numbers := fields.foldl (NumberIndex.addField doc) s.numbers
        facets := fields.foldl (FacetIndex.addField doc) s.facets } := by
  induction fields generalizing s with
  | nil => rfl
  | cons f rest ih =>
    obtain ⟨name, content⟩ := f
    rw [List.foldl_cons, ih]
    cases content <;> rfl

theorem foldl_removeField (doc : Nat) (fields : Fields) (s : Segment) :
    fields.foldl (removeField doc) s =
      { s with
        terms := fields.foldl (TermIndex.removeField doc) s.terms
        numbers := fields.foldl (NumberIndex.removeField doc) s.numbers
        facets := fields.foldl (FacetIndex.removeField doc) s.facets } := by
  induction fields generalizing s with
  | nil => rfl
  | cons f rest ih =>
    obtain ⟨name, content⟩ := f
    rw [List.foldl_cons, ih]
    cases content with
    | text tokens => cases tokens <;> rfl
    | number x => rfl
    | facet path => rfl

theorem Faithful.empty : Segment.empty.Faithful where
  terms := .empty
  numbers := .empty
  facets := .empty
  lt_nextDoc h := nomatch h
  eq_of_id h := nomatch h

theorem Faithful.bump {s : Segment} (h : s.Faithful) : s.bump.Faithful :=
  ⟨h.terms, h.numbers, h.facets, h.lt_nextDoc, h.eq_of_id⟩

theorem Faithful.clear (s : Segment) : s.clear.Faithful :=
  ⟨.empty, .empty, .empty, nofun, nofun⟩

theorem Faithful.insert {s : Segment} (h : s.Faithful) {doc : Nat} {d : Document}
    (hdoc : s.docs.get? doc = none) (hlt : doc < s.nextDoc)
    (hid : ∀ doc' d', s.docs.get? doc' = some d' → d'.id ≠ d.id) (hd : Fields.OnePath d.fields) :
    (s.insert doc d).Faithful := by
  rw [Segment.insert, foldl_addField]
  refine ⟨h.terms.insert hdoc d, h.numbers.insert hdoc d, h.facets.insert hdoc hd, ?_, ?_⟩
  · intro e d' he
    rw [Dict.get?_insert] at he
    split at he
    next heq => exact heq ▸ hlt
    next => exact h.lt_nextDoc he
  · intro e e' d₁ d₂ he he' hids
    simp only [Dict.get?_insert] at he he'
    split at he <;> split at he'
    next h₁ h₂ => rw [h₁, h₂]
    next => cases he; exact absurd hids.symm (hid _ _ he')
    next => cases he'; exact absurd hids (hid _ _ he)
    next => exact h.eq_of_id he he' hids

theorem remove_of_get?_eq_none {s : Segment} {doc : Nat} (hdoc : s.docs.get? doc = none) :
    s.remove doc = s := by
  rw [remove, hdoc]

theorem remove_of_get?_eq_some {s : Segment} {doc : Nat} {d : Document}
    (hdoc : s.docs.get? doc = some d) :
    s.remove doc = { d.fields.foldl (removeField doc) s with docs := s.docs.erase doc } := by
  rw [remove, hdoc]

theorem get?_docs_remove (s : Segment) (doc doc' : Nat) :
    (s.remove doc).docs.get? doc' = if doc' = doc then none else s.docs.get? doc' := by
  cases hdoc : s.docs.get? doc with
  | none =>
    rw [remove_of_get?_eq_none hdoc]
    split
    next he => rw [he, hdoc]
    next => rfl
  | some d => rw [remove_of_get?_eq_some hdoc, Dict.get?_erase]

theorem nextDoc_remove (s : Segment) (doc : Nat) : (s.remove doc).nextDoc = s.nextDoc := by
  cases hdoc : s.docs.get? doc with
  | none => rw [remove_of_get?_eq_none hdoc]
  | some d => rw [remove_of_get?_eq_some hdoc, foldl_removeField]

theorem Faithful.remove {s : Segment} (h : s.Faithful) (doc : Nat) : (s.remove doc).Faithful := by
  cases hdoc : s.docs.get? doc with
  | none => rwa [remove_of_get?_eq_none hdoc]
  | some d =>
    rw [remove_of_get?_eq_some hdoc, foldl_removeField]
    refine ⟨h.terms.erase hdoc, h.numbers.erase hdoc, h.facets.erase hdoc, ?_, ?_⟩
    · intro e d' he
      rw [Dict.get?_erase] at he
      split at he
      next => cases he
      next => exact h.lt_nextDoc he
    · intro e e' d₁ d₂ he he' hids
      simp only [Dict.get?_erase] at he he'
      split at he <;> split at he'
      next => cases he
      next => cases he
      next => cases he'
      next => exact h.eq_of_id he he' hids

theorem Faithful.docOf?_eq_some {s : Segment} (h : s.Faithful) {id : String} {doc : Nat} :
    s.docOf? id = some doc ↔ ∃ d, s.docs.get? doc = some d ∧ d.id = id := by
  rw [docOf?, Option.map_eq_some_iff]
  constructor
  · intro ⟨⟨e, d⟩, hf, he⟩
    have hid := List.find?_some hf
    exact ⟨d, Dict.get?_eq_some_iff.2 (he ▸ List.mem_of_find?_eq_some hf), of_decide_eq_true hid⟩
  · intro ⟨d, hd, hid⟩
    have hm := Dict.get?_eq_some_iff.1 hd
    cases hf : s.docs.entries.find? (·.2.id = id) with
    | none => simpa [hid] using List.find?_eq_none.1 hf _ hm
    | some e =>
      have he := Dict.get?_eq_some_iff.2 (List.mem_of_find?_eq_some hf)
      have hid' : e.2.id = id := by simpa using List.find?_some hf
      exact ⟨e, rfl, h.eq_of_id he hd (hid'.trans hid.symm)⟩

theorem Faithful.docOf?_eq_none {s : Segment} (h : s.Faithful) {id : String} :
    s.docOf? id = none ↔ ∀ doc d, s.docs.get? doc = some d → d.id ≠ id := by
  rw [Option.eq_none_iff_forall_not_mem]
  constructor
  · intro hn doc d hd hid
    exact hn doc (h.docOf?_eq_some.2 ⟨d, hd, hid⟩)
  · intro hn doc hm
    obtain ⟨d, hd, hid⟩ := h.docOf?_eq_some.1 hm
    exact hn doc d hd hid

theorem Faithful.id_eq {s : Segment} (h : s.Faithful) {id : String} {doc : Nat} {d : Document}
    (hdoc : s.docOf? id = some doc) (hd : s.docs.get? doc = some d) : d.id = id := by
  obtain ⟨d', hd', hid⟩ := h.docOf?_eq_some.1 hdoc
  rw [hd] at hd'
  cases hd'
  exact hid

theorem Faithful.document?_eq_some {s : Segment} (h : s.Faithful) {id : String} {d : Document} :
    s.document? id = some d ↔ ∃ doc, s.docs.get? doc = some d ∧ d.id = id := by
  rw [document?, Option.bind_eq_some_iff]
  constructor
  · intro ⟨doc, hdoc, hd⟩
    exact ⟨doc, hd, h.id_eq hdoc hd⟩
  · intro ⟨doc, hd, hid⟩
    exact ⟨doc, h.docOf?_eq_some.2 ⟨d, hd, hid⟩, hd⟩

theorem Faithful.isSome_docOf? {s : Segment} (h : s.Faithful) (id : String) :
    (s.docOf? id).isSome ↔ (s.document? id).isSome := by
  rw [document?, Option.isSome_bind]
  cases hdoc : s.docOf? id with
  | none => simp
  | some doc =>
    obtain ⟨d, hd, -⟩ := h.docOf?_eq_some.1 hdoc
    simp [hd]

theorem get?_docs_upsert (s : Segment) (d : Document) (doc : Nat) :
    (s.upsert d).docs.get? doc =
      if doc = (s.docOf? d.id).getD s.nextDoc then some d else s.docs.get? doc := by
  rw [upsert]
  split
  next e he =>
    rw [insert, Dict.get?_insert, get?_docs_remove, he, Option.getD_some]
    split <;> rfl
  next he => rw [insert, Dict.get?_insert, he]; rfl

theorem Faithful.upsert {s : Segment} (h : s.Faithful) {d : Document}
    (hd : Fields.OnePath d.fields) : (s.upsert d).Faithful := by
  rw [Segment.upsert]
  split
  next doc hdoc =>
    obtain ⟨old, hold, hid⟩ := h.docOf?_eq_some.1 hdoc
    refine (h.remove doc).insert ?_ ?_ ?_ hd
    · rw [get?_docs_remove, if_pos rfl]
    · rw [nextDoc_remove]
      exact h.lt_nextDoc hold
    · intro doc' d' hd' hid'
      rw [get?_docs_remove] at hd'
      split at hd'
      next => cases hd'
      next hne => exact hne (h.eq_of_id hd' hold (hid'.trans hid.symm))
  next hdoc =>
    have hnext : s.docs.get? s.nextDoc = none := by
      cases hn : s.docs.get? s.nextDoc with
      | none => rfl
      | some old => exact absurd (h.lt_nextDoc hn) (Nat.lt_irrefl _)
    have h' : ({ s with nextDoc := s.nextDoc + 1 } : Segment).Faithful :=
      ⟨h.terms, h.numbers, h.facets, fun he => Nat.lt_succ_of_lt (h.lt_nextDoc he), h.eq_of_id⟩
    exact h'.insert hnext (Nat.lt_succ_self _) (h.docOf?_eq_none.1 hdoc) hd

theorem Faithful.delete {s : Segment} (h : s.Faithful) (id : String) : (s.delete id).Faithful := by
  rw [Segment.delete]
  split
  next doc _ => exact h.remove doc
  next => exact h

theorem get?_docs_delete (s : Segment) (id : String) (doc : Nat) :
    (s.delete id).docs.get? doc = if s.docOf? id = some doc then none else s.docs.get? doc := by
  rw [delete]
  split
  next e he => simp only [get?_docs_remove, he, Option.some.injEq, eq_comm]
  next he => simp [he]

theorem Faithful.document?_upsert {s : Segment} (h : s.Faithful) {d : Document}
    (hd : Fields.OnePath d.fields) (id : String) :
    (s.upsert d).document? id = if id = d.id then some d else s.document? id := by
  apply Option.ext
  intro e
  rw [(h.upsert hd).document?_eq_some]
  simp only [get?_docs_upsert]
  by_cases hid : id = d.id
  · rw [if_pos hid, Option.some.injEq]
    constructor
    · intro ⟨doc, he, heid⟩
      split at he
      next => exact Option.some.inj he
      next hne =>
        rw [h.docOf?_eq_some.2 ⟨e, he, heid.trans hid⟩] at hne
        exact absurd rfl hne
    · intro he
      exact ⟨_, (if_pos rfl).trans (he ▸ rfl), he ▸ hid.symm⟩
  · rw [if_neg hid, h.document?_eq_some]
    constructor
    · intro ⟨doc, he, heid⟩
      split at he
      next => cases he; exact absurd heid.symm hid
      next => exact ⟨doc, he, heid⟩
    · intro ⟨doc, he, heid⟩
      refine ⟨doc, ?_, heid⟩
      rw [if_neg, he]
      intro hdoc
      cases ho : s.docOf? d.id with
      | none =>
        rw [ho, Option.getD_none] at hdoc
        exact Nat.lt_irrefl _ (hdoc ▸ h.lt_nextDoc he)
      | some o =>
        rw [ho, Option.getD_some] at hdoc
        exact hid (heid.symm.trans (h.id_eq ho (hdoc ▸ he)))

theorem Faithful.document?_delete {s : Segment} (h : s.Faithful) (id id' : String) :
    (s.delete id).document? id' = if id' = id then none else s.document? id' := by
  apply Option.ext
  intro e
  rw [(h.delete id).document?_eq_some]
  simp only [get?_docs_delete]
  by_cases hid : id' = id
  · rw [if_pos hid]
    constructor
    · intro ⟨doc, he, heid⟩
      split at he
      next => cases he
      next hne => exact absurd (h.docOf?_eq_some.2 ⟨e, he, heid.trans hid⟩) hne
    · exact nofun
  · rw [if_neg hid, h.document?_eq_some]
    constructor
    · intro ⟨doc, he, heid⟩
      split at he
      next => cases he
      next => exact ⟨doc, he, heid⟩
    · intro ⟨doc, he, heid⟩
      refine ⟨doc, ?_, heid⟩
      rw [if_neg, he]
      intro hdoc
      exact hid (heid.symm.trans (h.id_eq hdoc he))

@[simp] theorem document?_bump (s : Segment) (id : String) : s.bump.document? id = s.document? id :=
  rfl

end Corpus.Segment
