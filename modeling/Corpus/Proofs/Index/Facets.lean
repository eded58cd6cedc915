import Corpus.Proofs.Index.Fields

/-! The index of categories against the documents in it.  The documents below a path are those whose
own path starts with it. -/

namespace Corpus

namespace Fields

def path? (fields : Fields) (field : String) : Option Path := (paths fields field).getLast?

def OnePath (fields : Fields) : Prop := ∀ field, (paths fields field).length ≤ 1

theorem OnePath.cons {fields : Fields} (h : OnePath fields) (name : String) {content : Content}
    (hc : content.path? = none) : OnePath ((name, content) :: fields) := by
  intro field
  have hf := h field
  rw [paths, read_cons, hc]
  split <;> exact hf

theorem OnePath.append {fields more : Fields} (h : OnePath fields)
    (hm : ∀ f ∈ more, f.2.path? = none) : OnePath (fields ++ more) := by
  intro field
  have hmore : paths more field = [] := by
    refine List.eq_nil_iff_forall_not_mem.2 fun path hp => ?_
    obtain ⟨content, hc, hpath⟩ := mem_read.1 hp
    rw [hm _ hc] at hpath
    cases hpath
  have happ : paths (fields ++ more) field = paths fields field ++ paths more field :=
    List.filterMap_append
  rw [happ, hmore, List.append_nil]
  exact h field

theorem mem_paths_of_onePath {fields : Fields} (h : OnePath fields) {field : String} {path : Path} :
    path ∈ paths fields field ↔ path? fields field = some path := by
  have hl := h field
  rw [path?]
  match paths fields field, hl with
  | [], _ => simp
  | [p], _ => simp [eq_comm]

theorem onePath_of_nodup {fields : Fields} (hn : (fields.map (·.1)).Nodup) : OnePath fields := by
  intro field
  cases hp : paths fields field with
  | nil => exact Nat.zero_le 1
  | cons path rest =>
    have hm : (field, .facet path) ∈ fields := mem_paths.1 (hp ▸ .head _)
    rw [← hp, paths, read_eq_of_mem hn hm]
    exact Nat.le_refl 1

end Fields

namespace FacetIndex

theorem mem_starts {start path : Path} : start ∈ starts path ↔ start <+: path := by
  simp only [starts, List.mem_map, List.mem_range]
  constructor
  · intro ⟨n, _, h⟩
    exact h ▸ List.take_prefix n path
  · intro h
    exact ⟨start.length, Nat.lt_succ_of_le h.length_le, (List.prefix_iff_eq_take.1 h).symm⟩

theorem isPrefixOf_append_singleton (path p : Path) (label : String) :
    (path ++ [label]).isPrefixOf p = (path.isPrefixOf p && p[path.length]? == some label) := by
  induction path generalizing p with
  | nil => cases p <;> simp [List.isPrefixOf, eq_comm]
  | cons a rest ih =>
    cases p with
    | nil => rfl
    | cons b p => simp [List.isPrefixOf, ih, Bool.and_assoc]

theorem mem_foldl_insertBelow {doc doc' : Nat} {list : List Path} {below : Dict Path DocSet}
    {start : Path} :
    doc' ∈ ((list.foldl (insertBelow doc) below).get? start).getD .empty ↔
      doc' = doc ∧ start ∈ list ∨ doc' ∈ (below.get? start).getD .empty := by
  induction list generalizing below with
  | nil => simp
  | cons p rest ih =>
    rw [List.foldl_cons, ih, insertBelow, Dict.get?_alter]
    by_cases hp : start = p
    · simp [hp]
      grind
    · simp [hp]

theorem mem_foldl_eraseBelow (doc doc' : Nat) (list : List Path) (below : Dict Path DocSet)
    (start : Path) :
    doc' ∈ ((list.foldl (eraseBelow doc) below).get? start).getD .empty ↔
      doc' ∈ (below.get? start).getD .empty ∧ ¬(doc' = doc ∧ start ∈ list) := by
  induction list generalizing below with
  | nil => simp
  | cons p rest ih =>
    rw [List.foldl_cons, ih, eraseBelow, Dict.get?_alter]
    by_cases hp : start = p
    · subst hp
      cases hb : below.get? start with
      | none => simp
      | some docs =>
        by_cases he : (docs.erase doc).isEmpty
        · have hn := DocSet.isEmpty_iff.1 he doc'
          simp only [DocSet.mem_erase] at hn
          simp [he]
          grind
        · simp [he]
          grind
    · simp [hp]

theorem docsUnder_eq (x : FacetIndex) (field : String) (path : Path) :
    x.docsUnder field path = (((x.below.get? field).getD .empty).get? path).getD .empty := by
  rw [docsUnder, Dict.getD_empty_get?]

theorem mem_docsUnder_add {x : FacetIndex} {doc doc' : Nat} {field field' : String}
    {path start : Path} :
    doc' ∈ (x.add doc field path).docsUnder field' start ↔
      doc' = doc ∧ field' = field ∧ start <+: path ∨ doc' ∈ x.docsUnder field' start := by
  by_cases hf : field' = field
  · subst hf
    simp [docsUnder_eq, add, Dict.get?_alter, mem_foldl_insertBelow, mem_starts]
  · simp [docsUnder_eq, add, Dict.get?_alter, hf]

theorem pathOf?_add (x : FacetIndex) (doc doc' : Nat) (field field' : String) (path : Path) :
    (x.add doc field path).pathOf? field' doc' =
      if doc' = doc ∧ field' = field then some path else x.pathOf? field' doc' := by
  by_cases hf : field' = field
  · subst hf
    by_cases hd : doc' = doc <;> simp [pathOf?, add, Dict.get?_alter, hd]
  · simp [pathOf?, add, Dict.get?_alter, hf]

/-- The documents below a path are those whose own path starts with it. -/
def Mirrors (x : FacetIndex) : Prop :=
  ∀ field start doc,
    doc ∈ x.docsUnder field start ↔ ∃ path, x.pathOf? field doc = some path ∧ start <+: path

theorem pathOf?_erase (x : FacetIndex) (doc doc' : Nat) (field field' : String) :
    ((x.paths.alter field (·.map (·.erase doc))).get? field').bind (·.get? doc') =
      if doc' = doc ∧ field' = field then none else x.pathOf? field' doc' := by
  by_cases hf : field' = field
  · subst hf
    cases hp : x.paths.get? field' with
    | none => simp [pathOf?, Dict.get?_alter, hp]
    | some paths => by_cases hd : doc' = doc <;> simp [pathOf?, Dict.get?_alter, hp, hd]
  · simp [pathOf?, Dict.get?_alter, hf]

theorem remove_of_pathOf?_eq_none {x : FacetIndex} {doc : Nat} {field : String}
    (h : x.pathOf? field doc = none) : x.remove doc field = x := by
  rw [remove, h]

theorem remove_of_pathOf?_eq_some {x : FacetIndex} {doc : Nat} {field : String} {path : Path}
    {below : Dict Path DocSet} (hp : x.pathOf? field doc = some path)
    (hb : x.below.get? field = some below) :
    x.remove doc field =
      if ((starts path).foldl (eraseBelow doc) below).isEmpty then
        ⟨x.below.erase field, (x.paths.alter field (·.map (·.erase doc))).erase field⟩
      else
        ⟨x.below.insert field ((starts path).foldl (eraseBelow doc) below),
          x.paths.alter field (·.map (·.erase doc))⟩ := by
  simp only [remove, hp, hb]

/-- A document is below all starts of its path, perhaps below others too. -/
def Covers (x : FacetIndex) : Prop :=
  ∀ ⦃field doc path start⦄, x.pathOf? field doc = some path → start <+: path →
    doc ∈ x.docsUnder field start

theorem Mirrors.covers {x : FacetIndex} (h : x.Mirrors) : x.Covers :=
  fun field doc path start hp hs => (h field start doc).2 ⟨path, hp, hs⟩

theorem Covers.below_isSome {x : FacetIndex} (h : x.Covers) {doc : Nat} {field : String}
    {path : Path} (hp : x.pathOf? field doc = some path) : (x.below.get? field).isSome := by
  have hm := h hp (List.prefix_refl path)
  rw [docsUnder] at hm
  cases hb : x.below.get? field with
  | none => simp [hb] at hm
  | some below => rfl

theorem mem_docsUnder_remove {x : FacetIndex} {doc doc' : Nat} {field field' : String}
    {path start : Path} {below : Dict Path DocSet} (hp : x.pathOf? field doc = some path)
    (hb : x.below.get? field = some below) :
    doc' ∈ (x.remove doc field).docsUnder field' start ↔
      doc' ∈ x.docsUnder field' start ∧ ¬(doc' = doc ∧ field' = field ∧ start <+: path) := by
  have he := mem_foldl_eraseBelow doc doc' (starts path) below start
  rw [mem_starts] at he
  rw [remove_of_pathOf?_eq_some hp hb]
  by_cases hf : field' = field
  · subst hf
    simp only [docsUnder_eq, hb, Option.getD_some, true_and]
    rw [← he]
    split
    next hempty => simp [Dict.get?_eq_none_of_isEmpty hempty]
    next => simp
  · split <;> simp [docsUnder, hf]

theorem Covers.pathOf?_remove {x : FacetIndex} (h : x.Covers) (doc doc' : Nat)
    (field field' : String) :
    (x.remove doc field).pathOf? field' doc' =
      if doc' = doc ∧ field' = field then none else x.pathOf? field' doc' := by
  cases hp : x.pathOf? field doc with
  | none =>
    rw [remove_of_pathOf?_eq_none hp]
    split
    next hd => rw [hd.1, hd.2, hp]
    next => rfl
  | some path =>
    obtain ⟨below, hb⟩ := Option.isSome_iff_exists.1 (h.below_isSome hp)
    rw [remove_of_pathOf?_eq_some hp hb]
    split
    next hempty =>
      by_cases hf : field' = field
      · -- Another document with a path in the field would still be below that path.
        subst hf
        cases hq : x.pathOf? field' doc' with
        | none => simp [pathOf?]
        | some q =>
          have hm := h hq (List.prefix_refl q)
          rw [docsUnder_eq, hb, Option.getD_some] at hm
          have he := mem_foldl_eraseBelow doc doc' (starts path) below q
          rw [Dict.get?_eq_none_of_isEmpty hempty] at he
          have hd : doc' = doc := Decidable.byContradiction fun hne =>
            DocSet.mem_empty doc' (he.2 ⟨hm, fun hc => hne hc.1⟩)
          simp [pathOf?, hd]
      · rw [← pathOf?_erase x doc doc' field field']
        simp [pathOf?, hf]
    next => exact pathOf?_erase x doc doc' field field'

theorem Mirrors.remove {x : FacetIndex} (h : x.Mirrors) (doc : Nat) (field : String) :
    (x.remove doc field).Mirrors := by
  cases hp : x.pathOf? field doc with
  | none => rwa [remove_of_pathOf?_eq_none hp]
  | some path =>
    obtain ⟨below, hb⟩ := Option.isSome_iff_exists.1 (h.covers.below_isSome hp)
    intro field' start doc'
    rw [mem_docsUnder_remove hp hb, h.covers.pathOf?_remove, h field' start doc']
    by_cases hd : doc' = doc ∧ field' = field
    · rw [if_pos hd, hd.1, hd.2, hp]
      simp
    · rw [if_neg hd]
      constructor
      · exact fun hc => hc.1
      · exact fun hc => ⟨hc, fun hn => hd ⟨hn.1, hn.2.1⟩⟩

def addField (doc : Nat) (x : FacetIndex) (field : String × Content) : FacetIndex :=
  match field.2 with
  | .facet path => x.add doc field.1 path
  | _ => x

def removeField (doc : Nat) (x : FacetIndex) (field : String × Content) : FacetIndex :=
  match field.2 with
  | .facet _ => x.remove doc field.1
  | _ => x

theorem mem_docsUnder_foldl_addField {doc doc' : Nat} {fields : Fields} {x : FacetIndex}
    {field : String} {start : Path} :
    doc' ∈ (fields.foldl (addField doc) x).docsUnder field start ↔
      doc' = doc ∧ (∃ path ∈ Fields.paths fields field, start <+: path) ∨
        doc' ∈ x.docsUnder field start := by
  induction fields generalizing x with
  | nil => simp [Fields.paths, Fields.read]
  | cons f rest ih =>
    obtain ⟨name, content⟩ := f
    rw [List.foldl_cons, ih]
    cases content with
    | text tokens => simp [addField, Fields.mem_paths]
    | number y => simp [addField, Fields.mem_paths]
    | facet path =>
      simp only [addField, mem_docsUnder_add, Fields.mem_paths, List.mem_cons, Prod.mk.injEq,
        Content.facet.injEq]
      grind

theorem pathOf?_foldl_addField (doc doc' : Nat) (fields : Fields) (x : FacetIndex)
    (field : String) :
    (fields.foldl (addField doc) x).pathOf? field doc' =
      if doc' = doc then (Fields.path? fields field).or (x.pathOf? field doc')
      else x.pathOf? field doc' := by
  induction fields generalizing x with
  | nil => simp [Fields.path?, Fields.paths, Fields.read]
  | cons f rest ih =>
    obtain ⟨name, content⟩ := f
    rw [List.foldl_cons, ih, Fields.path?, Fields.path?, Fields.paths, Fields.read_cons,
      List.getLast?_append, Option.or_assoc]
    cases content with
    | text tokens => simp [addField, Content.path?]
    | number y => simp [addField, Content.path?]
    | facet path =>
      rw [addField, pathOf?_add]
      by_cases hf : name = field
      · by_cases hd : doc' = doc <;> simp [hf, hd, Content.path?]
      · have hf' : field ≠ name := fun e => hf e.symm
        simp [hf, hf']

theorem Mirrors.foldl_removeField {x : FacetIndex} (h : x.Mirrors) (doc : Nat) (fields : Fields) :
    (fields.foldl (removeField doc) x).Mirrors := by
  induction fields generalizing x with
  | nil => exact h
  | cons f rest ih =>
    obtain ⟨name, content⟩ := f
    cases content with
    | text tokens => exact ih h
    | number y => exact ih h
    | facet path => exact ih (h.remove doc name)

theorem Mirrors.pathOf?_foldl_removeField {x : FacetIndex} (h : x.Mirrors) (doc doc' : Nat)
    (fields : Fields) (field : String) :
    (fields.foldl (removeField doc) x).pathOf? field doc' =
      if doc' = doc ∧ (Fields.path? fields field).isSome then none else x.pathOf? field doc' := by
  induction fields generalizing x with
  | nil => simp [Fields.path?, Fields.paths, Fields.read]
  | cons f rest ih =>
    obtain ⟨name, content⟩ := f
    rw [List.foldl_cons]
    cases content with
    | text tokens =>
      rw [removeField, ih h]
      simp [Fields.path?, Fields.paths, Fields.read_cons, Content.path?]
    | number y =>
      rw [removeField, ih h]
      simp [Fields.path?, Fields.paths, Fields.read_cons, Content.path?]
    | facet path =>
      rw [removeField, ih (h.remove doc name), h.covers.pathOf?_remove]
      by_cases hf : name = field
      · by_cases hd : doc' = doc <;>
          simp [Fields.path?, Fields.paths, Fields.read_cons, Content.path?, hf, hd]
      · have hf' : field ≠ name := fun e => hf e.symm
        simp [Fields.path?, Fields.paths, Fields.read_cons, hf, hf']

structure Reflects (x : FacetIndex) (docs : Dict Nat Document) : Prop where
  mirrors : x.Mirrors
  pathOf? : ∀ field doc,
    x.pathOf? field doc = (docs.get? doc).bind (Fields.path? ·.fields field)

theorem Reflects.empty : FacetIndex.empty.Reflects .empty where
  mirrors field start doc := by simp [docsUnder, FacetIndex.pathOf?, FacetIndex.empty]
  pathOf? field doc := rfl

theorem Reflects.insert {x : FacetIndex} {docs : Dict Nat Document} (h : x.Reflects docs)
    {doc : Nat} (hdoc : docs.get? doc = none) {d : Document} (hd : Fields.OnePath d.fields) :
    (d.fields.foldl (addField doc) x).Reflects (docs.insert doc d) where
  mirrors field start doc' := by
    rw [mem_docsUnder_foldl_addField, pathOf?_foldl_addField, h.mirrors field start doc', h.pathOf?]
    by_cases he : doc' = doc
    · simp [he, hdoc, Fields.mem_paths_of_onePath hd]
    · simp [he]
  pathOf? field doc' := by
    rw [pathOf?_foldl_addField, h.pathOf?, Dict.get?_insert]
    by_cases he : doc' = doc <;> simp [he, hdoc]

theorem Reflects.erase {x : FacetIndex} {docs : Dict Nat Document} (h : x.Reflects docs)
    {doc : Nat} {d : Document} (hdoc : docs.get? doc = some d) :
    (d.fields.foldl (removeField doc) x).Reflects (docs.erase doc) where
  mirrors := h.mirrors.foldl_removeField doc d.fields
  pathOf? field doc' := by
    rw [h.mirrors.pathOf?_foldl_removeField, h.pathOf?, Dict.get?_erase]
    by_cases he : doc' = doc
    · cases hp : Fields.path? d.fields field <;> simp [he, hdoc, hp]
    · simp [he]

end FacetIndex

end Corpus
