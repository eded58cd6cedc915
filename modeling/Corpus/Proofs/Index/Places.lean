import Corpus.Proofs.Index.Tidy

/-! The index of categories after any changes.  A document that is added to a field where it has a path
already is moved to the new one, but stays below the starts of the old one. -/

namespace Corpus.FacetIndex

inductive Edit
  | add (doc : Nat) (field : String) (path : Path)
  | remove (doc : Nat) (field : String)
  | clear
  deriving DecidableEq

def Edit.apply (x : FacetIndex) : Edit → FacetIndex
  | .add doc field path => x.add doc field path
  | .remove doc field => x.remove doc field
  | .clear => .empty

def edited (edits : List Edit) : FacetIndex := edits.foldl Edit.apply .empty

/-- Where a document is in a field: on its path, and below what is left of paths that it had before. -/
structure Place where
  path? : Option Path
  stale : List Path
  apart : ∀ path ∈ path?, ∀ start ∈ stale, ¬ start <+: path

namespace Place

def empty : Place := ⟨none, [], nofun⟩

/-- Goes over to another path.  The starts of the old one that the new one does not have go stale. -/
def move (p : Place) (path : Path) : Place where
  path? := some path
  stale := (p.path?.elim [] starts ++ p.stale).filter fun start => ¬ start <+: path
  apart path' hp start hs := by
    cases hp
    simpa using (List.mem_filter.1 hs).2

def leave (p : Place) : Place := ⟨none, p.stale, nofun⟩

def Under (p : Place) (start : Path) : Prop := (∃ path ∈ p.path?, start <+: path) ∨ start ∈ p.stale

variable {p : Place} {path start : Path}

theorem under_move : (p.move path).Under start ↔ start <+: path ∨ p.Under start := by
  have hold : start ∈ p.path?.elim [] starts ↔ ∃ old ∈ p.path?, start <+: old := by
    cases p.path? <;> simp [mem_starts]
  simp only [Under, move, Option.mem_some_iff, exists_eq_left', List.mem_filter, List.mem_append, hold,
    decide_not, Bool.not_eq_true', decide_eq_false_iff_not]
  by_cases hs : start <+: path <;> simp [hs]

theorem under_leave : p.leave.Under start ↔ p.Under start ∧ ∀ path ∈ p.path?, ¬ start <+: path := by
  constructor
  · rintro (⟨path, hp, -⟩ | hs)
    · cases hp
    · exact ⟨.inr hs, fun path hp => p.apart path hp start hs⟩
  · rintro ⟨⟨path, hp, hs⟩ | hs, hn⟩
    · exact absurd hs (hn path hp)
    · exact .inr hs

theorem stale_move (hs : p.stale = []) (hold : ∀ old ∈ p.path?, old <+: path) :
    (p.move path).stale = [] := by
  refine List.filter_eq_nil_iff.2 fun start hstart => ?_
  rw [hs, List.append_nil] at hstart
  cases hp : p.path? with
  | none =>
    rw [hp] at hstart
    cases hstart
  | some old =>
    rw [hp] at hstart
    simpa using (mem_starts.1 hstart).trans (hold old hp)

end Place

def Edit.displace (doc : Nat) (field : String) (p : Place) : Edit → Place
  | .add doc' field' path => if doc = doc' ∧ field = field' then p.move path else p
  | .remove doc' field' => if doc = doc' ∧ field = field' then p.leave else p
  | .clear => .empty

def place (edits : List Edit) (doc : Nat) (field : String) : Place :=
  edits.foldl (Edit.displace doc field) .empty

structure Shows (x : FacetIndex) (places : Nat → String → Place) : Prop where
  pathOf? : ∀ doc field, x.pathOf? field doc = (places doc field).path?
  docsUnder : ∀ doc field start, doc ∈ x.docsUnder field start ↔ (places doc field).Under start

namespace Shows

variable {x : FacetIndex} {places : Nat → String → Place}

theorem empty : FacetIndex.empty.Shows fun _ _ => .empty where
  pathOf? _ _ := rfl
  docsUnder _ _ _ := by simp [FacetIndex.docsUnder, FacetIndex.empty, Place.Under, Place.empty]

theorem covers (h : x.Shows places) : x.Covers := by
  intro field doc path start hp hs
  rw [h.pathOf?] at hp
  exact (h.docsUnder doc field start).2 (.inl ⟨path, hp, hs⟩)

theorem add (h : x.Shows places) (doc : Nat) (field : String) (path : Path) :
    (x.add doc field path).Shows fun doc' field' =>
      (Edit.add doc field path).displace doc' field' (places doc' field') where
  pathOf? doc' field' := by
    rw [pathOf?_add, Edit.displace, h.pathOf?]
    split <;> rfl
  docsUnder doc' field' start := by
    rw [mem_docsUnder_add, Edit.displace, h.docsUnder]
    split
    next he => rw [Place.under_move, he.1, he.2]; simp
    next he =>
      refine or_iff_right fun hc => he ⟨hc.1, hc.2.1⟩

theorem remove (h : x.Shows places) (doc : Nat) (field : String) :
    (x.remove doc field).Shows fun doc' field' =>
      (Edit.remove doc field).displace doc' field' (places doc' field') where
  pathOf? doc' field' := by
    rw [h.covers.pathOf?_remove, Edit.displace, h.pathOf?]
    split <;> rfl
  docsUnder doc' field' start := by
    rw [Edit.displace]
    cases hp : x.pathOf? field doc with
    | none =>
      rw [remove_of_pathOf?_eq_none hp, h.docsUnder]
      split
      next he =>
        rw [he.1, he.2, Place.under_leave, ← h.pathOf?, hp]
        simp
      next => rfl
    | some path =>
      obtain ⟨below, hb⟩ := Option.isSome_iff_exists.1 (h.covers.below_isSome hp)
      rw [mem_docsUnder_remove hp hb, h.docsUnder]
      split
      next he =>
        rw [he.1, he.2, Place.under_leave, ← h.pathOf?, hp]
        simp
      next he => exact and_iff_left fun hc => he ⟨hc.1, hc.2.1⟩

theorem apply (h : x.Shows places) (e : Edit) :
    (e.apply x).Shows fun doc field => e.displace doc field (places doc field) := by
  cases e with
  | add doc field path => exact h.add doc field path
  | remove doc field => exact h.remove doc field
  | clear => exact .empty

end Shows

theorem shows_edited (edits : List Edit) : (edited edits).Shows (place edits) := by
  suffices ∀ (x : FacetIndex) (places : Nat → String → Place), x.Shows places →
      (edits.foldl Edit.apply x).Shows fun doc field =>
        edits.foldl (Edit.displace doc field) (places doc field) from this _ _ .empty
  induction edits with
  | nil => exact fun _ _ h => h
  | cons e rest ih => exact fun x places h => ih _ _ (h.apply e)

theorem edited_concat (edits : List Edit) (e : Edit) : edited (edits ++ [e]) = e.apply (edited edits) :=
  List.foldl_concat ..

theorem place_concat (edits : List Edit) (e : Edit) (doc : Nat) (field : String) :
    place (edits ++ [e]) doc field = e.displace doc field (place edits doc field) :=
  List.foldl_concat ..

theorem filled_below_edited (edits : List Edit) :
    (edited edits).below.Filled fun docs => docs.isEmpty = false := by
  induction edits using List.reverseRecOn with
  | nil => exact Dict.All.empty
  | append_singleton edits e ih =>
    rw [edited_concat]
    cases e with
    | add doc field path => exact filled_below_add ih doc field path
    | remove doc field => exact (shows_edited edits).covers.filled_below_remove ih doc field
    | clear => exact Dict.All.empty

section

variable {x : FacetIndex} {field : String} {start : Path} {scope : DocSet} {doc : Nat} {label : String}

theorem hasField_iff (h : x.below.Filled fun docs => docs.isEmpty = false) :
    x.hasField field ↔ ∃ start doc, doc ∈ x.docsUnder field start := by
  rw [hasField, Dict.contains, Option.isSome_iff_exists]
  constructor
  · rintro ⟨below, hb⟩
    obtain ⟨start, docs, hdocs⟩ := Dict.exists_get? (h hb).1
    obtain ⟨doc, hdoc⟩ := DocSet.exists_mem ((h hb).2 hdocs)
    refine ⟨start, doc, ?_⟩
    rwa [docsUnder, hb, Option.bind_some, hdocs]
  · rintro ⟨start, doc, hdoc⟩
    cases hb : x.below.get? field with
    | none =>
      rw [docsUnder, hb] at hdoc
      exact absurd hdoc (DocSet.mem_empty doc)
    | some below => exact ⟨below, rfl⟩

theorem mem_children : (doc, label) ∈ x.children field start scope ↔
    doc ∈ scope ∧ doc ∈ x.docsUnder field start ∧
      ∃ path, x.pathOf? field doc = some path ∧ path[start.length]? = some label := by
  have hmem (doc : Nat) : doc ∈ ((x.docsUnder field start).inter scope).toList ↔
      doc ∈ x.docsUnder field start ∧ doc ∈ scope := DocSet.mem_inter
  simp only [children, List.mem_filterMap, hmem, Option.map_eq_some_iff, Option.bind_eq_some_iff,
    Prod.mk.injEq]
  constructor
  · rintro ⟨_, ⟨hunder, hscope⟩, _, hpath, rfl, rfl⟩
    exact ⟨hscope, hunder, hpath⟩
  · rintro ⟨hscope, hunder, hpath⟩
    exact ⟨doc, ⟨hunder, hscope⟩, label, hpath, rfl, rfl⟩

theorem pairwise_children (x : FacetIndex) (field : String) (start : Path) (scope : DocSet) :
    (x.children field start scope).Pairwise (·.1 < ·.1) := by
  refine List.pairwise_filterMap.2 (DocSet.ascending _ |>.imp fun {a b} hab e he e' he' => ?_)
  obtain ⟨_, -, rfl⟩ := Option.map_eq_some_iff.1 he
  obtain ⟨_, -, rfl⟩ := Option.map_eq_some_iff.1 he'
  exact hab

theorem concat_prefix_iff {path : Path} :
    start ++ [label] <+: path ↔ start <+: path ∧ path[start.length]? = some label := by
  simp only [← List.isPrefixOf_iff_prefix, isPrefixOf_append_singleton, Bool.and_eq_true, beq_iff_eq]

end

structure Agrees (x : FacetIndex) (field : String) : Prop where
  docsUnder : ∀ doc start,
    doc ∈ x.docsUnder field start ↔ ∃ path, x.pathOf? field doc = some path ∧ start <+: path
  hasField : x.hasField field ↔ ∃ doc path, x.pathOf? field doc = some path
  mem_children : ∀ start scope doc label, (doc, label) ∈ x.children field start scope ↔
    doc ∈ scope ∧ ∃ path, x.pathOf? field doc = some path ∧ start ++ [label] <+: path
  once : ∀ start scope, ((x.children field start scope).map (·.1)).Nodup

namespace Shows

variable {x : FacetIndex} {places : Nat → String → Place} {field : String}

theorem agrees (h : x.Shows places) (hf : x.below.Filled fun docs => docs.isEmpty = false)
    (hs : ∀ doc, (places doc field).stale = []) : x.Agrees field := by
  have hunder (doc : Nat) (start : Path) : doc ∈ x.docsUnder field start ↔
      ∃ path, x.pathOf? field doc = some path ∧ start <+: path := by
    rw [h.docsUnder, Place.Under, hs, h.pathOf?]
    simp
  refine ⟨hunder, ?_, fun start scope doc label => ?_, fun start scope => ?_⟩
  · rw [hasField_iff hf]
    constructor
    · rintro ⟨start, doc, hdoc⟩
      obtain ⟨path, hp, -⟩ := (hunder doc start).1 hdoc
      exact ⟨doc, path, hp⟩
    · rintro ⟨doc, path, hp⟩
      exact ⟨path, doc, (hunder doc path).2 ⟨path, hp, List.prefix_refl path⟩⟩
  · rw [FacetIndex.mem_children, hunder]
    constructor
    · rintro ⟨hscope, ⟨path, hp, hstart⟩, path', hp', hl⟩
      obtain rfl : path = path' := Option.some.inj (hp.symm.trans hp')
      exact ⟨hscope, path, hp, concat_prefix_iff.2 ⟨hstart, hl⟩⟩
    · rintro ⟨hscope, path, hp, hstart⟩
      have hl := concat_prefix_iff.1 hstart
      exact ⟨hscope, ⟨path, hp, hl.1⟩, path, hp, hl.2⟩
  · exact List.pairwise_map.2 ((pairwise_children x field start scope).imp Nat.ne_of_lt)

theorem stale_eq_nil (h : x.Shows places) (ha : x.Agrees field) (doc : Nat) :
    (places doc field).stale = [] := by
  refine List.eq_nil_iff_forall_not_mem.2 fun start hs => ?_
  obtain ⟨path, hp, hstart⟩ := (ha.docsUnder doc start).1 ((h.docsUnder doc field start).2 (.inr hs))
  rw [h.pathOf?] at hp
  exact (places doc field).apart path hp start hs hstart

end Shows

/-- Whether a document that is added to a field where it has a path already always goes on from there. -/
def GoesOn (edits : List Edit) (doc : Nat) (field : String) : Prop :=
  ∀ before path after, edits = before ++ .add doc field path :: after →
    ∀ old ∈ (place before doc field).path?, old <+: path

theorem stale_eq_nil_of_goesOn {edits : List Edit} {doc : Nat} {field : String}
    (h : GoesOn edits doc field) : (place edits doc field).stale = [] := by
  induction edits using List.reverseRecOn with
  | nil => rfl
  | append_singleton edits e ih =>
    have hs := ih fun before path after he => h before path (after ++ [e]) (by simp [he])
    rw [place_concat]
    cases e with
    | add doc' field' path =>
      rw [Edit.displace]
      split
      next hsame =>
        obtain ⟨rfl, rfl⟩ := hsame
        exact Place.stale_move hs (h edits path [] rfl)
      next => exact hs
    | remove doc' field' =>
      rw [Edit.displace]
      split
      next => exact hs
      next => exact hs
    | clear => rfl

/-- The index agrees with the paths of its documents just where nothing stale is left. -/
theorem agrees_edited (edits : List Edit) :
    (edited edits).Shows (place edits) ∧
      (∀ field, (edited edits).Agrees field ↔ ∀ doc, (place edits doc field).stale = []) ∧
      ∀ field, (∀ doc, GoesOn edits doc field) → (edited edits).Agrees field := by
  have hshows := shows_edited edits
  have hagrees {field : String} (hs : ∀ doc, (place edits doc field).stale = []) :
      (edited edits).Agrees field := hshows.agrees (filled_below_edited edits) hs
  exact ⟨hshows, fun field => ⟨fun ha => hshows.stale_eq_nil ha, hagrees⟩,
    fun field h => hagrees fun doc => stale_eq_nil_of_goesOn (h doc)⟩

def movedOn : List Edit :=
  [.add 1 "c" ["a"], .add 2 "c" ["a", "x"], .add 1 "c" ["a", "b"], .remove 2 "c", .add 2 "c" ["y"]]

theorem agrees_edited_movedOn :
    (edited movedOn).Agrees "c" ∧ (edited movedOn).docsUnder "c" ["a"] = .ofList [1] := by
  have hstale (doc : Nat) : (place movedOn doc "c").stale = [] := by
    by_cases h₁ : doc = 1
    · rw [h₁]
      decide
    · by_cases h₂ : doc = 2
      · rw [h₂]
        decide
      · simp [place, movedOn, Edit.displace, h₁, h₂, Place.empty]
  exact ⟨((agrees_edited movedOn).2.1 "c").2 hstale, by decide +kernel⟩

/-- A document that is added again stays below the path that it no longer has. -/
theorem agrees_not_readded :
    ¬ (edited [.add 1 "c" ["a"], .add 1 "c" ["b"]]).Agrees "c" ∧
      (edited [.add 1 "c" ["a"], .add 1 "c" ["b"]]).docsUnder "c" ["a"] = .ofList [1] ∧
      (edited [.add 1 "c" ["a"], .add 1 "c" ["b"]]).pathOf? "c" 1 = some ["b"] ∧
      ¬ (edited [.add 1 "c" ["a"], .add 1 "c" ["b"], .remove 1 "c"]).Agrees "c" := by
  have hstale : (place [.add 1 "c" ["a"], .add 1 "c" ["b"]] 1 "c").stale ≠ [] := by decide
  have hstale' : (place [.add 1 "c" ["a"], .add 1 "c" ["b"], .remove 1 "c"] 1 "c").stale ≠ [] := by decide
  exact ⟨fun h => hstale ((shows_edited _).stale_eq_nil h 1), by decide +kernel, by decide +kernel,
    fun h => hstale' ((shows_edited _).stale_eq_nil h 1)⟩

end Corpus.FacetIndex
