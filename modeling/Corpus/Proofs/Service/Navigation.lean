import Corpus.Proofs.Drilldown.Levels
import Corpus.Proofs.Service.Narrowing
import Mathlib.Tactic.Choose

/-! Categories from level to level: what is said of a category as a child is what its own level says of it,
and its hits are those of the query in it. -/

namespace Corpus

open Corpus.Action Number

theorem Prepared.matched_eq {p : Prepared} (h : ∀ s ∈ p.shards, s.Faithful) :
    p.matched =
      if p.shards.any (p.plan.fails scorer p.shards) then .error .oversizedGlob
      else .ok (p.shards.map fun s => (s, (p.plan.scan scorer p.shards.statistics s).docs)) := by
  refine mapM_eq_ite fun s hs => ?_
  rw [Plan.run_eq, Plan.evaluate_eq_scan (h s hs)]
  cases p.plan.fails scorer p.shards s <;> rfl

theorem Prepared.matched_restrict {p : Prepared} (h : ∀ s ∈ p.shards, s.Faithful) {filters : List Plan}
    (hf : Plan.anyOversized filters = false) (scope : Scope) :
    (p.restrict filters scope).matched =
      if p.shards.any (p.plan.fails scorer p.shards) then .error .oversizedGlob
      else .ok (p.shards.map fun s =>
        (s, ((p.plan.filtered filters).scan scorer p.shards.statistics s).docs)) := by
  have hfails : (p.plan.filtered filters).fails scorer p.shards = p.plan.fails scorer p.shards :=
    funext (Plan.fails_filtered hf p.shards p.plan)
  rw [matched_eq (by rwa [shards_restrict]), plan_restrict, shards_restrict, hfails]

namespace CategoryDrilldown

def into (r : CategoryDrilldown) (path : Path) : Drilldown :=
  ⟨r.table, r.query, Dict.empty.insert r.field path, none, [], none, 0, 0⟩

variable {r : CategoryDrilldown} {schema : Schema}

theorem check_eq_ok (hr : r.scoreField = none) (hf : checkFacet schema r.field = .ok ()) :
    r.check schema = .ok () := by
  rw [check, hf, hr]
  rfl

theorem check_into (hf : checkFacet schema r.field = .ok ()) (path : Path) :
    (r.into path).check schema = .ok () := by
  have hfield : [r.field].forM (checkFacet schema) = .ok () := by
    show (checkFacet schema r.field >>= fun _ => .ok ()) = _
    rw [hf]
    rfl
  exact bind_eq_ok.2 ⟨(), hfield, rfl⟩

theorem prepare_eq {c : Catalog} (hr : r.check (c.schemaOrEmpty r.table) = .ok ())
    (analyzers : Analyzers) :
    r.prepare c analyzers =
      (Prepared.prepare c analyzers r.table (r.query.getD "")).map
        (·.map (·.restrict [Drilldown.pathPlan (r.field, r.path)]
          ⟨Dict.empty.insert r.field r.path, none, []⟩)) := by
  rw [prepare, hr]
  cases Prepared.prepare c analyzers r.table (r.query.getD "") <;> rfl

end CategoryDrilldown

namespace Service

variable {s : Service} {r : CategoryDrilldown}

theorem fst_drillCategories (hs : s.Sound)
    (hr : r.check (s.catalog.schemaOrEmpty r.table) = .ok ()) :
    ((drillCategories r).perform s).1 =
      match s.catalog.get? r.table with
      | none => (Query.parse allField (r.query.getD "")).map fun _ => r.level []
      | some t => (Plan.ofSearch t.schema s.analyzers (r.query.getD "")).bind fun p =>
        if t.shards.any (p.fails scorer t.shards) then .error .oversizedGlob
        else .ok (r.level (CategoryDrilldown.parts scorer t.shards.statistics p r t.shards)) := by
  simp only [drillCategories, perform_bind, perform_ensureOpen, hs.alive, Bool.false_eq_true, if_false,
    perform_get, perform_lift, CategoryDrilldown.run, CategoryDrilldown.prepare_eq hr,
    Prepared.prepare_eq]
  cases ht : s.catalog.get? r.table with
  | none => cases Query.parse allField (r.query.getD "") <;> rfl
  | some t =>
    cases hp : Plan.ofSearch t.schema s.analyzers (r.query.getD "") with
    | error e => simp only [hp]; rfl
    | ok p =>
      have hfilter : Plan.anyOversized [Drilldown.pathPlan (r.field, r.path)] = false := rfl
      have hmatched := Prepared.matched_restrict
        (p := ⟨t.name, r.query.getD "", t.epoch, t.version, t.shards, p, none⟩)
        (hs.shards ht).faithful hfilter ⟨Dict.empty.insert r.field r.path, none, []⟩
      simp only [hp, Except.map, Option.map_some]
      refine (congrArg (· >>= fun parts => Except.ok (r.level parts)) hmatched).trans ?_
      show (if t.shards.any (p.fails scorer t.shards) then _ else _) >>= _ = if _ then _ else _
      split <;> rfl

def pathOf? (s : Service) (table field : String) (h : Hit) : Option Path :=
  (s.catalog.get? table).bind fun t =>
    (t.shards.document? t.name h.id).bind fun d => Fields.path? d.fields field

/-- Whether the levels of a drill-down by categories, with a category and its children for each path, agree
with each other and with the hits of the query. -/
structure Navigates (s : Service) (r : CategoryDrilldown) (hits : List Hit) (node : Path → Category)
    (children : Path → List Category) : Prop where
  answers : ∀ path start count, ((drillCategories { r with path, start, count }).perform s).1 =
    .ok ⟨node path, ((children path).drop start).take count⟩
  located : ∀ path, (node path).path = path
  counted : ∀ path, ((drillCount (r.into path)).perform s).1 = .ok (node path).tally.count
  has_child : ∀ path label, (∃ c ∈ children path, c.label = label) ↔
    ∃ h ∈ hits, ∃ q, s.pathOf? r.table r.field h = some q ∧ path ++ [label] <+: q
  child : ∀ path, ∀ c ∈ children path, c = node (path ++ [c.label])
  /-- What is in no child is in the category itself. -/
  whole : ∀ path, ((children path).map (·.tally.count)).sum +
    (hits.filter fun h => s.pathOf? r.table r.field h = some path).length = (node path).tally.count
  ordered : ∀ path, (children path).Pairwise CategoryDrilldown.Before
  score : ∀ path, (node path).tally.count < 2 ^ 53 →
    (node path).tally.score = .ofNat (node path).tally.count

theorem Navigates.of_paths {hits : List Hit} {groups : List (List Path)}
    {labels : Path → List String}
    (hpaths : (hits.filterMap (s.pathOf? r.table r.field)).Perm groups.flatten)
    (hnodup : ∀ path, (labels path).Nodup)
    (hmem : ∀ path label, label ∈ labels path ↔
      ∃ q ∈ groups.flatten, (path ++ [label]).isPrefixOf q)
    (hanswers : ∀ path start count, ((drillCategories { r with path, start, count }).perform s).1 =
      .ok ⟨CategoryDrilldown.node groups path, ((((labels path).map fun label =>
        CategoryDrilldown.node groups (path ++ [label])).mergeSort
          CategoryDrilldown.notAfter).drop start).take count⟩)
    (hcounted : ∀ path, ((drillCount (r.into path)).perform s).1 =
      .ok (groups.flatten.countP path.isPrefixOf)) :
    s.Navigates r hits (CategoryDrilldown.node groups) fun path =>
      ((labels path).map fun label => CategoryDrilldown.node groups (path ++ [label])).mergeSort
        CategoryDrilldown.notAfter where
  answers := hanswers
  located _ := rfl
  counted path := (hcounted path).trans (congrArg _ (CategoryDrilldown.count_tallyAt groups path).symm)
  has_child path label := by
    have hlabel : (∃ c ∈ ((labels path).map fun label =>
        CategoryDrilldown.node groups (path ++ [label])).mergeSort CategoryDrilldown.notAfter,
          c.label = label) ↔ label ∈ labels path := by
      simp [CategoryDrilldown.label_node]
    simp only [hlabel, hmem, ← hpaths.mem_iff, List.mem_filterMap, List.isPrefixOf_iff_prefix]
    constructor
    · intro ⟨q, ⟨h, hh, hq⟩, hprefix⟩
      exact ⟨h, hh, q, hq, hprefix⟩
    · intro ⟨h, hh, q, hq, hprefix⟩
      exact ⟨q, ⟨h, hh, hq⟩, hprefix⟩
  child path c hc := by
    obtain ⟨label, -, rfl⟩ := List.mem_map.1 (List.mem_mergeSort.1 hc)
    rw [CategoryDrilldown.label_node]
  whole path := by
    have hexact : (hits.filter fun h => s.pathOf? r.table r.field h = some path).length =
        groups.flatten.count path := by
      rw [← hpaths.count_eq, List.count_filterMap, ← List.countP_eq_length_filter]
      exact List.countP_congr fun h _ => by simp
    have hchildren := ((List.mergeSort_perm ((labels path).map fun label =>
      CategoryDrilldown.node groups (path ++ [label])) CategoryDrilldown.notAfter).map
        (·.tally.count)).sum_eq
    rw [hexact, hchildren, List.map_map]
    have hsum := FacetIndex.sum_countP (hnodup path) fun q hq label h => (hmem path label).2 ⟨q, hq, h⟩
    simp only [← CategoryDrilldown.count_tallyAt] at hsum
    exact hsum
  ordered path := by
    have hlabels : ((labels path).map fun label =>
        CategoryDrilldown.node groups (path ++ [label])).map (·.label) = labels path := by
      simp [Function.comp_def, CategoryDrilldown.label_node]
    exact CategoryDrilldown.pairwise_before (hlabels.symm ▸ hnodup path)
  score path := CategoryDrilldown.score_tallyAt

theorem filterMap_pathOf? (hs : s.Sound) {t : Table} (ht : s.catalog.get? r.table = some t) (p : Plan) :
    (p.hitsAmong scorer t.shards.statistics t.shards.documents).filterMap
        (s.pathOf? r.table r.field) =
      (CategoryDrilldown.groups scorer t.shards.statistics p r.field t.shards).flatten := by
  rw [CategoryDrilldown.flatten_groups, Plan.hitsAmong, Plan.pathsAmong, List.filterMap_filterMap]
  refine List.filterMap_congr fun d hd => ?_
  cases p.score? scorer t.shards.statistics d.fields with
  | none => rfl
  | some x => simp [pathOf?, ht, (hs.shards ht).mem_documents.1 hd]

section

variable (hs : s.Sound) (hr : r.scoreField = none)
  (hf : checkFacet (s.catalog.schemaOrEmpty r.table) r.field = .ok ())

include hs hr hf

theorem fst_drillCategories_at (path : Path) (start count : Nat) :
    ((drillCategories { r with path, start, count }).perform s).1 =
      match s.catalog.get? r.table with
      | none => (Query.parse allField (r.query.getD "")).map fun _ =>
        { r with path, start, count }.level []
      | some t => (Plan.ofSearch t.schema s.analyzers (r.query.getD "")).bind fun p =>
        if t.shards.any (p.fails scorer t.shards) then .error .oversizedGlob
        else .ok ({ r with path, start, count }.level
          (CategoryDrilldown.parts scorer t.shards.statistics p { r with path } t.shards)) :=
  fst_drillCategories hs (CategoryDrilldown.check_eq_ok hr hf)

omit hr in
theorem fst_drillCount_into (path : Path) :
    ((drillCount (r.into path)).perform s).1 =
      match s.catalog.get? r.table with
      | none => (Query.parse allField (r.query.getD "")).map fun _ => 0
      | some t => (Plan.ofSearch t.schema s.analyzers (r.query.getD "")).bind fun p =>
        (p.under r.field path).count scorer t.shards :=
  fst_drillCount hs (CategoryDrilldown.check_into hf path)

theorem exists_navigates_of_none (ht : s.catalog.get? r.table = none) {q : Query}
    (hq : Query.parse allField (r.query.getD "") = .ok q) :
    ∃ node children, s.Navigates r [] node children := by
  have hnone : ∀ s ∈ ([] : Shards), s.Faithful := nofun
  choose labels hnodup hmem hlevel using fun path => CategoryDrilldown.exists_labels
    scorer (Shards.statistics []) (r := { r with path }) hr hnone .nothing
  refine ⟨_, _, .of_paths (.refl _) hnodup hmem (fun path start count => ?_) fun path => ?_⟩
  · rw [fst_drillCategories_at hs hr hf, ht]
    dsimp only
    rw [hq]
    exact congrArg Except.ok (hlevel path start count)
  · rw [fst_drillCount_into hs hf, ht]
    dsimp only
    rw [hq]
    rfl

theorem exists_navigates {t : Table} (ht : s.catalog.get? r.table = some t) {p : Plan}
    (hp : Plan.ofSearch t.schema s.analyzers (r.query.getD "") = .ok p)
    (hfails : t.shards.any (p.fails scorer t.shards) = false) {hits : List Hit}
    (hhits : hits.Perm (p.hitsAmong scorer t.shards.statistics t.shards.documents)) :
    ∃ node children, s.Navigates r hits node children := by
  choose labels hnodup hmem hlevel using fun path => CategoryDrilldown.exists_labels
    scorer t.shards.statistics (r := { r with path }) hr (hs.shards ht).faithful p
  have hpaths := (hhits.filterMap _).trans (.of_eq (filterMap_pathOf? hs ht p))
  refine ⟨_, _, .of_paths hpaths hnodup hmem (fun path start count => ?_) fun path => ?_⟩
  · rw [fst_drillCategories_at hs hr hf, ht]
    dsimp only
    rw [hp]
    exact (if_neg (Bool.eq_false_iff.1 hfails)).trans (congrArg Except.ok (hlevel path start count))
  · have hunder : t.shards.any ((p.under r.field path).fails scorer t.shards) =
        t.shards.any (p.fails scorer t.shards) := Shards.any_fails_filtered (r.into path) p
    rw [fst_drillCount_into hs hf, ht]
    dsimp only
    rw [hp]
    show (p.under r.field path).count scorer t.shards = _
    rw [Plan.count_eq (hs.shards ht).faithful, hunder, if_neg (Bool.eq_false_iff.1 hfails),
      CategoryDrilldown.flatten_groups, ← Plan.length_hitsAmong_under]

end

/-- Levels, their parents and the hits of the query tell the same of a category. -/
theorem navigates_after {config : Config} {windows : Bool}
    (h : Service.start config windows = .ok s) (moves : List Move) {r : CategoryDrilldown}
    (hr : r.scoreField = none)
    (hf : checkFacet ((s.after moves).catalog.schemaOrEmpty r.table) r.field = .ok ()) :
    (∀ hits, ((search r.table (r.query.getD "") 0 (UInt64.size - 1)).perform (s.after moves)).1 =
        .ok hits →
      hits.length < UInt64.size - 1 →
      ∃ node children, (s.after moves).Navigates r hits node children) ∧
    ∀ e, ((search r.table (r.query.getD "") 0 (UInt64.size - 1)).perform (s.after moves)).1 =
        .error e →
      ∀ path start count,
        ((drillCategories { r with path, start, count }).perform (s.after moves)).1 = .error e := by
  obtain ⟨hs, hcoh⟩ := sound_after h moves
  generalize s.after moves = s at hs hcoh hf
  simp only [fst_drillCategories_at hs hr hf]
  rw [fst_search hs hcoh]
  cases ht : s.catalog.get? r.table with
  | none =>
    dsimp only
    cases hq : Query.parse allField (r.query.getD "") with
    | error e => exact ⟨nofun, fun _ he _ _ _ => by cases he; rfl⟩
    | ok q => exact ⟨fun hits he _ => by cases he; exact exists_navigates_of_none hs hr hf ht hq, nofun⟩
  | some t =>
    dsimp only
    cases hp : Plan.ofSearch t.schema s.analyzers (r.query.getD "") with
    | error e =>
      rw [Shards.search_of_error hp]
      exact ⟨nofun, fun _ he _ _ _ => by cases he; rfl⟩
    | ok p =>
      have hshards := hs.shards ht
      rw [Shards.search_of_ok hp, if_neg (by decide)]
      refine ⟨fun hits hw hn => ?_, fun e hw path start count => ?_⟩
      · obtain ⟨hfails, rfl⟩ := hshards.eq_sort_of_window hw hn
        exact exists_navigates hs hr hf ht hp hfails (Ranking.sort_perm _)
      · rw [Plan.window_eq hshards.faithful] at hw
        split at hw
        next hfails =>
          cases hw
          exact if_pos hfails
        next => cases hw

def topLevel : CategoryDrilldown := ⟨"t", "x", [], none, none, 0, 10⟩

theorem navigates_after_topLevel : ∃ (s : Service) (node : Path → Category)
    (children : Path → List Category),
    Service.start twoShards true = .ok s ∧
    (s.after twoPaths).Navigates topLevel [⟨"1", 1⟩, ⟨"2", 1⟩, ⟨"3", 1⟩] node children ∧
    (node ["a"]).tally.count = 2 := by
  have hrun : (Service.start twoShards true).toOption.any fun s =>
      ((search topLevel.table (topLevel.query.getD "") 0 (UInt64.size - 1)).perform
        (s.after twoPaths)).1.toOption = some [⟨"1", 1⟩, ⟨"2", 1⟩, ⟨"3", 1⟩] &&
      (checkFacet ((s.after twoPaths).catalog.schemaOrEmpty topLevel.table) topLevel.field).toOption =
        some () &&
      ((drillCount (topLevel.into ["a"])).perform (s.after twoPaths)).1.toOption = some 2 := by
    decide +kernel
  simp only [Option.any_eq_true, Bool.and_eq_true, decide_eq_true_eq] at hrun
  obtain ⟨s, hs, ⟨hsearch, hcheck⟩, hcount⟩ := hrun
  have h := eq_ok_of_toOption hs
  have hhits := eq_ok_of_toOption hsearch
  have hfacet := eq_ok_of_toOption hcheck
  obtain ⟨node, children, hnavigates⟩ :=
    (navigates_after h twoPaths (r := topLevel) rfl hfacet).1 _ hhits (by decide)
  exact ⟨s, node, children, h, hnavigates, Except.ok.inj
    ((hnavigates.counted ["a"]).symm.trans (eq_ok_of_toOption hcount))⟩

end Service

end Corpus
