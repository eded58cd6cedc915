import Corpus.Proofs.Data.Sorting
import Corpus.Proofs.Drilldown.Filters
import Corpus.Proofs.Drilldown.Tallies
import Mathlib.Algebra.BigOperators.Group.List.Basic
import Mathlib.Data.List.Nodup

/-! Levels of categories, from the paths of the documents that a plan matches.  A level is told by how many
of these begin with its path, and each of its children by the same number for a path that is longer by
one label. -/

namespace Corpus

open Number

namespace FacetIndex

def labelsAfter (path : Path) (paths : List Path) : List String :=
  (paths.filter path.isPrefixOf).filterMap (·[path.length]?)

theorem count_labelsAfter (path : Path) (paths : List Path) (label : String) :
    (labelsAfter path paths).count label = paths.countP (path ++ [label]).isPrefixOf := by
  rw [labelsAfter, List.count_filterMap, List.countP_filter]
  refine List.countP_congr fun p _ => ?_
  rw [isPrefixOf_append_singleton, Bool.and_comm]

theorem countP_labels {path p : Path} {labels : List String} (hn : labels.Nodup)
    (hl : ∀ label, (path ++ [label]).isPrefixOf p → label ∈ labels) :
    (labels.countP fun label => (path ++ [label]).isPrefixOf p) + (if p = path then 1 else 0) =
      if path.isPrefixOf p then 1 else 0 := by
  simp only [isPrefixOf_append_singleton] at hl ⊢
  cases hp : path.isPrefixOf p with
  | false =>
    have hne : p ≠ path := fun h =>
      Bool.eq_false_iff.1 hp (List.isPrefixOf_iff_prefix.2 (h ▸ List.prefix_refl p))
    simp [hne]
  | true =>
    obtain ⟨more, rfl⟩ := List.isPrefixOf_iff_prefix.1 hp
    cases more with
    | nil => simp
    | cons label rest =>
      have hmem : label ∈ labels := hl label (by simp)
      have hcount : labels.count label = 1 := List.count_eq_one_of_mem hn hmem
      rw [List.count_eq_countP] at hcount
      have heq : (fun l => true && (path ++ label :: rest)[path.length]? == some l) =
          fun l => l == label := by
        funext l
        simp [eq_comm]
      rw [heq, hcount]
      simp

theorem sum_map_ite {α : Type} (c : α → Bool) (l : List α) :
    (l.map fun a => if c a then 1 else 0).sum = l.countP c := by
  induction l with
  | nil => rfl
  | cons a rest ih => rw [List.map_cons, List.sum_cons, ih, List.countP_cons, Nat.add_comm]

theorem sum_countP {path : Path} {paths : List Path} {labels : List String} (hn : labels.Nodup)
    (hl : ∀ p ∈ paths, ∀ label, (path ++ [label]).isPrefixOf p → label ∈ labels) :
    (labels.map fun label => paths.countP (path ++ [label]).isPrefixOf).sum + paths.count path =
      paths.countP path.isPrefixOf := by
  induction paths with
  | nil => simp
  | cons p rest ih =>
    rw [List.forall_mem_cons] at hl
    have hp := countP_labels hn hl.1
    have hrest := ih hl.2
    simp only [List.countP_cons, List.count_cons, List.sum_map_add, sum_map_ite, beq_iff_eq]
    omega

end FacetIndex

namespace Plan

variable {score : Scorer} {st : Statistics} {s : Segment}

def pathsAmong (score : Scorer) (st : Statistics) (p : Plan) (field : String) (docs : List Document) :
    List Path :=
  docs.filterMap fun d =>
    if (p.score? score st d.fields).isSome then Fields.path? d.fields field else none

def under (p : Plan) (field : String) (path : Path) : Plan :=
  p.filtered [Drilldown.pathPlan (field, path)]

theorem isSome_score?_under (p : Plan) (field : String) (path : Path) (fields : Fields) :
    ((p.under field path).score? score st fields).isSome =
      ((p.score? score st fields).isSome && (fields.path? field).any path.isPrefixOf) := by
  rw [under, isSome_score?_filtered, List.all_cons, List.all_nil, Bool.and_true,
    Drilldown.score?_pathPlan]
  cases (fields.path? field).any path.isPrefixOf <;> rfl

theorem filterMap_docs_scan (p : Plan) {α : Type} {f : Nat → Option α} {g : Document → Option α}
    (h : ∀ doc d, s.docs.get? doc = some d → f doc = g d) :
    (p.scan score st s).docs.toList.filterMap f =
      s.docs.values.filterMap fun d => if (p.score? score st d.fields).isSome then g d else none := by
  show ((s.docs.entries.filterMap fun (doc, d) =>
    (p.score? score st d.fields).map (doc, ·)).map (·.1)).filterMap f = _
  rw [List.filterMap_map, List.filterMap_filterMap, Dict.values, List.filterMap_map]
  refine List.filterMap_congr fun a ha => ?_
  have hf := h a.1 a.2 (Dict.get?_eq_some_iff.2 ha)
  cases hs : p.score? score st a.2.fields <;> simp [hs, hf]

theorem length_hitsAmong_under (p : Plan) (field : String) (path : Path) (docs : List Document) :
    ((p.under field path).hitsAmong score st docs).length =
      (p.pathsAmong score st field docs).countP path.isPrefixOf := by
  rw [hitsAmong, List.length_filterMap_eq_countP, pathsAmong, List.countP_filterMap]
  refine List.countP_congr fun d _ => ?_
  rw [Option.isSome_map, isSome_score?_under]
  cases p.score? score st d.fields <;> cases Fields.path? d.fields field <;> simp

theorem length_docs_under (p : Plan) (field : String) (path : Path) :
    ((p.under field path).scan score st s).docs.toList.length =
      (p.pathsAmong score st field s.docs.values).countP path.isPrefixOf := by
  rw [← length_hitsAmong_under, ← size_scan]
  exact Dict.length_keys _

theorem inter_docs_under (h : s.Faithful) (p : Plan) (field : String) (path : Path) :
    (s.facets.docsUnder field path).inter ((p.under field path).scan score st s).docs =
      ((p.under field path).scan score st s).docs := by
  refine DocSet.ext fun doc => ?_
  rw [DocSet.mem_inter, Dict.mem_docs, get?_scan, h.mem_docsUnder]
  refine and_iff_right_of_imp fun hd => ?_
  rw [Option.isSome_bind, Option.any_eq_true] at hd
  obtain ⟨d, hd, hs⟩ := hd
  rw [isSome_score?_under, Bool.and_eq_true, Option.any_eq_true] at hs
  obtain ⟨-, q, hq, hprefix⟩ := hs
  exact ⟨d, hd, q, hq, List.isPrefixOf_iff_prefix.1 hprefix⟩

theorem labels_children (h : s.Faithful) (p : Plan) (field : String) (path : Path) :
    (s.facets.children field path ((p.under field path).scan score st s).docs).map (·.2) =
      FacetIndex.labelsAfter path (p.pathsAmong score st field s.docs.values) := by
  have hread (doc : Nat) (d : Document) (hd : s.docs.get? doc = some d) :
      (((s.facets.pathOf? field doc).bind (·[path.length]?)).map (doc, ·)).map (·.2) =
        (Fields.path? d.fields field).bind (·[path.length]?) := by
    rw [h.facets.pathOf?, hd, Option.bind_some, Option.map_map]
    exact Option.map_id'
  rw [FacetIndex.children, inter_docs_under h, List.map_filterMap, filterMap_docs_scan _ hread,
    FacetIndex.labelsAfter, pathsAmong, List.filter_filterMap, List.filterMap_filterMap]
  refine List.filterMap_congr fun d _ => ?_
  rw [isSome_score?_under]
  cases p.score? score st d.fields with
  | none => rfl
  | some x =>
    cases Fields.path? d.fields field with
    | none => rfl
    | some q => cases hq : path.isPrefixOf q <;> simp [hq, Option.filter]

end Plan

namespace CategoryDrilldown

def Before (a b : Category) : Prop :=
  b.tally.score.totalRank < a.tally.score.totalRank ∨
    a.tally.score = b.tally.score ∧ a.label < b.label

theorem pairwise_before {categories : List Category} (hn : (categories.map (·.label)).Nodup) :
    (categories.mergeSort notAfter).Pairwise Before := by
  have hle (a b : Category) : notAfter a b ↔ -a.tally.score.totalRank < -b.tally.score.totalRank ∨
      -a.tally.score.totalRank = -b.tally.score.totalRank ∧ a.label ≤ b.label := by
    simp [notAfter]
  refine (pairwise_mergeSort_labels hle hn).imp (Or.imp Int.neg_lt_neg_iff.1 fun ⟨hscore, hlt⟩ => ?_)
  exact ⟨Binary.totalRank_inj.1 (Int.neg_inj.1 hscore), hlt⟩

def tallyAt (groups : List (List Path)) (path : Path) : Tally :=
  .sum (groups.map fun paths => .ones (paths.countP path.isPrefixOf))

def node (groups : List (List Path)) (path : Path) : Category :=
  ⟨path.getLast?.getD "", path, tallyAt groups path⟩

section

variable (groups : List (List Path)) (path : Path)

theorem tallyAt_eq : tallyAt groups path =
    .sum ((groups.map (·.countP path.isPrefixOf)).map .ones) := by
  rw [tallyAt, List.map_map]
  rfl

theorem label_node (label : String) : (node groups (path ++ [label])).label = label := by
  rw [node, List.getLast?_concat]
  rfl

theorem count_tallyAt : (tallyAt groups path).count = groups.flatten.countP path.isPrefixOf := by
  rw [tallyAt, Tally.count_sum, List.map_map, List.countP_flatten]
  exact congrArg List.sum (List.map_congr_left fun paths _ => Tally.count_ones _)

variable {groups path}

theorem score_tallyAt (h : (tallyAt groups path).count < 2 ^ 53) :
    (tallyAt groups path).score = .ofNat (tallyAt groups path).count := by
  have hsum : (groups.map (·.countP path.isPrefixOf)).sum = (tallyAt groups path).count := by
    rw [count_tallyAt, List.countP_flatten]
  rw [← hsum] at h ⊢
  rw [tallyAt_eq, Tally.score_sum_ones h]

end

section

variable {r : CategoryDrilldown} {score : Scorer} {st : Statistics} {s : Segment} {shards : Shards}

theorem get?_childTallies (hr : r.scoreField = none) (h : s.Faithful) (p : Plan) (label : String) :
    (r.childTallies s ((p.under r.field r.path).scan score st s).docs).get? label =
      let n := (p.pathsAmong score st r.field s.docs.values).countP (r.path ++ [label]).isPrefixOf
      if n = 0 then none else some (.ones n) := by
  have hfold := get?_foldl_ones ((s.facets.children r.field r.path
    ((p.under r.field r.path).scan score st s).docs).map (·.2)) label
  rw [List.foldl_map, Plan.labels_children h, FacetIndex.count_labelsAfter] at hfold
  rw [← hfold, childTallies, hr]
  rfl

def groups (score : Scorer) (st : Statistics) (p : Plan) (field : String) (shards : Shards) :
    List (List Path) :=
  shards.map fun s => p.pathsAmong score st field s.docs.values

theorem flatten_groups (p : Plan) (field : String) (shards : Shards) :
    (groups score st p field shards).flatten = p.pathsAmong score st field shards.documents := by
  rw [Plan.pathsAmong, Shards.documents, List.filterMap_flatMap, List.flatMap_def]
  rfl

def parts (score : Scorer) (st : Statistics) (p : Plan) (r : CategoryDrilldown) (shards : Shards) :
    List (Segment × DocSet) :=
  shards.map fun s => (s, ((p.under r.field r.path).scan score st s).docs)

theorem sum_parts (hr : r.scoreField = none) (p : Plan) :
    Tally.sum ((parts score st p r shards).map fun (s, docs) => .ofDocs s r.scoreField docs.toList) =
      tallyAt (groups score st p r.field shards) r.path := by
  rw [parts, tallyAt, groups, List.map_map, List.map_map, hr]
  refine congrArg Tally.sum (List.map_congr_left fun s _ => ?_)
  show Tally.sum (((p.under r.field r.path).scan score st s).docs.toList.map fun _ => ⟨1, 1⟩) = _
  rw [List.map_const', Plan.length_docs_under]
  rfl

theorem filterMap_ones (ns : List Nat) :
    (ns.filterMap fun n => if n = 0 then none else some (Tally.ones n)) =
      (ns.filter (· ≠ 0)).map .ones := by
  induction ns with
  | nil => rfl
  | cons n rest ih => by_cases hn : n = 0 <;> simp_all

variable (score st)

theorem get?_children (hr : r.scoreField = none) (hs : ∀ s ∈ shards, s.Faithful) (p : Plan)
    (label : String) :
    (((parts score st p r shards).map fun (s, docs) => r.childTallies s docs).foldl mergeTallies
        .empty).get? label =
      if (groups score st p r.field shards).flatten.any (r.path ++ [label]).isPrefixOf then
        some (tallyAt (groups score st p r.field shards) (r.path ++ [label]))
      else none := by
  have htallies : (((parts score st p r shards).map fun (s, docs) => r.childTallies s docs).filterMap
      (·.get? label)) =
        (((groups score st p r.field shards).map (·.countP (r.path ++ [label]).isPrefixOf)).filter
          (· ≠ 0)).map .ones := by
    rw [← filterMap_ones, parts, groups, List.map_map, List.map_map, List.filterMap_map,
      List.filterMap_map]
    exact List.filterMap_congr fun s hm => get?_childTallies hr (hs s hm) p label
  rw [get?_foldl_mergeTallies, htallies, Tally.sum_ones_filter, ← tallyAt_eq]
  cases hany : (groups score st p r.field shards).flatten.any (r.path ++ [label]).isPrefixOf with
  | true =>
    obtain ⟨q, hq, hprefix⟩ := List.any_eq_true.1 hany
    obtain ⟨paths, hpaths, hq⟩ := List.mem_flatten.1 hq
    have hpos : 0 < paths.countP (r.path ++ [label]).isPrefixOf :=
      List.countP_pos_iff.2 ⟨q, hq, hprefix⟩
    refine (if_neg fun hnil => ?_).trans (if_pos rfl).symm
    rw [List.map_eq_nil_iff, List.filter_eq_nil_iff] at hnil
    exact hnil _ (List.mem_map.2 ⟨paths, hpaths, rfl⟩) (decide_eq_true (Nat.ne_of_gt hpos))
  | false =>
    refine (if_pos ?_).trans (if_neg Bool.false_ne_true).symm
    rw [List.map_eq_nil_iff, List.filter_eq_nil_iff]
    intro n hn
    obtain ⟨paths, hpaths, rfl⟩ := List.mem_map.1 hn
    have hzero : paths.countP (r.path ++ [label]).isPrefixOf = 0 := List.countP_eq_zero.2 fun q hq =>
      List.any_eq_false.1 hany q (List.mem_flatten.2 ⟨paths, hpaths, hq⟩)
    simp [hzero]

theorem exists_labels (hr : r.scoreField = none) (hs : ∀ s ∈ shards, s.Faithful) (p : Plan) :
    ∃ labels : List String, labels.Nodup ∧
      (∀ label, label ∈ labels ↔
        ∃ q ∈ (groups score st p r.field shards).flatten, (r.path ++ [label]).isPrefixOf q) ∧
      ∀ start count, { r with start, count }.level (parts score st p r shards) =
        ⟨node (groups score st p r.field shards) r.path,
          (((labels.map fun label =>
            node (groups score st p r.field shards) (r.path ++ [label])).mergeSort notAfter).drop
              start).take count⟩ := by
  let children := ((parts score st p r shards).map fun part => r.childTallies part.1 part.2).foldl
    mergeTallies .empty
  have hget (label : String) := get?_children score st hr hs p label
  refine ⟨children.keys, children.nodup_keys, fun label => ?_, fun start count => ?_⟩
  · rw [Dict.mem_keys_iff, hget, Option.isSome_ite, List.any_eq_true]
  · have hentries : (children.entries.map fun e => Category.mk e.1 (r.path ++ [e.1]) e.2) =
        children.keys.map fun label =>
          node (groups score st p r.field shards) (r.path ++ [label]) := by
      rw [Dict.keys, List.map_map]
      refine List.map_congr_left fun e hm => ?_
      have ht := (hget e.1).symm.trans (Dict.get?_eq_some_iff.2 hm)
      split at ht
      next =>
        rw [← Option.some_inj.1 ht]
        simp [node]
      next => cases ht
    show CategoryLevel.mk _ _ = _
    rw [← hentries, node, ← sum_parts hr]
    rfl

end

end CategoryDrilldown

end Corpus
