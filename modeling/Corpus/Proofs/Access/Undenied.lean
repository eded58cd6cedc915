import Corpus.Proofs.Data.Failure
import Corpus.Service.Basic

/-! Without a gate nothing fails for want of a permission: whatever else a request may fail by, it is not
that.  The proofs follow the parts of a service from the catalog on to the requests. -/

namespace Corpus

def Undenied {α : Type u} (x : Except Error α) : Prop := ∀ e, x = .error e → e.kind ≠ .unauthorized

namespace Undenied

variable {α β : Type u}

theorem ok (a : α) : Undenied (.ok a) := fun _ h => by cases h

theorem error {e : Error} (he : decide (e.kind = .unauthorized) = false) :
    Undenied (.error e : Except Error α) := fun _ h => by
  cases h
  exact of_decide_eq_false he

theorem ite {c : Prop} [Decidable c] {x y : Except Error α} (hx : Undenied x) (hy : Undenied y) :
    Undenied (if c then x else y) := by
  split
  next => exact hx
  next => exact hy

theorem bind {x : Except Error α} {f : α → Except Error β} (hx : Undenied x)
    (hf : ∀ a, Undenied (f a)) : Undenied (x >>= f) := by
  intro e h
  rcases bind_eq_error.1 h with h | ⟨a, -, h⟩
  · exact hx e h
  · exact hf a e h

theorem map {x : Except Error α} (hx : Undenied x) (f : α → β) : Undenied (x.map f) := by
  cases x with
  | error e => exact .error (decide_eq_false (hx e rfl))
  | ok a => exact .ok (f a)

theorem mapM {γ : Type v} {f : γ → Except Error β} (hf : ∀ a, Undenied (f a)) (l : List γ) :
    Undenied (l.mapM f) := by
  intro e h
  obtain ⟨a, -, ha⟩ := exists_of_mapM_eq_error h
  exact hf a e ha

theorem foldlM {γ : Type v} {f : α → γ → Except Error α} (hf : ∀ a c, Undenied (f a c)) (a : α)
    (l : List γ) : Undenied (l.foldlM f a) := by
  induction l generalizing a with
  | nil => exact .ok a
  | cons c rest ih => exact (hf a c).bind fun a => ih a

theorem forM {γ : Type v} {f : γ → Except Error PUnit} (hf : ∀ c, Undenied (f c)) (l : List γ) :
    Undenied (l.forM f) := by
  induction l with
  | nil => exact .ok PUnit.unit
  | cons c rest ih => exact (hf c).bind fun _ => ih

end Undenied

namespace Catalog

variable (c : Catalog) (name : String)

theorem undenied_require : Undenied (c.require name) := by
  rw [require]
  split
  next t _ => exact .ok t
  next => exact .error rfl

theorem undenied_ensureLive (t : Table) : Undenied (ensureLive t) := .ite (.error rfl) (.ok ())

theorem undenied_setSchema (s : Schema) : Undenied (c.setSchema name s) :=
  (c.undenied_require name).bind fun t => (undenied_ensureLive t).bind fun _ => .ok _

end Catalog

theorem Identity.undenied_keyText (r : Record) (keys : List String) : Undenied (keyText r keys) := by
  refine .bind (.mapM (fun key => ?_) keys) fun _ => .ok _
  split
  next => exact .error rfl
  next => exact .error rfl
  next => exact .ok _

theorem Identity.undenied_ofRecord (s : Schema) (r : Record) : Undenied (ofRecord s r) :=
  .ite (.ok _) (.ite (.ok _) ((undenied_keyText r s.primaryKeys).map _))

namespace Store

variable (s : Store) (name : String)

theorem undenied_table : Undenied (s.table name) := by
  refine .ite (.error rfl) ?_
  split
  next partitions _ => exact .ok partitions
  next => exact .error rfl

theorem undenied_create : Undenied (s.create name) := .ite (.error rfl) (.ite (.ok s) (.ok _))

theorem undenied_drop : Undenied (s.drop name) := .ite (.error rfl) (.ok _)

theorem undenied_put (records : List Record) : Undenied (s.put name records) :=
  (s.undenied_table name).bind fun _ => .ok _

theorem undenied_deleteIds (ids : List String) : Undenied (s.deleteIds name ids) :=
  (s.undenied_table name).bind fun _ => .ok _

theorem undenied_deleteTimes (lower upper : Int) : Undenied (s.deleteTimes name lower upper) :=
  (s.undenied_table name).bind fun _ => .ok _

theorem undenied_count (lower upper : Int) : Undenied (s.count name lower upper) :=
  (s.undenied_table name).bind fun _ => .ok _

theorem undenied_planTimes (hint : Nat) (columns : Option (List String)) (lower upper : Int)
    (offset : Nat) (count : Option Nat) :
    Undenied (s.planTimes name hint columns lower upper offset count) :=
  (s.undenied_table name).bind fun _ => .ite (.ok _) (.ok _)

theorem undenied_planIds (hint : Nat) (columns : Option (List String)) (ids : List String) :
    Undenied (s.planIds name hint columns ids) :=
  (s.undenied_table name).bind fun _ => .ok _

end Store

theorem Queues.undenied_sendAll (q : Queues) (t : Table) (changes : List Change) :
    Undenied (q.sendAll t changes) :=
  .foldlM (fun _ _ => .ite (.error rfl) (.ok _)) q changes

theorem Query.undenied_parse (defaultField text : String) : Undenied (parse defaultField text) := by
  refine .ite (.ok _) ?_
  split
  next => exact .ite (.ok _) (.error rfl)
  next => exact .error rfl
  next => exact .error rfl

theorem Analyzers.undenied_resolve (analyzers : Analyzers) (name : Option String) :
    Undenied (analyzers.resolve name) := by
  cases name with
  | none => exact .ok _
  | some name =>
    rw [resolve]
    split
    next a _ => exact .ok a
    next => exact .error rfl

namespace Plan

variable (schema : Schema) (analyzers : Analyzers)

theorem undenied_number (field text : String) : Undenied (number field text) := by
  rw [number]
  split
  next x _ => exact .ok x
  next => exact .error rfl

theorem undenied_bound (field : String) (included : Bool) (text : Option String) :
    Undenied (bound field included text) := by
  cases text with
  | none => exact .ok _
  | some text =>
    rw [bound]
    exact (undenied_number field text).map _

theorem undenied_ofPattern (field : String) (boost : Number.Binary32) (p : Pattern) :
    Undenied (ofPattern schema analyzers field boost p) := by
  have value (text : String) : Undenied (ofValue schema analyzers field text boost) := by
    rw [ofValue]
    split
    next => exact .ok _
    next a _ => exact (analyzers.undenied_resolve a).map _
    next => exact .ok _
    next => exact (undenied_number field text).map _
    all_goals exact .ok _
  cases p with
  | term text => exact value text
  | phrase text => exact value text
  | prefixed start =>
    rw [ofPattern, ofPrefix]
    split
    next => exact .ok _
    next a _ => exact (analyzers.undenied_resolve a).map _
    all_goals exact .ok _
  | wildcard glob =>
    rw [ofPattern, ofWildcard]
    split
    next => exact .ok _
    next a _ => exact (analyzers.undenied_resolve a).map _
    all_goals exact .ok _
  | range lower upper includeLower includeUpper =>
    have numbers := (undenied_bound field includeLower lower).bind fun lower =>
      (undenied_bound field includeUpper upper).bind fun upper =>
        .ok (leaf (.numbers field lower upper) boost)
    rw [ofPattern, ofRange]
    split
    next => exact numbers
    next => exact numbers
    next => exact .ok _
    all_goals exact .error rfl

mutual

theorem undenied_ofQuery : ∀ q, Undenied (ofQuery schema analyzers q)
  | .matchAll => .ok _
  | .field name p boost => undenied_ofPattern schema analyzers name (boost.getD 1) p
  | .bool must should mustNot _ =>
    (undenied_ofQueries must).bind fun _ => (undenied_ofQueries should).bind fun _ =>
      (undenied_ofQueries mustNot).bind fun _ => .ok _

theorem undenied_ofQueries : ∀ qs, Undenied (ofQueries schema analyzers qs)
  | [] => .ok _
  | q :: qs => (undenied_ofQuery q).bind fun _ => (undenied_ofQueries qs).bind fun _ => .ok _

end

theorem undenied_run (score : Scorer) (shards : Shards) (p : Plan) (s : Segment) :
    Undenied (p.run score shards s) := .ite (.error rfl) (.ok _)

end Plan

namespace Prepared

theorem undenied_prepare (c : Catalog) (analyzers : Analyzers) (table query : String) :
    Undenied (prepare c analyzers table query) := by
  refine (Query.undenied_parse allField query).bind fun parsed => ?_
  split
  next => exact .ok _
  next t _ => exact (Plan.undenied_ofQuery t.schema analyzers parsed).bind fun _ => .ok _

theorem undenied_window (p : Prepared) (start count : Nat) (cache : WindowCache) :
    Undenied (p.window start count cache).1 := by
  have fresh : Undenied (p.plan.window scorer p.shards start count) :=
    (Undenied.mapM (fun s => (p.plan.undenied_run scorer p.shards s).bind fun _ => .ok _) _).bind
      fun _ => .ok _
  rw [window]
  split
  next => exact .ok _
  next =>
    split
    next hits _ _ => exact .ok hits
    next =>
      cases hw : p.plan.window scorer p.shards start count with
      | ok hits => exact .ok hits
      | error e => exact .error (decide_eq_false (fresh e hw))

theorem undenied_count (p : Prepared) : Undenied p.count :=
  (Undenied.mapM (p.plan.undenied_run scorer p.shards) _).bind fun _ => .ok _

theorem undenied_matched (p : Option Prepared) : Undenied (p.elim (.ok []) (·.matched)) := by
  cases p with
  | none => exact .ok _
  | some p => exact .mapM (fun s => (p.plan.undenied_run scorer p.shards s).bind fun _ => .ok _) _

end Prepared

theorem undenied_checkFacet (s : Schema) (field : String) : Undenied (checkFacet s field) := by
  rw [checkFacet]
  split
  next => exact .ite (.ok ()) (.error rfl)
  next => exact .ok ()

theorem undenied_checkNumeric (s : Schema) (role : NumericRole) (field : String) :
    Undenied (checkNumeric s role field) := by
  rw [checkNumeric]
  split
  next => exact .ite (.ok ()) (.error rfl)
  next => exact .ok ()

theorem undenied_checkScore (s : Schema) (field : Option String) : Undenied (checkScore s field) := by
  cases field with
  | none => exact .ok ()
  | some field => exact undenied_checkNumeric s .score field

theorem Bucket.undenied_check (buckets : List Bucket) : Undenied (check buckets) := by
  rw [check]
  split
  next => exact .error rfl
  next =>
    split
    next => exact .error rfl
    next => exact .ok ()

namespace Drilldown

variable (r : Drilldown) (c : Catalog) (analyzers : Analyzers)

theorem undenied_check (s : Schema) : Undenied (r.check s) := by
  refine (Undenied.forM (undenied_checkFacet s) _).bind fun _ =>
    (undenied_checkScore s _).bind fun _ => ?_
  split
  next field _ =>
    exact (undenied_checkNumeric s .range field).bind fun _ => Bucket.undenied_check _
  next => exact .ok ()

theorem undenied_prepare (byRange : Bool) : Undenied (r.prepare c analyzers byRange) :=
  (r.undenied_check _).bind fun _ => (Prepared.undenied_prepare c analyzers _ _).bind fun _ => .ok _

theorem undenied_ranges : Undenied (r.ranges c analyzers) := by
  rw [ranges]
  split
  next => exact .error rfl
  next =>
    exact (r.undenied_prepare c analyzers false).bind fun p =>
      (Prepared.undenied_matched p).bind fun _ => .ok _

end Drilldown

namespace CategoryDrilldown

variable (r : CategoryDrilldown)

theorem undenied_check (s : Schema) : Undenied (r.check s) :=
  (undenied_checkFacet s r.field).bind fun _ => undenied_checkScore s r.scoreField

theorem undenied_run (c : Catalog) (analyzers : Analyzers) : Undenied (r.run c analyzers) := by
  have prepared : Undenied (r.prepare c analyzers) :=
    (r.undenied_check _).bind fun _ => (Prepared.undenied_prepare c analyzers _ _).bind fun _ => .ok _
  exact prepared.bind fun p => (Prepared.undenied_matched p).bind fun _ => .ok _

end CategoryDrilldown

end Corpus
