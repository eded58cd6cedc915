import Corpus.Proofs.Queue.Pending
import Corpus.Proofs.Queue.Relay

/-! Confluence: whatever the workers do when, and in whatever batches, once they have followed all events
every segment is what it would be if every event had been followed at once. -/

namespace Corpus

namespace Change

variable {schema : Schema} {analyzers : Analyzers}

def outcome (schema : Schema) (analyzers : Analyzers) : Change → Option Document
  | .upsert r => (Document.ofRecord schema analyzers r).toOption
  | .tombstone _ | .clear => none

theorem leave_of_concerns {c : Change} {id : String} (h : c.concerns id) (last : Option Document) :
    (c.edit schema analyzers).leave id last = c.outcome schema analyzers := by
  cases c with
  | upsert r =>
    obtain rfl : r.id = id := by simpa [concerns, id?] using h
    exact leave_edit_upsert schema analyzers r last
  | tombstone id' =>
    obtain rfl : id' = id := by simpa [concerns, id?] using h
    exact if_pos rfl
  | clear => rfl

end Change

namespace Segment

variable {schema : Schema} {analyzers : Analyzers}

theorem Faithful.document?_advance {s : Segment} (h : s.Faithful) (events : List Event) (id : String) :
    (s.advance schema analyzers events).document? id =
      events.foldl (fun last v => (v.change.edit schema analyzers).leave id last) (s.document? id) := by
  induction events generalizing s with
  | nil => rfl
  | cons v rest ih =>
    have hone : ∀ d, v.change.edit schema analyzers = .upsert d → Fields.OnePath d.fields :=
      fun d hd => (Change.of_edit_eq_upsert hd).2
    rw [advance, List.foldl_cons, Change.apply_analyze, ← advance, ih (h.apply hone).bump,
      document?_bump, h.document?_apply hone, List.foldl_cons]

theorem foldl_leave_eq (events : List Event) (id : String) (first : Option Document) :
    events.foldl (fun last v => (v.change.edit schema analyzers).leave id last) first =
      ((events.filter (·.change.concerns id)).getLast?.map (·.change.outcome schema analyzers)).getD
        first := by
  induction events generalizing first with
  | nil => rfl
  | cons v rest ih =>
    rw [List.foldl_cons, ih]
    cases hv : v.change.concerns id with
    | true =>
      rw [Change.leave_of_concerns hv, List.filter_cons, if_pos hv, List.getLast?_cons]
      cases (rest.filter (·.change.concerns id)).getLast? <;> rfl
    | false =>
      rw [Change.edit_leave_of_not_concerns hv, List.filter_cons, if_neg (by simp [hv])]

end Segment

theorem Catalog.Advanced.last_decides {analyzers : Analyzers} {c d : Catalog} {events : List Event}
    {shards : Nat}
    (h : c.Advanced analyzers (fun i => events.filter fun v => i ∈ v.change.targets v.table shards) d)
    (hc : c.Sound) (hcount : c.shardCount = shards) (hpos : 0 < shards)
    (hnamed : ∀ v ∈ events, ∀ t, c.tables.get? v.epoch = some t → t.name = v.table) {e : Nat}
    {t : Table} (ht : c.tables.get? e = some t) :
    ∃ u, d.tables.get? e = some u ∧ ∀ id, u.shards.document? t.name id =
      ((events.filter fun v => v.epoch = e && v.change.concerns id).getLast?.map
        (·.change.outcome t.schema analyzers)).getD (t.shards.document? t.name id) := by
  refine ⟨_, (h.tables e).trans (congrArg _ ht), fun id => ?_⟩
  obtain ⟨hlen, hsound⟩ := hc.shards ht
  rw [hcount] at hlen
  -- what concerns the identity went to its shard, whatever else went there
  have hfilter : ((events.filter fun v =>
        shardOf t.name id shards ∈ v.change.targets v.table shards).filter
      (·.epoch = e)).filter (·.change.concerns id) =
        events.filter fun v => v.epoch = e && v.change.concerns id := by
    rw [List.filter_filter, List.filter_filter]
    refine List.filter_congr fun v hv => ?_
    by_cases he : v.epoch = e
    · cases hid : v.change.concerns id with
      | false => simp
      | true =>
        have hname : t.name = v.table := hnamed v hv t (he ▸ ht)
        have hm : shardOf v.table id shards ∈ v.change.targets v.table shards :=
          Change.mem_targets_of_concerns hpos hid
        simp [he, hname, hm]
    · simp [he]
  have hlength : (t.shards.advance t.schema analyzers fun i =>
      (events.filter fun v => i ∈ v.change.targets v.table shards).filter
        (·.epoch = e)).length = t.shards.length := List.length_mapIdx
  have hi : shardOf t.name id shards < t.shards.length := hlen ▸ shardOf_lt hpos t.name id
  have hfaithful := hsound.faithful _ (List.getElem_mem hi)
  rw [Shards.document?, hlength, Shards.getElem?_advance, Shards.document?, hlen,
    List.getElem?_eq_getElem hi, Option.map_some, Option.bind_some, Option.bind_some,
    hfaithful.document?_advance, Segment.foldl_leave_eq, hfilter]

namespace Tick

def isSending : Tick → Bool
  | .announce .. | .enqueue .. => true
  | .take .. | .follow _ | .report _ | .call | .look _ => false

end Tick

namespace Relay

variable {analyzers : Analyzers} {threshold : Nat} {r s : Relay} {c : Catalog}

structure SentAlike (r s : Relay) : Prop where
  lanes : r.lanes.length = s.lanes.length
  announced : ∀ i, (r.lane i).announced = (s.lane i).announced
  entered : ∀ i, (r.lane i).entered = (s.lane i).entered

theorem SentAlike.of_modify (h : r.SentAlike s) {r' s' : Relay} {shard : Nat} {f : Lane → Lane}
    (hr : r'.lanes = r.lanes.modify shard f) (hs : s'.lanes = s.lanes.modify shard f)
    (hannounced : ∀ l l', l.announced = l'.announced → (f l).announced = (f l').announced)
    (hentered : ∀ l l', l.announced = l'.announced → l.entered = l'.entered →
      (f l).entered = (f l').entered) : r'.SentAlike s' where
  lanes := by rw [hr, hs, List.length_modify, List.length_modify, h.lanes]
  announced i := by
    rw [lane_of_modify hr, lane_of_modify hs, h.lanes]
    split
    next => exact hannounced _ _ (h.announced i)
    next => exact h.announced i
  entered i := by
    rw [lane_of_modify hr, lane_of_modify hs, h.lanes]
    split
    next => exact hentered _ _ (h.announced i) (h.entered i)
    next => exact h.entered i

theorem SentAlike.of_work (h : r.SentAlike s) {r' : Relay} {shard : Nat} {f : Lane → Lane}
    (hr : r'.lanes = r.lanes.modify shard f) (hannounced : ∀ l, (f l).announced = l.announced)
    (hentered : ∀ l, (f l).entered = l.entered) : r'.SentAlike s where
  lanes := by rw [hr, List.length_modify, h.lanes]
  announced i := by
    rw [lane_of_modify hr]
    split
    next => exact (hannounced _).trans (h.announced i)
    next => exact h.announced i
  entered i := by
    rw [lane_of_modify hr]
    split
    next => exact (hentered _).trans (h.entered i)
    next => exact h.entered i

theorem SentAlike.tick (h : r.SentAlike s) {t : Tick} (ht : t.isSending) :
    (r.tick analyzers threshold t).SentAlike (s.tick analyzers threshold t) := by
  cases t with
  | announce shard v =>
    exact h.of_modify rfl rfl (fun l l' ha => congrArg (· ++ [v]) ha) (fun _ _ _ he => he)
  | enqueue shard k =>
    refine h.of_modify rfl rfl (fun l l' ha => ?_) (fun l l' ha he => ?_)
    · rw [Lane.announced_enqueue, Lane.announced_enqueue, ha]
    · rw [Lane.entered_enqueue, Lane.entered_enqueue, ha, he]
  | take _ _ _ | follow _ | report _ | call | look _ => cases ht

theorem SentAlike.tick_left (h : r.SentAlike s) {t : Tick} (ht : t.isSending = false) :
    (r.tick analyzers threshold t).SentAlike s := by
  cases t with
  | announce _ _ | enqueue _ _ => cases ht
  | take shard limit division =>
    rw [Relay.tick, Event.analyzeBatch_eq]
    exact h.of_work rfl (Lane.announced_take _ limit) (Lane.entered_take _ _ limit)
  | follow shard => exact h.of_work rfl Lane.announced_follow Lane.entered_follow
  | report shard => exact h.of_work rfl Lane.announced_report Lane.entered_report
  | call | look _ => exact ⟨h.lanes, h.announced, h.entered⟩

theorem SentAlike.run (h : r.SentAlike s) (ticks : List Tick) :
    (r.run analyzers threshold ticks).SentAlike
      (s.run analyzers threshold (ticks.filter Tick.isSending)) := by
  induction ticks generalizing r s with
  | nil => exact h
  | cons t rest ih =>
    cases ht : t.isSending with
    | true =>
      rw [List.filter_cons_of_pos ht]
      exact ih (h.tick ht)
    | false =>
      rw [List.filter_cons_of_neg (by simp [ht])]
      exact ih (h.tick_left ht)

structure Sent (shards : Nat) (events : Nat → List Event) (r : Relay) : Prop where
  lanes : r.lanes.length = shards
  announced : ∀ i, (r.lane i).announced = []
  entered : ∀ i, (r.lane i).entered = events i

theorem Sent.push {shards : Nat} {events : Nat → List Event} (h : r.Sent shards events)
    (analyzers : Analyzers) (threshold : Nat) (v : Event) {i : Nat} (hi : i < shards) :
    ((r.tick analyzers threshold (.announce i v)).tick analyzers threshold (.enqueue i 0)).Sent shards
      fun j => if j = i then events j ++ [v] else events j := by
  have hlanes : ((r.tick analyzers threshold (.announce i v)).tick analyzers threshold
      (.enqueue i 0)).lanes = r.lanes.modify i fun l => (l.announce v).enqueue 0 :=
    List.modify_modify_eq ..
  have hlane := lane_of_modify hlanes
  have hannounced (l : Lane) (ha : l.announced = []) : ((l.announce v).enqueue 0).announced = [] := by
    rw [Lane.announced_enqueue, Lane.announce, ha]
    rfl
  have hentered (l : Lane) (ha : l.announced = []) :
      ((l.announce v).enqueue 0).entered = l.entered ++ [v] := by
    rw [Lane.entered_enqueue, Lane.announce, ha]
    rfl
  refine ⟨(congrArg List.length hlanes).trans ((List.length_modify ..).trans h.lanes), fun j => ?_,
    fun j => ?_⟩
  · rw [hlane]
    split
    next => exact hannounced _ (h.announced j)
    next => exact h.announced j
  · rw [hlane, h.lanes]
    by_cases hj : j = i
    · subst hj
      rw [if_pos ⟨rfl, hi⟩, if_pos rfl, hentered _ (h.announced j), h.entered]
    · rw [if_neg fun hij => hj hij.1.symm, if_neg hj, h.entered]

theorem Sent.foldl_push {shards : Nat} {events : Nat → List Event} (h : r.Sent shards events) (v : Event)
    {targets : List Nat} (hn : targets.Nodup) (hlt : ∀ i ∈ targets, i < shards) :
    (r.run analyzers threshold
      (targets.flatMap fun i => [.announce i v, .enqueue i 0])).Sent shards
        fun j => if j ∈ targets then events j ++ [v] else events j := by
  induction targets generalizing r events with
  | nil => simpa [Relay.run] using h
  | cons i rest ih =>
    obtain ⟨hi, hrest⟩ := List.nodup_cons.1 hn
    have hstep := ih (h.push analyzers threshold v (hlt i (.head _))) hrest
      fun j hj => hlt j (.tail _ hj)
    refine ⟨hstep.lanes, hstep.announced, fun j => (hstep.entered j).trans ?_⟩
    by_cases hj : j = i
    · subst hj
      simp [hi]
    · simp [hj]

theorem Sent.send {shards : Nat} {events : Nat → List Event} (h : r.Sent shards events)
    (analyzers : Analyzers) (threshold : Nat) (hpos : 0 < shards) (v : Event) :
    (r.run analyzers threshold (v.sending shards)).Sent shards
      fun j => if j ∈ v.change.targets v.table shards then events j ++ [v] else events j :=
  h.foldl_push v (v.change.nodup_targets v.table shards) fun _ => Change.lt_of_mem_targets hpos

theorem Sent.sendAll {shards : Nat} {events : Nat → List Event} (h : r.Sent shards events)
    (hpos : 0 < shards) (more : List Event) :
    (r.run analyzers threshold (more.flatMap (·.sending shards))).Sent shards
      fun j => events j ++ more.filter fun v => j ∈ v.change.targets v.table shards := by
  induction more generalizing r events with
  | nil => simpa [Relay.run] using h
  | cons v rest ih =>
    have hrest := ih (h.send analyzers threshold hpos v)
    rw [List.flatMap_cons, run_append]
    refine ⟨hrest.lanes, hrest.announced, fun j => (hrest.entered j).trans ?_⟩
    by_cases hj : j ∈ v.change.targets v.table shards <;> simp [hj]

theorem Sent.new (c : Catalog) (shards : Nat) :
    (Relay.new c shards).Sent (max shards 1) fun _ => [] where
  lanes := List.length_replicate
  announced i := by rw [lane_new]; rfl
  entered i := by rw [lane_new]; rfl

theorem entered_run (c : Catalog) (shards : Nat) {events : List Event} {ticks : List Tick}
    (h : ticks.filter Tick.isSending = events.flatMap (·.sending (max shards 1))) (i : Nat) :
    (((new c shards).run analyzers threshold ticks).lane i).entered =
      events.filter fun v => i ∈ v.change.targets v.table (max shards 1) := by
  have halike : ((new c shards).run analyzers threshold ticks).SentAlike _ :=
    SentAlike.run ⟨rfl, fun _ => rfl, fun _ => rfl⟩ ticks
  rw [halike.entered, h]
  have hpos : 0 < max shards 1 := Nat.lt_of_lt_of_le Nat.zero_lt_one (Nat.le_max_right ..)
  exact ((Sent.new c shards).sendAll hpos events).entered i

/-- Once nothing is left to be done, the indexes are those that events followed at once would make. -/
theorem deferred_eq_immediate (analyzers : Analyzers) (threshold : Nat) (c : Catalog) (shards : Nat)
    (events : List Event) (ticks : List Tick)
    (hsent : ticks.filter Tick.isSending = events.flatMap (·.sending (max shards 1)))
    (hempty : ∀ l ∈ ((new c shards).run analyzers threshold ticks).lanes,
      l.waiting = [] ∧ l.held = []) :
    let r := (new c shards).run analyzers threshold ticks
    r.catalog = events.foldl (Catalog.followNow analyzers (max shards 1)) c ∧
      (c.Sound → c.shardCount = max shards 1 →
        (∀ v ∈ events, ∀ t, c.tables.get? v.epoch = some t → t.name = v.table) →
        ∀ e t, c.tables.get? e = some t → ∃ u, r.catalog.tables.get? e = some u ∧
          ∀ id, u.shards.document? t.name id =
            ((events.filter fun v => v.epoch = e && v.change.concerns id).getLast?.map
              (·.change.outcome t.schema analyzers)).getD (t.shards.document? t.name id)) := by
  intro r
  have hr : r.Sound analyzers c := (Sound.new analyzers c shards).run threshold ticks
  have hpos : 0 < max shards 1 := Nat.lt_of_lt_of_le Nat.zero_lt_one (Nat.le_max_right ..)
  have happlied (i : Nat) : (r.lane i).applied =
      events.filter fun v => i ∈ v.change.targets v.table (max shards 1) := by
    have hlane : (r.lane i).waiting = [] ∧ (r.lane i).held = [] := by
      obtain hl | hl := r.lane_cases i
      · rw [hl]
        exact ⟨rfl, rfl⟩
      · exact hempty _ (List.mem_of_getElem? hl)
    rw [← entered_run c shards hsent i, Lane.entered, hlane.1, hlane.2, List.map_nil, List.append_nil,
      List.append_nil]
  have hadvanced := hr.advanced.congr happlied
  refine ⟨hadvanced.unique ?_, fun hc hcount hnamed e t ht => ?_⟩
  · exact (Catalog.Advanced.refl analyzers c).foldl_followNow (max shards 1) events
  · exact hadvanced.last_decides hc hcount hpos hnamed ht

/-- A record is put on either shard, the table is cleared, and one of the two is put again. -/
def clearedBetween : List Event :=
  [⟨"t", 1, .upsert ⟨"two", "t", 1, .empty⟩⟩, ⟨"t", 1, .upsert ⟨"d", "t", 2, .empty⟩⟩,
    ⟨"t", 1, .clear⟩, ⟨"t", 1, .upsert ⟨"two", "t", 3, .empty⟩⟩]

def clearedBetweenTicks : List Tick :=
  [.announce 0 ⟨"t", 1, .upsert ⟨"two", "t", 1, .empty⟩⟩, .enqueue 0 0,
    .take 0 1 .whole,
    .announce 1 ⟨"t", 1, .upsert ⟨"d", "t", 2, .empty⟩⟩, .follow 0, .enqueue 1 0,
    .announce 0 ⟨"t", 1, .clear⟩, .report 0, .enqueue 0 0,
    .announce 1 ⟨"t", 1, .clear⟩, .enqueue 1 0,
    .take 0 9 .whole, .take 1 9 (.halves .whole .whole),
    .announce 0 ⟨"t", 1, .upsert ⟨"two", "t", 3, .empty⟩⟩, .enqueue 0 0,
    .follow 1, .follow 0, .report 0, .take 0 9 .whole, .follow 1, .follow 0, .report 0, .report 1]

theorem deferred_eq_immediate_clearedBetween :
    let c := (Catalog.new 2).create "t"
    let analyzers := Analyzers.withDefault "keyword"
    let r := (Relay.new c 2).run analyzers 1 clearedBetweenTicks
    clearedBetweenTicks.filter Tick.isSending = clearedBetween.flatMap (·.sending (max 2 1)) ∧
      (∀ l ∈ r.lanes, l.waiting = [] ∧ l.held = []) ∧
      r.catalog = clearedBetween.foldl (Catalog.followNow analyzers 2) c ∧
      ∃ u, r.catalog.tables.get? 1 = some u ∧ u.shards.document? "t" "d" = none ∧
        u.shards.document? "t" "two" =
          (Document.ofRecord .empty analyzers ⟨"two", "t", 3, .empty⟩).toOption := by
  intro c analyzers r
  have hsent : clearedBetweenTicks.filter Tick.isSending =
      clearedBetween.flatMap (·.sending (max 2 1)) := by decide +kernel
  have hempty : ∀ l ∈ r.lanes, l.waiting = [] ∧ l.held = [] := by decide +kernel
  obtain ⟨hcatalog, hlast⟩ := deferred_eq_immediate analyzers 1 c 2 clearedBetween
    clearedBetweenTicks hsent hempty
  have hget : c.tables.get? 1 = some ⟨"t", 1, false, .empty, 0, .new 2⟩ := by
    refine (Catalog.get?_create rfl 1).trans ((if_pos rfl).trans ?_)
    exact congrArg (fun name => some (Table.mk name 1 false .empty 0 (.new 2))) (by decide +kernel)
  obtain ⟨u, hu, hdocument⟩ := hlast ((Catalog.Sound.new 2).create "t") rfl
    (fun v hv t ht => by
      have hv' : v.epoch = 1 ∧ v.table = "t" := by
        simp only [clearedBetween, List.mem_cons, List.not_mem_nil, or_false] at hv
        rcases hv with rfl | rfl | rfl | rfl <;> exact ⟨rfl, rfl⟩
      rw [hv'.1, hget] at ht
      rw [hv'.2, ← Option.some.inj ht]) 1 _ hget
  exact ⟨hsent, hempty, hcatalog, u, hu, hdocument "d", hdocument "two"⟩

end Relay

end Corpus
