import Corpus.Proofs.Catalog

/-! The incarnations of tables, as those see them who keep the tables that they were handed while others
drop these and create new ones of their names. -/

namespace Corpus

namespace Catalog

inductive Use
  | create (name : String)
  | require (name : String)
  | remove (place : Nat)
  | setSchema (name : String) (schema : Schema)
  | ensureLive (place : Nat)

/-- A catalog in use.  An incarnation of a table is known by its epoch. -/
structure Shared where
  catalog : Catalog
  made : List Nat
  held : List Nat

namespace Shared

def start (shards : Nat) : Shared := ⟨.new shards, [], []⟩

def found (c : Catalog) (name : String) : List Nat := ((c.get? name).map (·.epoch)).toList

def step (s : Shared) : Use → Shared
  | .create name =>
    let c := s.catalog.create name
    { s with
      catalog := c
      made := if s.catalog.contains name then s.made else s.made ++ found c name }
  | .require name => { s with held := s.held ++ found s.catalog name }
  | .remove place =>
    match s.held[place]? with
    | some epoch => { s with catalog := s.catalog.remove epoch }
    | none => s
  | .setSchema name schema =>
    match s.catalog.setSchema name schema with
    | .ok c => { s with catalog := c }
    | .error _ => s
  | .ensureLive _ => s

def after (s : Shared) (uses : List Use) : Shared := uses.foldl step s

end Shared

def Linked (c : Catalog) : Prop :=
  ∀ e t, c.tables.get? e = some t → t.dropped = false → c.current.get? t.name = some e

/-- No incarnation gets lost or another name, and those that are dropped stay as they are. -/
def Keeps (c d : Catalog) : Prop :=
  ∀ e t, c.tables.get? e = some t →
    ∃ u, d.tables.get? e = some u ∧ u.name = t.name ∧ (t.dropped = true → u = t)

variable {c d : Catalog}

theorem Keeps.refl (c : Catalog) : c.Keeps c := fun _ t ht => ⟨t, ht, rfl, fun _ => rfl⟩

theorem Keeps.trans {e : Catalog} (h : c.Keeps d) (h' : d.Keeps e) : c.Keeps e := by
  intro i t ht
  obtain ⟨u, hu, hname, hdropped⟩ := h i t ht
  obtain ⟨v, hv, hname', hdropped'⟩ := h' i u hu
  refine ⟨v, hv, hname'.trans hname, fun hd => ?_⟩
  obtain rfl := hdropped hd
  exact hdropped' hd

theorem Linked.new (shards : Nat) : (Catalog.new shards).Linked := fun _ _ h => nomatch h

theorem Linked.create (h : c.Linked) {name : String} (hn : c.contains name = false) :
    (c.create name).Linked := by
  intro e t ht hd
  rw [get?_create hn] at ht
  rw [current_create hn]
  split at ht
  next he =>
    obtain rfl := Option.some.inj ht
    rw [he, if_pos (show (c.fresh name).name = tableName name from rfl)]
  next =>
    have hcur := h e t ht hd
    rw [if_neg, hcur]
    intro ht
    rw [contains, Dict.contains, ← ht, hcur] at hn
    cases hn

theorem Keeps.create (h : c.Sound) {name : String} (hn : c.contains name = false) :
    c.Keeps (c.create name) := by
  intro e t ht
  have hne : e ≠ c.nextEpoch := Nat.ne_of_lt (h.epoch ht).2
  exact ⟨t, by rwa [get?_create hn, if_neg hne], rfl, fun _ => rfl⟩

theorem Linked.remove (h : c.Linked) (hs : c.Sound) {e : Nat} {t : Table}
    (ht : c.tables.get? e = some t) : (c.remove e).Linked := by
  intro e' u hu hd
  rw [get?_remove ht] at hu
  split at hu
  next => cases hu; cases hd
  next he =>
    have hcur := h e' u hu hd
    rw [current_remove hs ht, hcur, if_neg fun heq => he (Option.some.inj heq)]

theorem Keeps.remove {e : Nat} {t : Table} (ht : c.tables.get? e = some t) :
    c.Keeps (c.remove e) := by
  intro e' u hu
  rw [get?_remove ht]
  split
  next he =>
    rw [he, ht] at hu
    cases hu
    exact ⟨_, rfl, rfl, fun hd => by cases t; cases hd; rfl⟩
  next => exact ⟨u, hu, rfl, fun _ => rfl⟩

theorem Sound.exists_of_current (h : c.Sound) {name : String} {e : Nat}
    (hc : c.current.get? name = some e) :
    ∃ t, c.tables.get? e = some t ∧ t.epoch = e ∧ t.name = name ∧ t.dropped = false := by
  obtain ⟨t, ht, hname, hd⟩ := h.current hc
  exact ⟨t, ht, (h.epoch ht).1, hname, hd⟩

theorem Sound.get?_eq (h : c.Sound) {name : String} {e : Nat}
    (hc : c.current.get? (tableName name) = some e) :
    ∃ t, c.get? name = some t ∧ c.tables.get? e = some t ∧ t.epoch = e := by
  obtain ⟨t, ht, he, -⟩ := h.exists_of_current hc
  exact ⟨t, by rw [Catalog.get?, hc, Option.bind_some, ht], ht, he⟩

theorem Sound.exists_setSchema (h : c.Sound) {name : String} {e : Nat}
    (hc : c.current.get? (tableName name) = some e) (schema : Schema) :
    ∃ t d, c.tables.get? e = some t ∧ c.setSchema name schema = .ok d ∧
      d.current = c.current ∧ d.nextEpoch = c.nextEpoch ∧
      d.tables.get? e = some { t with schema, version := t.version + 1 } ∧
      ∀ e', e' ≠ e → d.tables.get? e' = c.tables.get? e' := by
  obtain ⟨t, hget, ht, rfl⟩ := h.get?_eq hc
  refine ⟨t, c.alter t.epoch fun t => { t with schema, version := t.version + 1 }, ht,
    by rw [setSchema_eq h, hget], rfl, rfl, ?_, fun e' he => ?_⟩
  · rw [get?_alter, if_pos rfl, ht]
    rfl
  · rw [get?_alter, if_neg he]

theorem Sound.setSchema_of_none (h : c.Sound) {name : String}
    (hc : c.current.get? (tableName name) = none) (schema : Schema) :
    c.setSchema name schema = .error (.noTable (tableName name)) := by
  rw [setSchema_eq h, Catalog.get?, hc]
  rfl

theorem Linked.setSchema (h : c.Linked) (hs : c.Sound) {name : String} {schema : Schema}
    (hd : c.setSchema name schema = .ok d) :
    d.Linked ∧ c.Keeps d := by
  cases hc : c.current.get? (tableName name) with
  | none =>
    rw [hs.setSchema_of_none hc] at hd
    cases hd
  | some e =>
    obtain ⟨t, d', ht, hd', hcurrent, -, hset, hother⟩ := hs.exists_setSchema hc schema
    rw [hd] at hd'
    cases hd'
    obtain ⟨t', ht', -, -, hlive⟩ := hs.exists_of_current hc
    rw [ht] at ht'
    cases ht'
    constructor
    · intro e' u hu hud
      rw [hcurrent]
      by_cases he : e' = e
      · rw [he, hset] at hu
        cases hu
        rw [he]
        exact h e t ht hud
      · rw [hother e' he] at hu
        exact h e' u hu hud
    · intro e' u hu
      by_cases he : e' = e
      · rw [he, ht] at hu
        cases hu
        refine ⟨{ t with schema, version := t.version + 1 }, he ▸ hset, rfl, fun hud => ?_⟩
        rw [hlive] at hud
        cases hud
      · exact ⟨u, by rwa [hother e' he], rfl, fun _ => rfl⟩

namespace Shared

structure Sound (s : Shared) : Prop where
  catalog : s.catalog.Sound
  linked : s.catalog.Linked
  ascending : s.made.Pairwise (· < ·)
  mem_made : ∀ e, e ∈ s.made ↔ (s.catalog.tables.get? e).isSome
  held : ∀ e ∈ s.held, e ∈ s.made

variable {s : Shared}

theorem Sound.start (shards : Nat) : (Shared.start shards).Sound :=
  ⟨.new shards, .new shards, .nil, fun _ => ⟨nofun, nofun⟩, nofun⟩

theorem Sound.exists_of_mem (h : s.Sound) {e : Nat} (he : e ∈ s.made) :
    ∃ t, s.catalog.tables.get? e = some t :=
  Option.isSome_iff_exists.1 ((h.mem_made e).1 he)

theorem mem_found {name : String} {e : Nat} :
    e ∈ found c name ↔ ∃ t, c.get? name = some t ∧ t.epoch = e := by
  simp [found]

theorem Sound.withCatalog (h : s.Sound) (hd : d.Sound) (hl : d.Linked)
    (hk : ∀ e, (d.tables.get? e).isSome = (s.catalog.tables.get? e).isSome) :
    Sound { s with catalog := d } :=
  ⟨hd, hl, h.ascending, fun e => by rw [h.mem_made, hk], h.held⟩

theorem step_create_of_contains {name : String} (h : s.catalog.contains name) :
    s.step (.create name) = s := by
  rw [step, create_of_contains h, if_pos h]

theorem step_create {name : String} (h : s.catalog.contains name = false) :
    s.step (.create name) =
      { s with
        catalog := s.catalog.create name
        made := s.made ++ [s.catalog.nextEpoch] } := by
  have hfound : found (s.catalog.create name) name = [s.catalog.nextEpoch] := by
    rw [found, Catalog.get?, current_create h, if_pos rfl, Option.bind_some, get?_create h, if_pos rfl]
    rfl
  rw [step, h, if_neg Bool.false_ne_true, hfound]

theorem Sound.lt_nextEpoch (h : s.Sound) {e : Nat} (he : e ∈ s.made) : e < s.catalog.nextEpoch := by
  obtain ⟨t, ht⟩ := h.exists_of_mem he
  exact (h.catalog.epoch ht).2

theorem Sound.step (h : s.Sound) (use : Use) :
    (s.step use).Sound ∧ s.catalog.Keeps (s.step use).catalog := by
  have hs := h.catalog
  cases use with
  | create name =>
    cases hn : s.catalog.contains name with
    | true =>
      rw [step_create_of_contains hn]
      exact ⟨h, .refl _⟩
    | false =>
      rw [step_create hn]
      refine ⟨⟨hs.create name, h.linked.create hn, ?_, fun e => ?_, fun e he => ?_⟩, .create hs hn⟩
      · refine List.pairwise_append.2 ⟨h.ascending, List.pairwise_singleton .., fun e he e' he' => ?_⟩
        rw [List.mem_singleton.1 he']
        exact h.lt_nextEpoch he
      · rw [List.mem_append, List.mem_singleton, h.mem_made, get?_create hn]
        by_cases he : e = s.catalog.nextEpoch <;> simp [he]
      · exact List.mem_append_left _ (h.held e he)
  | require name =>
    refine ⟨⟨hs, h.linked, h.ascending, h.mem_made, fun e he => ?_⟩, .refl _⟩
    rcases List.mem_append.1 he with he | he
    · exact h.held e he
    · obtain ⟨t, ht, rfl⟩ := mem_found.1 he
      exact (h.mem_made _).2 (by rw [(hs.get? ht).2.1]; rfl)
  | remove place =>
    rw [Shared.step]
    cases hp : s.held[place]? with
    | none => exact ⟨h, .refl _⟩
    | some e =>
      obtain ⟨t, ht⟩ := h.exists_of_mem (h.held e (List.mem_of_getElem? hp))
      refine ⟨h.withCatalog (hs.remove e) (h.linked.remove hs ht) fun e' => ?_, .remove ht⟩
      rw [get?_remove ht]
      split
      next he => rw [he, ht]; rfl
      next => rfl
  | setSchema name schema =>
    rw [Shared.step]
    cases hd : s.catalog.setSchema name schema with
    | error => exact ⟨h, .refl _⟩
    | ok d =>
      obtain ⟨hl, hk⟩ := h.linked.setSchema hs hd
      refine ⟨h.withCatalog (hs.setSchema hd).1 hl fun e => ?_, hk⟩
      rw [setSchema_eq hs] at hd
      split at hd
      next t _ =>
        cases hd
        rw [get?_alter]
        split
        next he => rw [he, Option.isSome_map]
        next => rfl
      next => cases hd
  | ensureLive place => exact ⟨h, .refl _⟩

theorem Sound.after (h : s.Sound) (uses : List Use) :
    (s.after uses).Sound ∧ s.catalog.Keeps (s.after uses).catalog := by
  induction uses generalizing s with
  | nil => exact ⟨h, .refl _⟩
  | cons use rest ih =>
    obtain ⟨hs, hk⟩ := h.step use
    exact (ih hs).imp_right hk.trans

structure Isolated (s : Shared) : Prop where
  current : ∀ name e, s.catalog.current.get? name = some e →
    ∃ t, s.catalog.tables.get? e = some t ∧ t.epoch = e ∧ t.name = name ∧ t.dropped = false
  /-- What is created is an incarnation that was never there, under a name that was free. -/
  created : ∀ name, match s.catalog.current.get? (tableName name) with
    | some _ => s.step (.create name) = s
    | none => ∃ epoch c, epoch ∉ s.made ∧
      s.step (.create name) = { s with catalog := c, made := s.made ++ [epoch] } ∧
      c.current = s.catalog.current.insert (tableName name) epoch ∧
      c.tables.get? epoch =
        some ⟨tableName name, epoch, false, .empty, 0, .new s.catalog.shardCount⟩ ∧
      ∀ e, e ≠ epoch → c.tables.get? e = s.catalog.tables.get? e
  required : ∀ name, (s.step (.require name)).held =
    s.held ++ (s.catalog.current.get? (tableName name)).toList
  live : ∀ e ∈ s.held, ∃ t, s.catalog.tables.get? e = some t ∧
    ensureLive t =
      if s.catalog.current.get? t.name = some e then .ok () else .error (.noTable t.name)
  ascending : s.made.Pairwise (· < ·)
  mem_made : ∀ e, e ∈ s.made ↔ ∃ t, s.catalog.tables.get? e = some t ∧ t.epoch = e
  held : ∀ e ∈ s.held, e ∈ s.made
  removed : ∀ e ∈ s.held, ∀ t, s.catalog.tables.get? e = some t →
    (s.catalog.remove e).tables.get? e = some { t with dropped := true } ∧
    (∀ e', e' ≠ e → (s.catalog.remove e).tables.get? e' = s.catalog.tables.get? e') ∧
    (s.catalog.remove e).current =
      if s.catalog.current.get? t.name = some e then s.catalog.current.erase t.name
      else s.catalog.current
  schema : ∀ name schema, match s.catalog.current.get? (tableName name) with
    | none => s.catalog.setSchema name schema = .error (.noTable (tableName name))
    | some e => ∃ t d, s.catalog.tables.get? e = some t ∧ s.catalog.setSchema name schema = .ok d ∧
      d.current = s.catalog.current ∧ d.nextEpoch = s.catalog.nextEpoch ∧
      d.tables.get? e = some { t with schema, version := t.version + 1 } ∧
      ∀ e', e' ≠ e → d.tables.get? e' = s.catalog.tables.get? e'
  /-- A dropped incarnation is what it is for good. -/
  lasting : ∀ uses e t, s.catalog.tables.get? e = some t → t.dropped = true →
    (s.after uses).catalog.tables.get? e = some t

theorem Sound.live (h : s.Sound) {e : Nat} {t : Table} (ht : s.catalog.tables.get? e = some t) :
    ensureLive t =
      if s.catalog.current.get? t.name = some e then .ok () else .error (.noTable t.name) := by
  rw [ensureLive]
  cases hd : t.dropped with
  | false => rw [if_neg Bool.false_ne_true, if_pos (h.linked e t ht hd)]
  | true =>
    rw [if_pos rfl, if_neg fun hc => ?_]
    obtain ⟨u, hu, -, -, hlive⟩ := h.catalog.exists_of_current hc
    rw [ht] at hu
    cases hu
    rw [hd] at hlive
    cases hlive

theorem Sound.exists_create (h : s.Sound) {name : String}
    (hc : s.catalog.current.get? (tableName name) = none) :
    ∃ epoch c, epoch ∉ s.made ∧
      s.step (.create name) = { s with catalog := c, made := s.made ++ [epoch] } ∧
      c.current = s.catalog.current.insert (tableName name) epoch ∧
      c.tables.get? epoch =
        some ⟨tableName name, epoch, false, .empty, 0, .new s.catalog.shardCount⟩ ∧
      ∀ e, e ≠ epoch → c.tables.get? e = s.catalog.tables.get? e := by
  have hn : s.catalog.contains name = false := by rw [contains, Dict.contains, hc]; rfl
  refine ⟨s.catalog.nextEpoch, s.catalog.create name, fun he => ?_, step_create hn, ?_, ?_,
    fun e he => by rw [get?_create hn, if_neg he]⟩
  · exact Nat.lt_irrefl _ (h.lt_nextEpoch he)
  · rw [create, hn]
    rfl
  · rw [get?_create hn, if_pos rfl]
    rfl

theorem Sound.held_require (h : s.Sound) (name : String) :
    (s.step (.require name)).held = s.held ++ (s.catalog.current.get? (tableName name)).toList := by
  show s.held ++ found s.catalog name = _
  rw [found]
  cases hc : s.catalog.current.get? (tableName name) with
  | none => rw [Catalog.get?, hc]; rfl
  | some e =>
    obtain ⟨t, hget, -, rfl⟩ := h.catalog.get?_eq hc
    rw [hget]
    rfl

theorem Sound.isolated (h : s.Sound) : s.Isolated where
  current _ _ := h.catalog.exists_of_current
  created name := by
    split
    next hc => exact step_create_of_contains (by rw [contains, Dict.contains, hc]; rfl)
    next hc => exact h.exists_create hc
  required := h.held_require
  live e he := by
    obtain ⟨t, ht⟩ := h.exists_of_mem (h.held e he)
    exact ⟨t, ht, h.live ht⟩
  ascending := h.ascending
  mem_made e := by
    rw [h.mem_made, Option.isSome_iff_exists]
    exact exists_congr fun t => (and_iff_left_of_imp fun ht => (h.catalog.epoch ht).1).symm
  held := h.held
  removed e _ t ht := by
    refine ⟨by rw [get?_remove ht, if_pos rfl], fun e' he => ?_, by rw [remove_eq ht]⟩
    rw [get?_remove ht, if_neg he]
  schema name schema := by
    split
    next hc => exact h.catalog.setSchema_of_none hc schema
    next e hc => exact h.catalog.exists_setSchema hc schema
  lasting more e t ht hd := by
    obtain ⟨u, hu, -, heq⟩ := (h.after more).2 e t ht
    rwa [heq hd] at hu

/-- Whatever is done with the tables that a catalog handed out, its incarnations stay apart. -/
theorem isolated_after (shards : Nat) (uses : List Use) :
    ((Shared.start shards).after uses).Isolated :=
  ((Sound.start shards).after uses).1.isolated

/-- A table that is dropped by one of those who hold it, and created again before the other drops the one
that it still has: the new one stays. -/
example :
    let s := (Shared.start 1).after
      [.create "t", .require "T", .require "t", .remove 0, .create "t", .setSchema "t" ⟨[], ["a"]⟩,
        .require "t", .remove 1, .ensureLive 2]
    s.held = [1, 1, 2] ∧ s.catalog.current.get? "t" = some 2 := by
  decide +kernel

end Shared

end Catalog

end Corpus
