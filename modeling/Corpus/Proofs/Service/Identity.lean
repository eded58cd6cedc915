import Corpus.Proofs.Identity
import Corpus.Proofs.Service.Agreement
import Corpus.Proofs.Service.Drilldown

/-! Records that are put one by one, and the identities they are put under. -/

namespace Corpus.Service

open Corpus.Action Digest Identity Text

variable {s : Service} {t : Table} {r : Record} {id : String}

theorem perform_put_singleton (hs : s.Sound) (ht : s.catalog.get? (tableName r.table) = some t)
    (hn : tableName r.table = t.name) :
    (put [r]).perform s = match (putBatch t [(r, 0)]).perform s with
      | (.ok named, s) => (.ok (Dict.ofList named).values, s)
      | (.error e, s) => (.error e, s) := by
  have htables : tablesOf [r] s = .ok [t] := by
    rw [tablesOf, List.map_singleton]
    simp only [List.eraseDups_cons, List.filter_nil, List.eraseDups_nil, List.mapM_cons,
      List.mapM_nil, Catalog.require, ht]
    rfl
  rw [perform_put hs, htables]
  simp only [putTables, bind_pure_comp, perform_bind, perform_map, List.mapM_cons, List.mapM_nil,
    List.zipIdx_cons, List.zipIdx_nil, hn, decide_true, List.filter_cons, if_true, List.filter_nil]
  generalize (putBatch t [(r, 0)]).perform s = p
  obtain ⟨answer, s'⟩ := p
  cases answer with
  | error e => rfl
  | ok named => simp [Except.map]

theorem perform_identifyAll_singleton (h : Identity.ofRecord t.schema r = .ok (.given id)) :
    (identifyAll t [(r, 0)]).perform s = (.ok [({ r with id, table := t.name }, 0)], s) := by
  rw [perform_identifyAll_cons, perform_identify_given h]
  rfl

theorem Kept.put_singleton {g : List Happening} (h : s.Kept g)
    (ht : s.catalog.get? (tableName r.table) = some t) (hn : tableName r.table = t.name)
    (hid : Identity.ofRecord t.schema r = .ok (.given id)) :
    ((Service.put [r]).perform s).1 = .ok [id] ∧
      ∀ id', ((Service.put [r]).perform s).2.store.record? t.name id' =
        if id = id' then some { r with id, table := t.name } else s.store.record? t.name id' := by
  let named : Record := { r with id, table := t.name }
  obtain ⟨store, hput⟩ := h.exists_put (h.sound.indexer.catalog.has ht) [named]
  have hrecord := (h.store.put hput).2.1
  rw [perform_put_singleton h.sound ht hn, perform_putBatch h.sound ht,
    perform_identifyAll_singleton hid]
  simp only [List.map_cons, List.map_nil, named] at hput ⊢
  rw [hput]
  refine ⟨rfl, fun id' => ?_⟩
  rw [hrecord, if_pos rfl]
  rfl

/-- Records that differ in their keys are kept apart, unless their separators make up for each other. -/
theorem put_apart {config : Config} {windows : Bool} (h : Service.start config windows = .ok s)
    (moves : List Move) {other : Record} {keys : List String}
    (ht : (s.after moves).catalog.get? (tableName r.table) = some t) (hn : tableName r.table = t.name)
    (hk : t.schema.primaryKeys = keys) (hne : keys ≠ [])
    (hr : Keyed r keys) (ho : Keyed other keys)
    (hd : ∃ key ∈ keys, column? r key ≠ column? other key)
    (hs : (separators r keys).sum = (separators other keys).sum →
      separators r keys = separators other keys)
    (hu : utf8 (joined r keys) ≠ utf8 (joined other keys) →
      Uuid.ofName Uuid.objects (utf8 (joined r keys)) ≠
        Uuid.ofName Uuid.objects (utf8 (joined other keys))) :
    ∃ id id', Identity.ofRecord t.schema r = .ok (.given id) ∧
      Identity.ofRecord t.schema other = .ok (.given id') ∧ id ≠ id' ∧
      ((put [r]).perform (s.after moves)).1 = .ok [id] ∧
      ((put [r]).perform (s.after moves)).2.store.record? t.name id =
        some { r with id, table := t.name } ∧
      ((put [r]).perform (s.after moves)).2.store.record? t.name id' =
        (s.after moves).store.record? t.name id' := by
  subst hk
  have hkept := (Kept.start h).steps (steps_after (.start h) moves)
  obtain ⟨hanswer, hrecord⟩ := hkept.put_singleton ht hn (hr.ofRecord_eq hne)
  have hids := hu fun he => joined_ne hs (hr.columnText_ne ho hd) (utf8_injective he)
  refine ⟨_, _, hr.ofRecord_eq hne, ho.ofRecord_eq hne, hids, hanswer, ?_, ?_⟩
  · rw [hrecord, if_pos rfl]
  · rw [hrecord, if_neg hids]

def twoKeys : List Move :=
  [.ask (.createTable "t"), .ask (.setSchema "t" ⟨[], ["a", "b"]⟩)]

def underKeys (a b : String) : Record := ⟨"", "t", 0, .ofList [("a", .string a), ("b", .string b)]⟩

theorem keyed_underKeys (a b : String) : Keyed (underKeys a b) ["a", "b"] := by
  have hget (key : String) : (underKeys a b).values.get? key =
      if key = "b" then some (.string b) else if key = "a" then some (.string a) else none := by
    simp [underKeys, Dict.ofList]
  refine ⟨rfl, fun key hkey => ?_⟩
  rcases List.mem_pair.1 hkey with rfl | rfl
  · rw [column?_string ((hget _).trans (if_neg (by decide)))]
    rfl
  · rw [column?_string ((hget _).trans (if_pos rfl))]
    rfl

theorem put_apart_underKeys : ∃ (s : Service) (t : Table) (id id' : String),
    Service.start oneShard true = .ok s ∧ id ≠ id' ∧
    let first := s.after (twoKeys ++ [.ask (.put [underKeys "1" "2"])])
    first.catalog.get? "t" = some t ∧ ((put [underKeys "1" "3"]).perform first).1 = .ok [id] ∧
    ((put [underKeys "1" "3"]).perform first).2.store.record? t.name id' =
      first.store.record? t.name id' := by
  have hb : (Service.start oneShard true).toOption.any fun s =>
      ((s.after (twoKeys ++ [.ask (.put [underKeys "1" "2"])])).catalog.get? "t").any fun t =>
        t.name = "t" ∧ t.schema = ⟨[], ["a", "b"]⟩ := by
    decide +kernel
  cases hs : Service.start oneShard true with
  | error e => rw [hs] at hb; cases hb
  | ok s =>
    rw [hs, Except.toOption, Option.any_some] at hb
    obtain ⟨t, ht, hb⟩ := (Option.any_eq_true ..).1 hb
    obtain ⟨hname, hschema⟩ := of_decide_eq_true hb
    have htable : tableName (underKeys "1" "3").table = "t" := by decide +kernel
    obtain ⟨id, id', -, -, hne, hanswer, -, hkept⟩ := put_apart hs
      (twoKeys ++ [.ask (.put [underKeys "1" "2"])]) (r := underKeys "1" "3") (by rwa [htable])
      (htable.trans hname.symm) (by rw [hschema]) (by decide) (keyed_underKeys "1" "3")
      (keyed_underKeys "1" "2") (by decide +kernel) (by decide +kernel) fun _ => by decide +kernel
    exact ⟨s, t, id, id', rfl, hne, ht, hanswer, hkept⟩

/-- A separator in a text makes it look like two columns. -/
theorem put_together : ∃ s : Service, Service.start oneShard true = .ok s ∧
    column? (underKeys "1\x1fb=2" "3") "a" ≠ column? (underKeys "1" "2\x1fb=3") "a" ∧
    Identity.ofRecord ⟨[], ["a", "b"]⟩ (underKeys "1\x1fb=2" "3") =
      Identity.ofRecord ⟨[], ["a", "b"]⟩ (underKeys "1" "2\x1fb=3") ∧
    ((Service.count "t" timeMin timeMax).perform (s.after (twoKeys ++
      [.ask (.put [underKeys "1\x1fb=2" "3"]), .ask (.put [underKeys "1" "2\x1fb=3"])]))).1 =
        .ok 1 := by
  have hb : (Service.start oneShard true).toOption.any fun s =>
      ((Service.count "t" timeMin timeMax).perform (s.after (twoKeys ++
        [.ask (.put [underKeys "1\x1fb=2" "3"]),
          .ask (.put [underKeys "1" "2\x1fb=3"])]))).1.toOption = some 1 := by
    decide +kernel
  cases hs : Service.start oneShard true with
  | error e => rw [hs] at hb; cases hb
  | ok s =>
    rw [hs] at hb
    exact ⟨s, rfl, by decide +kernel, by decide +kernel, eq_ok_of_toOption (of_decide_eq_true hb)⟩

end Corpus.Service
