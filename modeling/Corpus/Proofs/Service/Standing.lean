import Corpus.Proofs.Queue.Pending
import Corpus.Proofs.Service.History
import Corpus.Proofs.Store.Records

/-! Where an identity stands in the store, in the history and in the index of its table. -/

namespace Corpus

open Store (latest)

/-- Where an identity stands with the store, the index, and what happened. -/
structure Standing where
  stored : Option Record
  put : Option Record
  analyzed : Option (Record × Schema)
  shown : Option Document

namespace Standing

variable {analyzers : Analyzers} {x : Standing} {waiting : List Change}

structure Settled (analyzers : Analyzers) (x : Standing) : Prop where
  shown : ∀ d, x.shown = some d ↔ ∃ r schema, x.stored = some r ∧ x.put = some r ∧
    x.analyzed = some (r, schema) ∧ Document.ofRecord schema analyzers r = .ok d
  analyzed : ∀ r, x.stored = some r → x.put = some r → ∃ schema, x.analyzed = some (r, schema)

/-- As long as changes wait it is the last of them that has to agree with the store. -/
def Awaits (analyzers : Analyzers) (x : Standing) (waiting : List Change) : Prop :=
  match waiting.getLast? with
  | none => x.Settled analyzers
  | some (.upsert r) => x.stored = some r ∧ x.put = some r
  | some (.tombstone _) => x.stored = none
  | some .clear => x.put = none

structure Agrees (analyzers : Analyzers) (x : Standing) (waiting : List Change) : Prop where
  last : ∀ r, x.stored = some r → x.put = none ∨ x.put = some r
  awaits : x.Awaits analyzers waiting

theorem agrees_upsert (waiting : List Change) (r : Record) (x : Standing) :
    Agrees analyzers { x with stored := some r, put := some r } (waiting ++ [.upsert r]) where
  last _ h := .inr h
  awaits := by
    rw [Awaits, List.getLast?_concat]
    exact ⟨rfl, rfl⟩

theorem agrees_clear (waiting : List Change) (x : Standing) :
    Agrees analyzers { x with put := none } (waiting ++ [.clear]) where
  last _ _ := .inl rfl
  awaits := by rw [Awaits, List.getLast?_concat]

theorem Agrees.put (h : Agrees analyzers x waiting) (id : String) (records : List Record) :
    Agrees analyzers
      { x with stored := latest id x.stored records, put := latest id x.put records }
      (waiting ++ (records.map Change.upsert).filter (·.concerns id)) := by
  induction records generalizing x waiting with
  | nil => rwa [List.map_nil, List.filter_nil, List.append_nil]
  | cons r rest ih =>
    by_cases hid : r.id = id
    · have hrest := ih (agrees_upsert waiting r x)
      simpa [latest, hid, Change.concerns, Change.id?] using hrest
    · have hrest := ih h
      simpa [latest, hid, Change.concerns, Change.id?] using hrest

theorem Agrees.delete (h : Agrees analyzers x waiting) (id : String) (deleted : List String) :
    Agrees analyzers { x with stored := if id ∈ deleted then none else x.stored }
      (waiting ++ (deleted.map Change.tombstone).filter (·.concerns id)) := by
  by_cases hid : id ∈ deleted
  · have hmem : Change.tombstone id ∈ (deleted.map Change.tombstone).filter (·.concerns id) :=
      List.mem_filter.2 ⟨List.mem_map.2 ⟨id, hid, rfl⟩, by simp [Change.concerns, Change.id?]⟩
    have hne := List.ne_nil_of_mem hmem
    obtain ⟨hlast, -⟩ := List.mem_filter.1 (List.getLast_mem hne)
    obtain ⟨id', -, hlast⟩ := List.mem_map.1 hlast
    rw [if_pos hid]
    refine ⟨fun r hr => absurd hr.symm (Option.some_ne_none r), ?_⟩
    rw [Awaits, List.getLast?_append, List.getLast?_eq_some_getLast hne, ← hlast]
    rfl
  · have hnil : (deleted.map Change.tombstone).filter (·.concerns id) = [] := by
      refine List.filter_eq_nil_iff.2 fun c hc => ?_
      obtain ⟨id', hid', rfl⟩ := List.mem_map.1 hc
      have hne : id' ≠ id := fun he => hid (he ▸ hid')
      simp [Change.concerns, Change.id?, hne]
    rw [if_neg hid, hnil, List.append_nil]
    exact h

def follow (analyzers : Analyzers) (schema : Schema) (id : String) (x : Standing) (c : Change) :
    Standing :=
  { x with
    analyzed := match c with
      | .upsert r => some (r, schema)
      | .tombstone _ | .clear => x.analyzed
    shown := (c.edit schema analyzers).leave id x.shown }

theorem settled_upsert {r : Record} (hs : x.stored = some r) (hp : x.put = some r)
    (schema : Schema) : (x.follow analyzers schema r.id (.upsert r)).Settled analyzers := by
  have hshown : (x.follow analyzers schema r.id (.upsert r)).shown =
      (Document.ofRecord schema analyzers r).toOption :=
    Change.leave_edit_upsert schema analyzers r x.shown
  refine ⟨fun d => ?_, fun r' hs' _ => ?_⟩
  · rw [hshown]
    constructor
    · intro hd
      exact ⟨r, schema, hs, hp, rfl, eq_ok_of_toOption hd⟩
    · intro ⟨r', schema', _, _, ha, hd⟩
      cases ha
      rw [hd]
      rfl
  · obtain rfl := Option.some.inj (hs.symm.trans hs')
    exact ⟨schema, rfl⟩

theorem settled_of_shown_eq_none (h : ∀ r, x.stored = some r → x.put ≠ some r)
    (hs : x.shown = none) : x.Settled analyzers where
  shown d := by
    rw [hs]
    exact ⟨nofun, fun ⟨r, _, hr, hp, _⟩ => absurd hp (h r hr)⟩
  analyzed r hr hp := absurd hp (h r hr)

theorem Awaits.follow {c : Change} (h : Awaits analyzers x (c :: waiting)) {id : String}
    (hc : c.concerns id) (schema : Schema) :
    Awaits analyzers (x.follow analyzers schema id c) waiting := by
  cases waiting with
  | cons c' rest =>
    -- what is awaited is of the last change, which still waits
    rw [Awaits, List.getLast?_cons_cons] at h
    rw [Awaits]
    rw [List.getLast?_eq_some_getLast (List.cons_ne_nil c' rest)] at h ⊢
    generalize (c' :: rest).getLast _ = last at h ⊢
    cases last <;> exact h
  | nil =>
    cases c with
    | upsert r =>
      obtain ⟨hs, hp⟩ := h
      obtain rfl : r.id = id := by simpa [Change.concerns, Change.id?] using hc
      exact settled_upsert hs hp schema
    | tombstone id' =>
      obtain rfl : id' = id := by simpa [Change.concerns, Change.id?] using hc
      have hstored : (x.follow analyzers schema id' (.tombstone id')).stored = none := h
      exact settled_of_shown_eq_none
        (fun r hr => absurd (hr.symm.trans hstored) (Option.some_ne_none r)) (if_pos rfl)
    | clear =>
      have hput : (x.follow analyzers schema id .clear).put = none := h
      exact settled_of_shown_eq_none
        (fun r _ hp => absurd (hp.symm.trans hput) (Option.some_ne_none r)) rfl

theorem Agrees.follow {c : Change} (h : Agrees analyzers x (c :: waiting)) {id : String}
    (hc : c.concerns id) (schema : Schema) :
    Agrees analyzers (x.follow analyzers schema id c) waiting :=
  ⟨h.last, h.awaits.follow hc schema⟩

end Standing

namespace Happening

def epoch : Happening → Nat
  | .put epoch _ | .clear epoch | .analysis epoch _ _ => epoch

def put? (epoch : Nat) (id : String) (last : Option Record) : Happening → Option Record
  | .put epoch' r => if epoch' = epoch ∧ r.id = id then some r else last
  | .clear epoch' => if epoch' = epoch then none else last
  | .analysis .. => last

def analyzed? (epoch : Nat) (id : String) (last : Option (Record × Schema)) :
    Happening → Option (Record × Schema)
  | .analysis epoch' r schema => if epoch' = epoch ∧ r.id = id then some (r, schema) else last
  | .put .. | .clear _ => last

end Happening

theorem Event.epoch_of_mem_happenings {schemaOf : Nat → Schema} {v : Event} {x : Happening}
    (hx : x ∈ v.happenings schemaOf) : x.epoch = v.epoch := by
  rw [Event.happenings] at hx
  split at hx
  next =>
    rw [List.mem_singleton.1 hx]
    rfl
  next => cases hx
  next => cases hx

open Happening

def lastPut? (epoch : Nat) (id : String) (h : List Happening) : Option Record :=
  h.foldl (put? epoch id) none

def lastAnalyzed? (epoch : Nat) (id : String) (h : List Happening) : Option (Record × Schema) :=
  h.foldl (analyzed? epoch id) none

section

variable {epoch : Nat} {id : String}

theorem lastPut?_append (g h : List Happening) :
    lastPut? epoch id (g ++ h) = h.foldl (put? epoch id) (lastPut? epoch id g) :=
  List.foldl_append ..

theorem lastAnalyzed?_append (g h : List Happening) :
    lastAnalyzed? epoch id (g ++ h) = h.foldl (analyzed? epoch id) (lastAnalyzed? epoch id g) :=
  List.foldl_append ..

theorem foldl_put?_puts (epoch' : Nat) (last : Option Record) (records : List Record) :
    (records.map (.put epoch')).foldl (put? epoch id) last =
      if epoch' = epoch then latest id last records else last := by
  induction records generalizing last with
  | nil => simp [latest]
  | cons r rest ih =>
    rw [List.map_cons, List.foldl_cons, ih]
    by_cases he : epoch' = epoch <;> simp [he, put?, latest]

theorem foldl_analyzed?_puts (epoch' : Nat) (last : Option (Record × Schema))
    (records : List Record) :
    (records.map (.put epoch')).foldl (analyzed? epoch id) last = last := by
  induction records generalizing last with
  | nil => rfl
  | cons r rest ih => exact ih last

theorem foldl_put?_happenings (schemaOf : Nat → Schema) (v : Event) (last : Option Record) :
    (v.happenings schemaOf).foldl (put? epoch id) last = last := by
  rw [Event.happenings]
  cases v.change <;> rfl

theorem foldl_analyzed?_happenings (schemaOf : Nat → Schema) (v : Event)
    (last : Option (Record × Schema)) :
    (v.happenings schemaOf).foldl (analyzed? epoch id) last =
      match v.change with
      | .upsert r => if v.epoch = epoch ∧ r.id = id then some (r, schemaOf v.epoch) else last
      | .tombstone _ | .clear => last := by
  rw [Event.happenings]
  cases v.change <;> rfl

variable {h : List Happening}

theorem lastPut?_eq_none (hh : ∀ x ∈ h, x.epoch ≠ epoch) : lastPut? epoch id h = none := by
  rw [lastPut?]
  induction h with
  | nil => rfl
  | cons x rest ih =>
    have hx : x.put? epoch id none = none := by
      have hne := hh x (.head _)
      cases x <;> simp_all [put?, Happening.epoch]
    rw [List.foldl_cons, hx, ih fun y hy => hh y (.tail _ hy)]

end

end Corpus
