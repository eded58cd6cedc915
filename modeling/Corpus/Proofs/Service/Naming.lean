import Corpus.Proofs.Service.History

/-! Every record that is put has an identity that is not empty, whether it came with one or not. -/

namespace Corpus

theorem Digest.Uuid.written_ne (bytes : List UInt8) : written bytes ≠ "" := by
  intro h
  have hlist := congrArg String.toList h
  rw [written, String.toList_intercalate] at hlist
  simp [List.intercalate_cons_cons] at hlist

theorem Digest.Uuid.ofName_ne (space name : List UInt8) : ofName space name ≠ "" := by
  rw [ofName]
  exact written_ne _

theorem Digest.Uuid.numbered_ne (n : Nat) : numbered n ≠ "" := by
  rw [numbered]
  exact written_ne _

theorem Identity.ne_of_given {schema : Schema} {r : Record} {id : String}
    (h : ofRecord schema r = .ok (.given id)) : id ≠ "" := by
  rw [ofRecord] at h
  split at h
  next hr =>
    cases h
    exact hr
  next =>
    split at h
    next => cases h
    next =>
      obtain ⟨text, -, hid⟩ := map_eq_ok.1 h
      rw [← Identity.given.inj hid]
      exact Digest.Uuid.ofName_ne _ _

def Happening.Identified : Happening → Prop
  | .put _ r => r.id ≠ ""
  | .clear _ | .analysis .. => True

namespace Service

open Corpus.Action

variable {s : Service} {t : Table}

theorem id_ne_of_identify {r r' : Record} (h : ((identify t r).perform s).1 = .ok r') : r'.id ≠ "" := by
  cases hid : Identity.ofRecord t.schema r with
  | error e =>
    rw [perform_identify_error hid] at h
    cases h
  | ok identity =>
    cases identity with
    | given id =>
      rw [perform_identify_given hid] at h
      cases h
      exact Identity.ne_of_given hid
    | fresh =>
      rw [perform_identify_fresh hid] at h
      rw [← Except.ok.inj h]
      exact Digest.Uuid.numbered_ne s.identities

theorem id_ne_of_identifyAll {records named : List (Record × Nat)}
    (h : ((identifyAll t records).perform s).1 = .ok named) : ∀ a ∈ named, a.1.id ≠ "" := by
  induction records generalizing s named with
  | nil =>
    cases h
    exact nofun
  | cons a rest ih =>
    obtain ⟨r, place⟩ := a
    have hone (r' : Record) := @id_ne_of_identify s t r r'
    rw [perform_identifyAll_cons] at h
    generalize (identify t r).perform s = p at h hone
    obtain ⟨answer, s'⟩ := p
    cases answer with
    | error e => cases h
    | ok r' =>
      obtain ⟨later, hlater, rfl⟩ := map_eq_ok.1 h
      exact List.forall_mem_cons.2 ⟨hone r' rfl, ih hlater⟩

theorem identified_batch (t : Table) (records : List (Record × Nat)) (s : Service) :
    ∀ x ∈ batchHappenings t records s, x.Identified := by
  have hnamed (named : List (Record × Nat)) := @id_ne_of_identifyAll s t records named
  rw [batchHappenings]
  split
  next named _ _ _ hi _ =>
    rw [hi] at hnamed
    intro x hx
    rw [List.map_map] at hx
    obtain ⟨a, ha, rfl⟩ := List.mem_map.1 hx
    exact hnamed named rfl a ha
  next =>
    intro x hx
    cases hx

theorem identified_put (records : List Record) (tables : List Table) (s : Service) :
    ∀ x ∈ putHappenings records tables s, x.Identified := by
  induction tables generalizing s with
  | nil =>
    intro x hx
    cases hx
  | cons t rest ih =>
    rw [putHappenings]
    refine List.forall_mem_append.2 ⟨identified_batch t _ s, ?_⟩
    split
    next => exact ih _
    next =>
      intro x hx
      cases hx

theorem identified_move (m : Move) (s : Service) : ∀ x ∈ m.happenings s, x.Identified := by
  intro x hx
  cases m with
  | work limit shard =>
    obtain ⟨v, -, hx⟩ := List.mem_flatMap.1 hx
    rw [Event.happenings] at hx
    split at hx
    next => rw [List.mem_singleton.1 hx]; trivial
    next => cases hx
    next => cases hx
  | ask r =>
    rw [Move.happenings, Request.happenings.eq_def] at hx
    split at hx
    next =>
      split at hx
      next => exact identified_put _ _ _ x hx
      next => cases hx
    next =>
      split at hx
      next => rw [List.mem_singleton.1 hx]; trivial
      next => cases hx
    next => cases hx

theorem identified_history (s : Service) (moves : List Move) :
    ∀ x ∈ s.history moves, x.Identified := by
  induction moves generalizing s with
  | nil => exact nofun
  | cons m rest ih => exact List.forall_mem_append.2 ⟨identified_move m s, ih (m.apply s)⟩

end Service

end Corpus
