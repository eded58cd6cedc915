import Corpus.Proofs.Access.Gate
import Corpus.Proofs.Service.Agreement
import Corpus.Proofs.Store.Group
import Corpus.Proofs.Store.Reading

/-! Reading behind a gate.  A group is a value, and is read for anyone who has it: what is read is what the
group says, and groups are handed out only to those who may read records. -/

namespace Corpus

namespace Service

open Corpus.Action

variable {s : Service}

theorem perform_read (g : RecordGroup) (s : Service) :
    (read g).perform s = (if s.destroyed then .error .closed else s.store.read g, s) := by
  rw [read, perform_bind, perform_ensureOpen]
  cases s.destroyed <;> rfl

theorem perform_of_destroyed (h : s.destroyed = true) (r : Request) :
    r.run.perform s = (.error .closed, s) := by
  cases r <;> simp [Request.run, h, createTable, dropTable, tableExists, tables, getSchema, setSchema,
    put, planTimes, planIds, count, deleteTimes, deleteIds, search, searchCount, drillSearch,
    drillCount, drillRanges, drillCategories, clearIndex]

/-- A service that has come to its end, or is as all that happened says. -/
def Honest (s : Service) : Prop := s.destroyed = true ∨ ∃ g, s.Kept g

theorem Honest.steps {u : Service} {g : List Happening} (h : s.Honest) (hs : s.Sound → Steps s g u)
    (hd : s.destroyed = true → u.destroyed = true) : u.Honest := by
  rcases h with h | ⟨_, h⟩
  · exact .inl (hd h)
  · exact .inr ⟨_, h.steps (hs h.sound)⟩

theorem Honest.work (h : s.Honest) (limit shard : Nat) :
    Honest { s with indexer := s.indexer.step s.analyzers limit shard } :=
  h.steps (fun _ => steps_work s limit shard) id

theorem Honest.settle (h : s.Honest) : s.settle.Honest := by
  obtain ⟨batches, hb⟩ := s.exists_after_eq_settle
  rw [hb]
  clear hb
  induction batches generalizing s with
  | nil => exact h
  | cons batch rest ih => exact ih (h.work batch.1 batch.2)

theorem Honest.call (h : s.Honest) (c : Call) : (c.run.perform s).2.Honest := by
  cases c with
  | request r =>
    rw [Call.run, perform_map]
    refine h.steps (fun hs => steps_ask hs r) fun hd => ?_
    rw [perform_of_destroyed hd]
    exact hd
  | read g =>
    rw [Call.run, perform_map, perform_read]
    exact h
  | windows => exact h
  | wait =>
    rw [Call.run, snd_perform_bind_pure, wait, perform_bind, perform_ensureOpen]
    cases s.destroyed with
    | true => exact h
    | false => exact h.settle
  | stats =>
    have hstill : Still stats := still_ensureOpen.bind fun _ => Still.get.bind fun _ => .pure _
    rw [Call.run, perform_map, hstill]
    exact h
  | destroy =>
    rw [Call.run, snd_perform_bind_pure, destroy, perform_bind, perform_get]
    by_cases hd : s.destroyed = true
    · simpa [hd] using h
    · simp [hd, Honest]

theorem Honest.serve {κ : Type} {run : κ → Action Reply}
    (hrun : ∀ c {s : Service}, s.Honest → ((run c).perform s).2.Honest) (h : s.Honest)
    (turns : List (Turn κ)) : (s.serve run turns).2.Honest := by
  induction turns generalizing s with
  | nil => exact h
  | cons turn rest ih =>
    cases turn with
    | work limit shard => exact ih (h.work limit shard)
    | call c =>
      rw [serve_call]
      exact ih (hrun c h)

end Service

namespace Gate

open Service

variable {gate : Gate} {user : String}

theorem honest_call {s : Service} (h : s.Honest) (c : Call) :
    ((gate.call user c).perform s).2.Honest := by
  cases hp : gate.permits user c with
  | true =>
    rw [call_of_permits hp]
    exact h.call c
  | false =>
    obtain ⟨_, -, he⟩ := exists_of_not_permits hp s
    rw [he]
    exact h

end Gate

def Response.planned : Response → List RecordGroup
  | .groups list => list
  | _ => []

theorem Request.permission_of_mem_planned {r : Request} {s : Service} {response : Response}
    {g : RecordGroup} (h : (r.run.perform s).1 = .ok response) (hg : g ∈ response.planned) :
    r.permission = .getRecord := by
  have other {α : Type} {a : Action α} {f : α → Response} (hf : ∀ x, (f x).planned = [])
      (h : (Action.perform (f <$> a) s).1 = .ok response) : False := by
    rw [Action.perform_map] at h
    obtain ⟨x, -, rfl⟩ := map_eq_ok.1 h
    rw [hf] at hg
    cases hg
  cases r with
  | planTimes | planIds | count => rfl
  | tableExists | tables | getSchema | put | search | searchCount | drillSearch | drillCount
  | drillRanges | drillCategories => exact (other (fun _ => rfl) h).elim
  | createTable | dropTable | setSchema | deleteTimes | deleteIds | clearIndex =>
    rw [Request.run, bind_pure_comp] at h
    exact (other (fun _ => rfl) h).elim

def groupsOf : (String × Call) × Except Error Reply → List RecordGroup
  | ((_, .request _), .ok (.response response)) => response.planned
  | _ => []

def HandedOut (answers : List ((String × Call) × Except Error Reply)) (user : String)
    (g : RecordGroup) : Prop :=
  ∃ a ∈ answers, a.1.1 = user ∧ g ∈ groupsOf a

instance (answers : List ((String × Call) × Except Error Reply)) (user : String) (g : RecordGroup) :
    Decidable (HandedOut answers user g) :=
  inferInstanceAs (Decidable (∃ a ∈ answers, _))

/-- A group that was handed out, or that arrived as the bytes of one that was. -/
def Genuine (answers : List ((String × Call) × Except Error Reply)) (g : RecordGroup) : Prop :=
  ∃ user sent, HandedOut answers user sent ∧
    (g = sent ∨ sent.Fits ∧ ∃ bytes, sent.toBytes <+: bytes ∧ RecordGroup.ofBytes bytes = .ok g)

theorem exists_of_mem_groupsOf {a : (String × Call) × Except Error Reply} {g : RecordGroup}
    (h : g ∈ groupsOf a) :
    ∃ user r response, a = ((user, .request r), .ok (.response response)) ∧
      g ∈ response.planned := by
  rw [groupsOf.eq_def] at h
  split at h
  next user r response => exact ⟨user, r, response, rfl, h⟩
  next => cases h

theorem RecordGroup.eq_of_toBytes_prefix {sent g : RecordGroup} {bytes : List UInt8} (h : sent.Fits)
    (hb : sent.toBytes <+: bytes) (hg : ofBytes bytes = .ok g) : g = sent := by
  have hsent := ofBytes_eq_ok_iff.2 ⟨h, hb⟩
  rw [hg] at hsent
  cases hsent
  rfl

namespace Gate

open Service

variable {gate : Gate} {user : String}

theorem grants_of_handedOut {s : Service} {turns : List (Turn (String × Call))} {g : RecordGroup}
    (h : HandedOut (gate.serve s turns).1 user g) : gate user .getRecord = true := by
  obtain ⟨a, hm, rfl, hg⟩ := h
  obtain ⟨user, r, response, rfl, hresponse⟩ := exists_of_mem_groupsOf hg
  obtain ⟨before, _, -, ha⟩ := Gate.exists_of_mem_serve hm
  cases hp : gate.permits user (.request r) with
  | false =>
    obtain ⟨_, -, he⟩ := exists_of_not_permits hp (gate.serve s before).2
    rw [he] at ha
    cases ha
  | true =>
    rw [call_of_permits hp, Call.run, Action.perform_map] at ha
    obtain ⟨_, hr, he⟩ := map_eq_ok.1 ha.symm
    cases he
    rw [← Request.permission_of_mem_planned hr hresponse]
    exact hp

theorem perform_call_read (gate : Gate) (reader : String) (g : RecordGroup) (s : Service) :
    ((gate.call reader (.read g)).perform s).1 =
      if s.destroyed then .error .closed else (s.store.read g).map .records := by
  rw [call_of_permits rfl, Call.run, Action.perform_map, perform_read]
  cases s.destroyed <;> rfl

/-- What a group reads is stored in its table; a genuine one was handed out to someone who may read. -/
theorem reads_of_genuine {config : Config} {windows : Bool} {s : Service}
    (hs : Service.start config windows = .ok s) (turns : List (Turn (String × Call)))
    {reader : String} {g : RecordGroup} {records : List Record}
    (h : ((gate.call reader (.read g)).perform (gate.serve s turns).2).1 = .ok (.records records)) :
    (∀ r ∈ records, ∃ stored, (gate.serve s turns).2.store.Selects g stored ∧
      r = stored.project g.columns) ∧
    (Genuine (gate.serve s turns).1 g → ∃ user, gate user .getRecord = true ∧
      HandedOut (gate.serve s turns).1 user g) := by
  constructor
  · have honest : (gate.serve s turns).2.Honest :=
      Honest.serve (fun c _ h => honest_call h c.2) (.inr ⟨_, Kept.start hs⟩) turns
    rw [perform_call_read] at h
    rcases honest with hd | ⟨_, hkept⟩
    · rw [if_pos hd] at h
      cases h
    · rw [hkept.sound.alive, if_neg Bool.false_ne_true] at h
      obtain ⟨_, hread, hrecords⟩ := map_eq_ok.1 h
      cases hrecords
      exact hkept.store.exists_selects hread
  · rintro ⟨user, sent, hsent, rfl | ⟨hfits, bytes, hb, hg⟩⟩
    · exact ⟨user, grants_of_handedOut hsent, hsent⟩
    · obtain rfl := RecordGroup.eq_of_toBytes_prefix hfits hb hg
      exact ⟨user, grants_of_handedOut hsent, hsent⟩

theorem perform_call_read_of_alive {s : Service} {g : RecordGroup} {records : List Record}
    (hs : s.destroyed = false) (hr : (s.store.read g).toOption = some records) :
    ((gate.call user (.read g)).perform s).1 = .ok (.records records) := by
  rw [perform_call_read, hs, eq_ok_of_toOption hr]
  rfl

def twoUsers : Gate := ofGrants [("writer", [.createTable, .putRecord]), ("reader", [.getRecord])]

def writerOnly : Gate := ofGrants [("writer", [.createTable, .putRecord])]

def oneRecord : List (Turn (String × Call)) :=
  [.call ("writer", .request (.createTable "t")),
    .call ("writer", .request (.put [⟨"1", "t", 5, .empty⟩])),
    .call ("reader", .request (.planTimes "t" 1 none timeMin timeMax 0 none))]

def allRecords : RecordGroup := ⟨"t", [0], none, .times timeMin timeMax 0 none⟩

def onePartition : Config := { Config.standard with indexShards := 1, storePartitions := 1 }

theorem reads_of_genuine_allRecords : ∃ s : Service, Service.start onePartition true = .ok s ∧
    (∀ r ∈ [(⟨"1", "t", 5, .empty⟩ : Record)], ∃ stored,
      (twoUsers.serve s oneRecord).2.store.Selects allRecords stored ∧ r = stored.project none) ∧
    ∃ user, twoUsers user .getRecord = true ∧
      HandedOut (twoUsers.serve s oneRecord).1 user allRecords := by
  have hrun : (Service.start onePartition true).toOption.any fun s =>
      decide (HandedOut (twoUsers.serve s oneRecord).1 "reader" allRecords ∧
        (twoUsers.serve s oneRecord).2.destroyed = false ∧
        ((twoUsers.serve s oneRecord).2.store.read allRecords).toOption =
          some [⟨"1", "t", 5, .empty⟩]) := by
    decide +kernel
  cases hs : Service.start onePartition true with
  | error e => rw [hs] at hrun; cases hrun
  | ok s =>
    rw [hs] at hrun
    obtain ⟨hgot, halive, hread⟩ := of_decide_eq_true hrun
    have hanswer : ((twoUsers.call "reader" (.read allRecords)).perform
        (twoUsers.serve s oneRecord).2).1 = .ok (.records [⟨"1", "t", 5, .empty⟩]) :=
      perform_call_read_of_alive halive hread
    obtain ⟨hselected, huser⟩ := reads_of_genuine hs oneRecord hanswer
    exact ⟨s, rfl, hselected, huser ⟨"reader", allRecords, hgot, .inl rfl⟩⟩

/-- Who makes up a group reads its records without any permission. -/
theorem reads_of_nobody : ∃ s : Service, Service.start onePartition true = .ok s ∧
    (∀ user, writerOnly user .getRecord = false) ∧
    (∀ user g, ¬HandedOut (writerOnly.serve s oneRecord).1 user g) ∧
    ((writerOnly.call "nobody" (.read allRecords)).perform (writerOnly.serve s oneRecord).2).1 =
      .ok (.records [⟨"1", "t", 5, .empty⟩]) := by
  have hdenied (user : String) : writerOnly user .getRecord = false := by
    refine Bool.eq_false_iff.2 fun h => ?_
    obtain ⟨permissions, hm, hp⟩ := (ofGrants_iff _ user .getRecord).1 h
    cases List.mem_singleton.1 hm
    revert hp
    decide
  have hrun : (Service.start onePartition true).toOption.any fun s =>
      decide ((writerOnly.serve s oneRecord).2.destroyed = false ∧
        ((writerOnly.serve s oneRecord).2.store.read allRecords).toOption =
          some [⟨"1", "t", 5, .empty⟩]) := by
    decide +kernel
  cases hs : Service.start onePartition true with
  | error e => rw [hs] at hrun; cases hrun
  | ok s =>
    rw [hs] at hrun
    obtain ⟨halive, hread⟩ := of_decide_eq_true hrun
    refine ⟨s, rfl, hdenied, fun user g h => ?_, perform_call_read_of_alive halive hread⟩
    exact Bool.false_ne_true ((hdenied user).symm.trans (grants_of_handedOut h))

end Gate

end Corpus
