import Corpus.Access.Call
import Corpus.Proofs.Access.Undenied
import Corpus.Proofs.Service.Records

/-! A gate is exact: requests fail for want of a permission where the gate says so and nowhere else, and
what is denied leaves no trace in the service. -/

namespace Corpus

namespace Action

variable {α β : Type}

def Ungated (a : Action α) : Prop := ∀ s, Undenied (a.perform s).1

namespace Ungated

theorem pure (a : α) : Ungated (Pure.pure a) := fun _ => .ok a

theorem throw {e : Error} (he : decide (e.kind = .unauthorized) = false) :
    Ungated (MonadExcept.throw e : Action α) := fun _ => .error he

theorem lift {x : Except Error α} (hx : Undenied x) : Ungated (liftM x) := fun _ => hx

theorem change (f : Service → Service) : Ungated (modify f) := fun _ => .ok ()

theorem bind {a : Action α} {f : α → Action β} (ha : Ungated a) (hf : ∀ x, Ungated (f x)) :
    Ungated (a >>= f) := by
  intro s
  have hs := ha s
  rw [perform_bind]
  generalize a.perform s = p at hs
  obtain ⟨answer, s'⟩ := p
  cases answer with
  | error e => exact .error (decide_eq_false (hs e rfl))
  | ok x => exact hf x s'

theorem get {f : Service → Action β} (hf : ∀ s, Ungated (f s)) : Ungated (MonadState.get >>= f) :=
  fun s => hf s s

theorem attempt {x : Except Error α} {f : α → Action β} (hx : Undenied x)
    (hf : ∀ a, Ungated (f a)) : Ungated (liftM x >>= f) := (lift hx).bind hf

theorem changed {g : Service → Service} {f : Unit → Action β} (hf : Ungated (f ())) :
    Ungated (modify g >>= f) := (change g).bind fun _ => hf

theorem map {a : Action α} (ha : Ungated a) (f : α → β) : Ungated (f <$> a) := by
  rw [← bind_pure_comp]
  exact ha.bind fun _ => .pure _

theorem mapM {f : α → Action β} (hf : ∀ x, Ungated (f x)) (l : List α) : Ungated (l.mapM f) := by
  induction l with
  | nil => exact .pure []
  | cons x rest ih =>
    rw [List.mapM_cons]
    exact (hf x).bind fun _ => ih.bind fun _ => .pure _

end Ungated

end Action

namespace Turn

variable {κ : Type}

def call? : Turn κ → Option κ
  | .call c => some c
  | .work .. => none

def next (run : κ → Action Reply) (s : Service) : Turn κ → Service
  | .call c => ((run c).perform s).2
  | .work limit shard => { s with indexer := s.indexer.step s.analyzers limit shard }

end Turn

namespace Service

open Corpus.Action

theorem ungated_ensureOpen : ensureOpen.Ungated := .get fun s => by
  split
  next => exact .throw rfl
  next => exact .pure ()

theorem ungated_view {α : Type} {f : Service → Action α} (hf : ∀ s, (f s).Ungated) :
    Ungated (ensureOpen >>= fun _ => MonadState.get >>= f) :=
  ungated_ensureOpen.bind fun _ => .get hf

theorem ungated_sendAll (t : Table) (changes : List Change) : (sendAll t changes).Ungated :=
  .get fun s => .attempt (s.indexer.queues.undenied_sendAll t changes) fun _ => .change _

theorem ungated_createTable (table : String) : (createTable table).Ungated :=
  ungated_view fun s => .attempt (s.store.undenied_create _) fun _ =>
    .changed <| .get fun _ => .change _

theorem ungated_dropTable (table : String) : (dropTable table).Ungated := by
  refine ungated_view fun s => ?_
  split
  next => exact .pure ()
  next t _ =>
    exact .get fun s => .attempt (s.store.undenied_drop t.name) fun _ =>
      .changed <| .get fun _ => .changed <| .change _

theorem ungated_setSchema (table : String) (schema : Schema) : (setSchema table schema).Ungated :=
  ungated_view fun s => .attempt (s.catalog.undenied_setSchema table schema) fun _ =>
    .changed <| .change _

theorem ungated_clearIndex (table : String) : (clearIndex table).Ungated := by
  refine ungated_view fun s => ?_
  split
  next => exact .pure ()
  next t _ => exact (ungated_sendAll t _).bind fun _ => .change _

theorem ungated_identify (t : Table) (r : Record) : (identify t r).Ungated := by
  refine .attempt (Identity.undenied_ofRecord t.schema r) fun identity => ?_
  cases identity with
  | given id => exact .pure _
  | fresh => exact .get fun _ => .changed <| .pure _

theorem ungated_putBatch (t : Table) (records : List (Record × Nat)) :
    (putBatch t records).Ungated := by
  have identified := Ungated.mapM (fun p : Record × Nat =>
    (ungated_identify t p.1).bind fun r => .pure (r, p.2)) records
  exact .attempt (Catalog.undenied_ensureLive t) fun _ => identified.bind fun _ => .get fun s =>
    .attempt (s.store.undenied_put t.name _) fun _ => .changed <|
      (ungated_sendAll t _).bind fun _ => .pure _

theorem ungated_put (records : List Record) : (put records).Ungated :=
  ungated_view fun s => .attempt (.mapM s.catalog.undenied_require _) fun tables =>
    (Ungated.mapM (fun t => ungated_putBatch t _) tables).bind fun _ => .pure _

theorem ungated_deleteBy {delete : Store → String → Except Error (List String × Store)}
    (hd : ∀ store name, Undenied (delete store name)) (table : String) :
    (deleteBy delete table).Ungated :=
  ungated_view fun s => .attempt (s.catalog.undenied_require table) fun t =>
    .attempt (Catalog.undenied_ensureLive t) fun _ => .get fun s =>
      .attempt (hd s.store t.name) fun _ => .changed <| ungated_sendAll t _

theorem ungated_ask {α : Type} {f : Store → String → Except Error α}
    (hf : ∀ store name, Undenied (f store name)) (table : String) :
    Ungated (ensureOpen >>= fun _ => MonadState.get >>= fun s =>
      liftM (s.catalog.require table) >>= fun t => MonadState.get >>= fun s =>
        liftM (f s.store t.name)) :=
  ungated_view fun s => .attempt (s.catalog.undenied_require table) fun t =>
    .get fun s => .lift (hf s.store t.name)

theorem ungated_window (p : Option Prepared) (start count : Nat) :
    (window p start count).Ungated := by
  cases p with
  | none => exact .pure []
  | some p => exact .get fun s => .changed <| .lift (p.undenied_window start count s.cache)

theorem ungated_countMatches (p : Option Prepared) : (countMatches p).Ungated := by
  cases p with
  | none => exact .pure 0
  | some p => exact .lift p.undenied_count

theorem ungated_run (r : Request) : r.run.Ungated := by
  cases r with
  | createTable table => exact (ungated_createTable table).bind fun _ => .pure _
  | dropTable table => exact (ungated_dropTable table).bind fun _ => .pure _
  | tableExists table => exact (ungated_view fun _ => .pure _).map _
  | tables => exact (ungated_view fun _ => .pure _).map _
  | getSchema table =>
    exact (ungated_view fun s =>
      .attempt (s.catalog.undenied_require table) fun _ => .pure _).map _
  | setSchema table schema => exact (ungated_setSchema table schema).bind fun _ => .pure _
  | put records => exact (ungated_put records).map _
  | planTimes table hint columns lower upper offset limit =>
    exact (ungated_ask (fun store name =>
      store.undenied_planTimes name hint columns lower upper offset limit) table).map _
  | planIds table hint columns ids =>
    exact (ungated_ask (fun store name => store.undenied_planIds name hint columns ids) table).map _
  | count table lower upper =>
    exact (ungated_ask (fun store name => store.undenied_count name lower upper) table).map _
  | deleteTimes table lower upper =>
    exact (ungated_deleteBy (fun store name => store.undenied_deleteTimes name lower upper)
      table).bind fun _ => .pure _
  | deleteIds table ids =>
    exact (ungated_deleteBy (fun store name => store.undenied_deleteIds name ids) table).bind
      fun _ => .pure _
  | search table query start limit =>
    exact (ungated_view fun s =>
      .attempt (Prepared.undenied_prepare s.catalog s.analyzers table query) fun p =>
        ungated_window p start limit).map _
  | searchCount table query =>
    exact (ungated_view fun s =>
      .attempt (Prepared.undenied_prepare s.catalog s.analyzers table query)
        ungated_countMatches).map _
  | drillSearch d =>
    exact (ungated_view fun s =>
      .attempt (d.undenied_prepare s.catalog s.analyzers true) fun p =>
        ungated_window p d.start d.count).map _
  | drillCount d =>
    exact (ungated_view fun s =>
      .attempt (d.undenied_prepare s.catalog s.analyzers true) ungated_countMatches).map _
  | drillRanges d =>
    exact (ungated_view fun s => .lift (d.undenied_ranges s.catalog s.analyzers)).map _
  | drillCategories d =>
    exact (ungated_view fun s => .lift (d.undenied_run s.catalog s.analyzers)).map _
  | clearIndex table => exact (ungated_clearIndex table).bind fun _ => .pure _

section Runs

variable {κ : Type} {run : κ → Action Reply}

theorem serve_call (run : κ → Action Reply) (s : Service) (c : κ) (rest : List (Turn κ)) :
    s.serve run (.call c :: rest) =
      ((c, ((run c).perform s).1) :: (((run c).perform s).2.serve run rest).1,
        (((run c).perform s).2.serve run rest).2) := rfl

theorem serve_append (s : Service) (before after : List (Turn κ)) :
    s.serve run (before ++ after) =
      ((s.serve run before).1 ++ ((s.serve run before).2.serve run after).1,
        ((s.serve run before).2.serve run after).2) := by
  induction before generalizing s with
  | nil => rfl
  | cons turn rest ih =>
    cases turn with
    | work limit shard => exact ih _
    | call c => rw [List.cons_append, serve_call, serve_call, ih, List.cons_append]

theorem snd_serve (run : κ → Action Reply) (s : Service) (turns : List (Turn κ)) :
    (s.serve run turns).2 = turns.foldl (Turn.next run) s := by
  induction turns generalizing s with
  | nil => rfl
  | cons turn rest ih => cases turn <;> exact ih _

theorem calls_serve (run : κ → Action Reply) (s : Service) (turns : List (Turn κ)) :
    (s.serve run turns).1.map Prod.fst = turns.filterMap Turn.call? := by
  induction turns generalizing s with
  | nil => rfl
  | cons turn rest ih =>
    cases turn with
    | work limit shard => exact ih _
    | call c => exact congrArg (c :: ·) (ih _)

theorem exists_serve_call (s : Service) (before : List (Turn κ)) (c : κ) (after : List (Turn κ)) :
    ∃ earlier later, earlier.map Prod.fst = before.filterMap Turn.call? ∧
      (s.serve run (before ++ .call c :: after)).1 =
        earlier ++ (c, ((run c).perform (before.foldl (Turn.next run) s)).1) :: later := by
  rw [serve_append, serve_call, snd_serve]
  exact ⟨_, _, calls_serve run s before, rfl⟩

theorem exists_of_mem_serve {s : Service} {turns : List (Turn κ)} {c : κ}
    {answer : Except Error Reply} (h : (c, answer) ∈ (s.serve run turns).1) :
    ∃ before after, turns = before ++ .call c :: after ∧
      answer = ((run c).perform (s.serve run before).2).1 := by
  induction turns generalizing s with
  | nil => cases h
  | cons turn rest ih =>
    cases turn with
    | work limit shard =>
      obtain ⟨before, after, rfl, ha⟩ := ih h
      exact ⟨.work limit shard :: before, after, rfl, ha⟩
    | call c' =>
      rw [serve_call] at h
      cases h with
      | head => exact ⟨[], rest, rfl, rfl⟩
      | tail _ h =>
        obtain ⟨before, after, rfl, ha⟩ := ih h
        exact ⟨.call c' :: before, after, rfl, ha⟩

end Runs

end Service

/-- An answer that fails for want of a permission. -/
def Denied (answer : Except Error Reply) : Prop := ∃ e, answer = .error e ∧ e.kind = .unauthorized

namespace Gate

open Service

variable (gate : Gate)

def serve (s : Service) (turns : List (Turn (String × Call))) :
    List ((String × Call) × Except Error Reply) × Service :=
  s.serve (fun (user, c) => gate.call user c) turns

def next : Service → Turn (String × Call) → Service := Turn.next fun (user, c) => gate.call user c

/-- What is left of a run without the calls that are denied and without the users. -/
def permitted (turns : List (Turn (String × Call))) : List (Turn Call) :=
  turns.filterMap fun
    | .call (user, c) => if gate.permits user c then some (.call c) else none
    | .work limit shard => some (.work limit shard)

variable {gate} {user : String}

theorem call_of_permits {c : Call} (h : gate.permits user c = true) : gate.call user c = c.run := by
  cases c with
  | request r =>
    have hr : gate user r.permission = true := h
    rw [call, run, if_pos hr]
    rfl
  | _ => rfl

theorem exists_of_not_permits {c : Call} (h : gate.permits user c = false) (s : Service) :
    ∃ r, c = .request r ∧
      (gate.call user c).perform s = (.error (.denied user r.permission), s) := by
  cases c with
  | request r =>
    have hr : ¬gate user r.permission = true := Bool.eq_false_iff.1 h
    refine ⟨r, rfl, ?_⟩
    rw [call, run, if_neg hr, Action.perform_map, Action.perform_throw]
    rfl
  | read | windows | wait | stats | destroy => cases h

theorem denied_iff (s : Service) (r : Request) :
    Denied ((gate.call user (.request r)).perform s).1 ↔ gate user r.permission = false := by
  constructor
  · intro ⟨e, he, hkind⟩
    refine Bool.eq_false_iff.2 fun hp => ?_
    have hpermits : gate.permits user (.request r) = true := hp
    rw [call_of_permits hpermits] at he
    exact ((ungated_run r).map Reply.response) s e he hkind
  · intro hp
    obtain ⟨_, -, he⟩ := exists_of_not_permits (c := .request r) hp s
    exact ⟨_, congrArg Prod.fst he, rfl⟩

theorem eq_denied {s : Service} {r : Request}
    (h : Denied ((gate.call user (.request r)).perform s).1) :
    ((gate.call user (.request r)).perform s).1 = .error (.denied user r.permission) := by
  obtain ⟨_, hr, he⟩ := exists_of_not_permits (c := .request r) ((denied_iff s r).1 h) s
  cases hr
  exact congrArg Prod.fst he

theorem exists_of_mem_serve {s : Service} {turns : List (Turn (String × Call))} {c : Call}
    {answer : Except Error Reply} (h : ((user, c), answer) ∈ (gate.serve s turns).1) :
    ∃ before after, turns = before ++ .call (user, c) :: after ∧
      answer = ((gate.call user c).perform (gate.serve s before).2).1 :=
  Service.exists_of_mem_serve h

theorem serve_permitted (s : Service) (turns : List (Turn (String × Call))) :
    s.serve Call.run (gate.permitted turns) =
      (((gate.serve s turns).1.filter fun a => gate.permits a.1.1 a.1.2).map fun a => (a.1.2, a.2),
        (gate.serve s turns).2) := by
  induction turns generalizing s with
  | nil => rfl
  | cons turn rest ih =>
    cases turn with
    | work limit shard => exact ih _
    | call c =>
      obtain ⟨user, c⟩ := c
      rw [serve, permitted, List.filterMap_cons, serve_call]
      cases hp : gate.permits user c with
      | true =>
        have hrest := ih (c.run.perform s).2
        rw [permitted] at hrest
        simp only [hp, if_true, List.filter_cons, List.map_cons, call_of_permits hp, serve_call, hrest]
        rfl
      | false =>
        -- a denied call leaves the service as it is, for the rest of the run to go on from
        obtain ⟨_, -, he⟩ := exists_of_not_permits hp s
        simp only [hp, Bool.false_eq_true, if_false, List.filter_cons, he]
        exact ih s

end Gate

theorem Grants.gives_grant (g : Grants) (user : String) (permissions : List Permission)
    {user' : String} {permission : Permission} :
    (g.grant user permissions).gives user' permission ↔
      g.gives user' permission ∨ user = user' ∧ permission ∈ permissions := by
  rw [gives, gives, grant, Dict.get?_alter]
  by_cases hu : user' = user
  · subst hu
    cases g.get? user' <;> simp
  · simp [hu, Ne.symm hu]

theorem Gate.ofGrants_iff (grants : List (String × List Permission)) (user : String)
    (permission : Permission) :
    ofGrants grants user permission ↔
      ∃ permissions, (user, permissions) ∈ grants ∧ permission ∈ permissions := by
  have fold (g : Grants) :
      Grants.gives (grants.foldl (fun g grant => Grants.grant g grant.1 grant.2) g)
          user permission ↔
        g.gives user permission ∨
          ∃ permissions, (user, permissions) ∈ grants ∧ permission ∈ permissions := by
    induction grants generalizing g with
    | nil => simp
    | cons grant rest ih =>
      obtain ⟨name, permissions⟩ := grant
      rw [List.foldl_cons, ih, Grants.gives_grant, or_assoc]
      refine or_congr_right ?_
      constructor
      · rintro (⟨rfl, hp⟩ | ⟨ps, hm, hp⟩)
        · exact ⟨permissions, .head _, hp⟩
        · exact ⟨ps, .tail _ hm, hp⟩
      · rintro ⟨ps, hm, hp⟩
        cases hm with
        | head => exact .inl ⟨rfl, hp⟩
        | tail _ hm => exact .inr ⟨ps, hm, hp⟩
  exact (fold .empty).trans (or_iff_right nofun)

/-- A request fails for want of a permission just where the gate denies it, and leaves no trace then. -/
theorem Gate.serve_exact (gate : Gate) (s : Service) (turns : List (Turn (String × Call))) :
    (gate.serve s turns).2 = turns.foldl gate.next s ∧
    (gate.serve s turns).1.map Prod.fst = turns.filterMap Turn.call? ∧
    (∀ before user c after, ∃ earlier later, earlier.map Prod.fst = before.filterMap Turn.call? ∧
      (gate.serve s (before ++ .call (user, c) :: after)).1 = earlier ++
        ((user, c), ((gate.call user c).perform (before.foldl gate.next s)).1) :: later) ∧
    (∀ user r answer, ((user, .request r), answer) ∈ (gate.serve s turns).1 →
      (Denied answer ↔ gate user r.permission = false) ∧
      (Denied answer → answer = .error (.denied user r.permission))) ∧
    s.serve Call.run (gate.permitted turns) =
      (((gate.serve s turns).1.filter fun a => gate.permits a.1.1 a.1.2).map fun a => (a.1.2, a.2),
        (gate.serve s turns).2) ∧
    ∀ grants user permission, ofGrants grants user permission ↔
      ∃ permissions, (user, permissions) ∈ grants ∧ permission ∈ permissions := by
  refine ⟨Service.snd_serve _ s turns, Service.calls_serve _ s turns,
    fun before user c after => Service.exists_serve_call s before (user, c) after,
    fun user r answer ha => ?_, serve_permitted s turns, ofGrants_iff⟩
  obtain ⟨before, _, -, rfl⟩ := exists_of_mem_serve ha
  exact ⟨denied_iff _ r, eq_denied⟩

end Corpus
