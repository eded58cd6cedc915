import Corpus.Proofs.Service.Drilldown
import Corpus.Proofs.Service.Hidden

/-! Hidden columns are never seen: searches are answered the same after histories that differ in them alone,
at every moment if the indexers work alike, and otherwise once nothing waits. -/

namespace Corpus

open Corpus.Action

inductive Move.Alike (c : Catalog) : Move → Move → Prop
  | ask {r r' : Request} (h : r.Alike c r') : Alike c (.ask r) (.ask r')
  | work (limit shard : Nat) : Alike c (.work limit shard) (.work limit shard)

def Move.request? : Move → Option Request
  | .ask r => some r
  | .work .. => none

def asked (moves : List Move) : List Request := moves.filterMap Move.request?

theorem Indexer.Link.within {R : Indexer → Indexer → Prop} (hR : Link R) (c : Catalog) :
    Link fun x x' => R x x' ∧ c.SameTables x.catalog where
  tables h := hR.tables h.1
  accept h hv := ⟨hR.accept h.1 hv, h.2⟩

namespace Service

variable {R : Indexer → Indexer → Prop} {analyzers : Analyzers} {s s' : Service} {c : Catalog}

def Settled (s : Service) : Prop := ∀ events ∈ s.indexer.queues.waiting, events = []

theorem settled_settle (s : Service) : s.settle.Settled :=
  Indexer.nothing_waits_settle s.analyzers s.config.batchSize s.indexer

theorem Like.look (h : s.Like R analyzers s') (hs : s.Sound) (hs' : s'.Sound)
    (prepare : Service → Except Error (Option Prepared)) (hp : prepare s' = prepare s)
    (start count : Nat) :
    ((Service.look prepare start count).perform s).1 = ((Service.look prepare start count).perform s').1 ∧
      Like R analyzers ((Service.look prepare start count).perform s).2
        ((Service.look prepare start count).perform s').2 := by
  rw [perform_look hs, perform_look hs', hp]
  cases prepare s with
  | error e => exact ⟨rfl, h⟩
  | ok p =>
    cases p with
    | none => exact ⟨rfl, h⟩
    | some p =>
      dsimp only
      rw [h.cache]
      exact ⟨rfl, h.indexer, h.store, h.left, h.right, rfl⟩

theorem Like.ask_looks (h : s.Like R analyzers s') (hs : s.Sound) (hs' : s'.Sound)
    (hc : s'.catalog = s.catalog) {r : Request} (hr : r.looks) :
    (r.run.perform s).1 = (r.run.perform s').1 ∧ Like R analyzers (r.run.perform s).2 (r.run.perform s').2 := by
  cases r with
  | search table query start limit =>
    have hprepare : Prepared.prepare s'.catalog s'.analyzers table query =
        Prepared.prepare s.catalog s.analyzers table query := by rw [hc, h.left, h.right]
    have hlook := h.look hs hs' (fun s => Prepared.prepare s.catalog s.analyzers table query) hprepare
      start limit
    rw [Request.run, perform_map, perform_map]
    exact ⟨congrArg (Except.map Response.hits) hlook.1, hlook.2⟩
  | drillSearch d =>
    have hprepare : d.prepare s'.catalog s'.analyzers true = d.prepare s.catalog s.analyzers true := by
      rw [hc, h.left, h.right]
    have hlook := h.look hs hs' (fun s => d.prepare s.catalog s.analyzers true) hprepare d.start
      d.count
    rw [Request.run, perform_map, perform_map]
    exact ⟨congrArg (Except.map Response.hits) hlook.1, hlook.2⟩
  | _ => cases hr

theorem perform_consult (hs : s.Sound) {α : Type} (f : Service → Action α) :
    (ensureOpen >>= fun _ => get >>= f).perform s = (f s).perform s := by
  simp only [perform_bind, perform_ensureOpen, hs.alive, Bool.false_eq_true, if_false, perform_get]

theorem fst_perform_countMatches (prepared : Except Error (Option Prepared)) (s s' : Service) :
    ((liftM prepared >>= countMatches : Action Nat).perform s).1 =
      ((liftM prepared >>= countMatches : Action Nat).perform s').1 := by
  cases prepared with
  | error e => rfl
  | ok p => cases p <;> rfl

theorem Like.answer (h : s.Like R analyzers s') (hs : s.Sound) (hs' : s'.Sound)
    (hc : s'.catalog = s.catalog) {r : Request} (hr : r.searches) :
    (r.run.perform s).1 = (r.run.perform s').1 := by
  cases r with
  | search | drillSearch => exact (h.ask_looks hs hs' hc rfl).1
  | searchCount table query =>
    rw [Request.run, perform_map, perform_map, searchCount]
    simp only [perform_consult hs, perform_consult hs', hc, h.left, h.right]
    rw [fst_perform_countMatches _ s s']
  | drillCount d =>
    rw [Request.run, perform_map, perform_map, drillCount]
    simp only [perform_consult hs, perform_consult hs', hc, h.left, h.right]
    rw [fst_perform_countMatches _ s s']
  | drillRanges d =>
    rw [Request.run, perform_map, perform_map, drillRanges]
    simp only [perform_consult hs, perform_consult hs', hc, h.left, h.right, perform_lift]
  | drillCategories d =>
    rw [Request.run, perform_map, perform_map, drillCategories]
    simp only [perform_consult hs, perform_consult hs', hc, h.left, h.right, perform_lift]
  | _ => cases hr

theorem Like.after_alike (h : s.Like (fun x x' => x.Alike x' ∧ c.SameTables x.catalog) analyzers s')
    (hs : s.Sound) (hs' : s'.Sound) {moves moves' : List Move}
    (hm : List.Forall₂ (Move.Alike c) moves moves') :
    (s.after moves).Like (fun x x' => x.Alike x' ∧ c.SameTables x.catalog) analyzers
      (s'.after moves') ∧ (s.after moves).Sound ∧ (s'.after moves').Sound := by
  induction hm generalizing s s' with
  | nil => exact ⟨h, hs, hs'⟩
  | cons hmove _ ih =>
    cases hmove with
    | @ask r r' hr =>
      refine ih ?_ (hs.steps (steps_ask hs r)).1 (hs'.steps (steps_ask hs' r')).1
      cases hl : r.looks with
      | false => exact h.ask (Indexer.link_alike.within c) hs hs' (hr.of_sameTables h.indexer.2) hl
      | true =>
        cases hr with
        | put => cases hl
        | same => exact (h.ask_looks hs hs' h.indexer.1.catalog hl).2
    | work limit shard =>
      refine ih ⟨?_, h.store, h.left, h.right, h.cache⟩ (hs.steps (steps_work s limit shard)).1
        (hs'.steps (steps_work s' limit shard)).1
      have hbatch := h.indexer.1.step analyzers limit shard
      have htables := (Indexer.advanced_step analyzers s.indexer limit shard).sameTables
      rw [Move.apply, Move.apply, h.left, h.right]
      exact ⟨hbatch, h.indexer.2.trans htables⟩

theorem Like.after_works (h : s.Like (fun x x' => x.Agrees analyzers x' ∧ c.SameTables x.catalog) analyzers s')
    (hs' : s'.Sound) {moves : List Move} (hm : ∀ m ∈ moves, m.request? = none) :
    s.Like (fun x x' => x.Agrees analyzers x' ∧ c.SameTables x.catalog) analyzers (s'.after moves) ∧
      (s'.after moves).Sound := by
  induction moves generalizing s' with
  | nil => exact ⟨h, hs'⟩
  | cons m rest ih =>
    rw [List.forall_mem_cons] at hm
    cases m with
    | ask r => cases hm.1
    | work limit shard =>
      refine ih ⟨?_, h.store, h.left, h.right, h.cache⟩ (hs'.steps (steps_work s' limit shard)).1 hm.2
      rw [Move.apply, h.right]
      exact ⟨(h.indexer.1.symm.step limit shard).symm, h.indexer.2⟩

theorem Like.after_agrees
    (h : s.Like (fun x x' => x.Agrees analyzers x' ∧ c.SameTables x.catalog) analyzers s')
    (hs : s.Sound) (hs' : s'.Sound) {moves moves' : List Move}
    (hm : List.Forall₂ (Request.Alike c) (asked moves) (asked moves'))
    (hl : ∀ r ∈ asked moves, r.looks = false) :
    (s.after moves).Like (fun x x' => x.Agrees analyzers x' ∧ c.SameTables x.catalog) analyzers
      (s'.after moves') ∧ (s.after moves).Sound ∧ (s'.after moves').Sound := by
  induction moves generalizing s s' moves' with
  | nil =>
    have hworks : asked moves' = [] := List.forall₂_nil_left_iff.1 hm
    have hlast := h.after_works hs' (List.filterMap_eq_nil_iff.1 hworks)
    exact ⟨hlast.1, hs, hlast.2⟩
  | cons m rest ih =>
    cases m with
    | work limit shard =>
      refine ih (s := (Move.work limit shard).apply s) ⟨?_, h.store, h.left, h.right, h.cache⟩
        (hs.steps (steps_work s limit shard)).1 hs' hm hl
      have htables := (Indexer.advanced_step analyzers s.indexer limit shard).sameTables
      rw [Move.apply, h.left]
      exact ⟨h.indexer.1.step limit shard, h.indexer.2.trans htables⟩
    | ask r =>
      have hcons : asked (.ask r :: rest) = r :: asked rest := rfl
      rw [hcons, List.forall₂_cons_left_iff] at hm
      rw [hcons, List.forall_mem_cons] at hl
      obtain ⟨r', later, hr, hlater, heq⟩ := hm
      obtain ⟨works, m', rest', rfl, hworks, hask, rfl⟩ := List.filterMap_eq_cons_iff.1 heq
      obtain ⟨hlike, hsound⟩ := h.after_works hs' hworks
      cases m' with
      | work => cases hask
      | ask r'' =>
        cases hask
        have hafter : s'.after (works ++ .ask r' :: rest') =
            ((Move.ask r').apply (s'.after works)).after rest' := by
          rw [after, List.foldl_append]
          rfl
        rw [hafter]
        have hstep := hlike.ask ((Indexer.link_agrees analyzers).within c) hs hsound
          (hr.of_sameTables h.indexer.2) hl.1
        exact ih hstep (hs.steps (steps_ask hs r)).1 (hsound.steps (steps_ask hsound r')).1 hlater hl.2

theorem Sound.positive (hs : s.Sound) : 0 < s.indexer.queues.shards :=
  hs.indexer.shards ▸ hs.indexer.catalog.positive

theorem Sound.unseen (hs : s.Sound) {moves moves' : List Move}
    (hm : List.Forall₂ (Move.Alike s.catalog) moves moves') {r : Request} (hr : r.searches) :
    (r.run.perform (s.after moves)).1 = (r.run.perform (s.after moves')).1 := by
  have hlike : s.Like (fun x x' => x.Alike x' ∧ s.catalog.SameTables x.catalog) s.analyzers s :=
    ⟨⟨⟨rfl, rfl, hs.positive, fun _ => List.forall₂_same.2 fun v _ => ⟨rfl, rfl, .same _⟩⟩, .refl _⟩,
      rfl, rfl, rfl, rfl⟩
  obtain ⟨hafter, hsound, hsound'⟩ := hlike.after_alike hs hs hm
  exact hafter.answer hsound hsound' hafter.indexer.1.catalog hr

theorem Sound.unseen_settled (hs : s.Sound) {moves moves' : List Move}
    (hm : List.Forall₂ (Request.Alike s.catalog) (asked moves) (asked moves'))
    (hl : ∀ r ∈ asked moves, r.looks = false) (hsettled : (s.after moves).Settled)
    (hsettled' : (s.after moves').Settled) {r : Request} (hr : r.searches) :
    (r.run.perform (s.after moves)).1 = (r.run.perform (s.after moves')).1 := by
  obtain ⟨d, hd⟩ := s.indexer.exists_foresees s.analyzers
  have hlike : s.Like (fun x x' => x.Agrees s.analyzers x' ∧ s.catalog.SameTables x.catalog)
      s.analyzers s := ⟨⟨⟨rfl, hs.positive, d, hd, hd⟩, .refl _⟩, rfl, rfl, rfl, rfl⟩
  obtain ⟨hafter, hsound, hsound'⟩ := hlike.after_agrees hs hs hm hl
  obtain ⟨e, he, he'⟩ := hafter.indexer.1.foreseen
  have hcatalog : (s.after moves').catalog = (s.after moves).catalog :=
    (he'.eq_catalog hsettled').symm.trans (he.eq_catalog hsettled)
  exact hafter.answer hsound hsound' hcatalog hr

theorem Sound.exists_wait (hs : s.Sound) : ∃ works : List Move,
    wait.perform s = (.ok (), s.after works) ∧ (s.after works).Settled ∧ asked works = [] := by
  obtain ⟨batches, hb⟩ := s.exists_after_eq_settle
  refine ⟨batches.map fun batch => .work batch.1 batch.2, ?_, hb ▸ s.settled_settle, ?_⟩
  · rw [← hb, wait, perform_bind, perform_ensureOpen, if_neg (by simp [hs.alive])]
    rfl
  · rw [asked, List.filterMap_map]
    exact List.filterMap_eq_nil_iff.2 fun _ _ => rfl

/-- Histories that differ in hidden columns alone are not told apart by searches. -/
theorem unseen_after {config : Config} {windows : Bool} {s : Service}
    (h : Service.start config windows = .ok s) (setup moves moves' : List Move) :
    (List.Forall₂ (Move.Alike (s.after setup).catalog) moves moves' →
      ∀ r : Request, r.searches → (r.run.perform ((s.after setup).after moves)).1 =
        (r.run.perform ((s.after setup).after moves')).1) ∧
      (List.Forall₂ (Request.Alike (s.after setup).catalog) (asked moves) (asked moves') →
        (∀ r ∈ asked moves, r.looks = false) →
        (((s.after setup).after moves).Settled → ((s.after setup).after moves').Settled →
          ∀ r : Request, r.searches → (r.run.perform ((s.after setup).after moves)).1 =
            (r.run.perform ((s.after setup).after moves')).1) ∧
        ∀ r : Request, r.searches →
          (r.run.perform (wait.perform ((s.after setup).after moves)).2).1 =
            (r.run.perform (wait.perform ((s.after setup).after moves')).2).1) := by
  have hs : (s.after setup).Sound := ((Sound.start h).steps (steps_after (.start h) setup)).1
  generalize s.after setup = s at hs
  refine ⟨fun hm r => hs.unseen hm, fun hm hl =>
    ⟨fun hsettled hsettled' r => hs.unseen_settled hm hl hsettled hsettled', fun r hr => ?_⟩⟩
  obtain ⟨works, hwait, hsettled, hworks⟩ := (hs.steps (steps_after hs moves)).1.exists_wait
  obtain ⟨works', hwait', hsettled', hworks'⟩ := (hs.steps (steps_after hs moves')).1.exists_wait
  have hasked {moves works : List Move} (hw : asked works = []) : asked (moves ++ works) = asked moves := by
    rw [asked, List.filterMap_append, ← asked, ← asked, hw, List.append_nil]
  have happend (moves works : List Move) : (s.after moves).after works = s.after (moves ++ works) :=
    List.foldl_append.symm
  rw [happend] at hwait hwait' hsettled hsettled'
  rw [hwait, hwait']
  exact hs.unseen_settled ((hasked hworks).symm ▸ (hasked hworks').symm ▸ hm) ((hasked hworks).symm ▸ hl)
    hsettled hsettled' hr

def withHidden : List Move :=
  [.ask (.createTable "t"), .ask (.setSchema "t"
    ⟨[⟨"x", .string, true, false, none⟩, ⟨"y", .string, false, false, none⟩], []⟩)]

def withY (id value : String) : Record := ⟨id, "t", 0, .ofList [("x", .string "a"), ("y", .string value)]⟩

def putWithY (value : String) : Request := .put [withY "1" value, withY "2" value]

theorem alike_putWithY {c : Catalog} (h : (c.schemaOrEmpty "t").hides "y") (value value' : String) :
    (putWithY value).Alike c (putWithY value') := by
  have hrecord {id : String} (hid : id ≠ "") : AlikeIn c (withY id value) (withY id value') := by
    refine ⟨hid, rfl, rfl, rfl, fun name hn => ?_⟩
    have hy : name ≠ "y" := fun hy => Bool.false_ne_true (hn.symm.trans (hy ▸ h))
    simp [withY, Dict.ofList, hy]
  exact .put (.cons (hrecord (by decide)) (.cons (hrecord (by decide)) .nil))

theorem unseen_after_putWithY : ∃ s : Service, Service.start oneShard true = .ok s ∧
    ∀ moves ∈ [[.ask (putWithY "b"), .work 2 0], [.ask (putWithY "c"), .work 2 0],
        [.ask (putWithY "c"), .work 1 0, .work 1 0]],
      ((Request.searchCount "t" "a AND NOT b").run.perform ((s.after withHidden).after moves)).1 =
        .ok (.number 2) := by
  have hb : (Service.start oneShard true).toOption.any fun s =>
      ((s.after withHidden).catalog.schemaOrEmpty "t").hides "y" ∧
      ((searchCount "t" "a AND NOT b").perform
        ((s.after withHidden).after [.ask (putWithY "b"), .work 2 0])).1.toOption = some 2 ∧
      [[.ask (putWithY "b"), .work 2 0], [.ask (putWithY "c"), .work 1 0, .work 1 0]].all fun moves =>
        ((s.after withHidden).after moves).indexer.queues.waiting.all List.isEmpty := by
    decide +kernel
  cases hs : Service.start oneShard true with
  | error e => rw [hs] at hb; cases hb
  | ok s =>
    rw [hs, Except.toOption, Option.any_some] at hb
    obtain ⟨hhides, hanswer, hsettled⟩ := of_decide_eq_true hb
    have hput := alike_putWithY hhides "b" "c"
    have hfirst : ((Request.searchCount "t" "a AND NOT b").run.perform
        ((s.after withHidden).after [.ask (putWithY "b"), .work 2 0])).1 = .ok (.number 2) := by
      rw [Request.run, perform_map, eq_ok_of_toOption hanswer]
      rfl
    have hnone {moves : List Move} (h : moves ∈ [[.ask (putWithY "b"), .work 2 0],
        [.ask (putWithY "c"), .work 1 0, .work 1 0]]) : ((s.after withHidden).after moves).Settled :=
      fun events hevents => List.isEmpty_iff.1
        (List.all_eq_true.1 (List.all_eq_true.1 hsettled moves h) events hevents)
    have halike := (unseen_after hs withHidden [.ask (putWithY "b"), .work 2 0]
      [.ask (putWithY "c"), .work 2 0]).1 (.cons (.ask hput) (.cons (.work 2 0) .nil))
      (.searchCount "t" "a AND NOT b") rfl
    have hagrees := ((unseen_after hs withHidden [.ask (putWithY "b"), .work 2 0]
      [.ask (putWithY "c"), .work 1 0, .work 1 0]).2 (.cons hput .nil)
      (List.forall_mem_singleton.2 rfl)).1 (hnone (.head _)) (hnone (.tail _ (.head _)))
      (.searchCount "t" "a AND NOT b") rfl
    refine ⟨s, rfl, ?_⟩
    rw [List.forall_mem_cons, List.forall_mem_cons, List.forall_mem_singleton]
    exact ⟨hfirst, halike.symm.trans hfirst, hagrees.symm.trans hfirst⟩

end Service

end Corpus
