import Corpus.Proofs.Index.Reachable
import Corpus.Proofs.Index.Renaming

/-! What a segment holds after any changes is what it would hold had the surviving documents alone been put
into it. -/

namespace Corpus

def Document.IsAnalysis (d : Document) : Prop :=
  ∃ schema analyzers r, ofRecord schema analyzers r = .ok d

theorem Document.IsAnalysis.onePath {d : Document} (h : d.IsAnalysis) : Fields.OnePath d.fields := by
  obtain ⟨schema, analyzers, r, hd⟩ := h
  exact ofRecord_onePath hd

namespace Segment

def Edit.ends (id : String) : Edit → Bool
  | .upsert d => d.id = id
  | .delete id' => id' = id
  | .clear => true

/-- The documents that no later change puts an end to. -/
def survivors : List Edit → List Document
  | [] => []
  | .upsert d :: rest => if rest.any (Edit.ends d.id) then survivors rest else d :: survivors rest
  | .delete _ :: rest => survivors rest
  | .clear :: rest => survivors rest

variable {edits : List Edit}

theorem mem_of_mem_survivors {d : Document} (h : d ∈ survivors edits) : .upsert d ∈ edits := by
  induction edits with
  | nil => cases h
  | cons e rest ih =>
    cases e with
    | upsert d' =>
      rw [survivors] at h
      split at h
      next => exact .tail _ (ih h)
      next =>
        cases h with
        | head => exact .head _
        | tail _ h => exact .tail _ (ih h)
    | delete id => exact .tail _ (ih h)
    | clear => exact .tail _ (ih h)

theorem nodup_survivors (edits : List Edit) : ((survivors edits).map (·.id)).Nodup := by
  induction edits with
  | nil => exact .nil
  | cons e rest ih =>
    cases e with
    | upsert d =>
      rw [survivors]
      split
      next => exact ih
      next hends =>
        refine List.nodup_cons.2 ⟨fun hm => hends ?_, ih⟩
        obtain ⟨d', hd', hid⟩ := List.mem_map.1 hm
        exact List.any_eq_true.2 ⟨_, mem_of_mem_survivors hd', decide_eq_true hid⟩
    | delete id => exact ih
    | clear => exact ih

theorem foldl_leave_eq_some {id : String} {last : Option Document} {d : Document} :
    edits.foldl (Edit.leave id) last = some d ↔
      (d ∈ survivors edits ∧ d.id = id) ∨ (edits.any (Edit.ends id) = false ∧ last = some d) := by
  induction edits generalizing last with
  | nil => simp [survivors]
  | cons e rest ih =>
    rw [List.foldl_cons, ih, List.any_cons, Bool.or_eq_false_iff]
    cases e with
    | upsert d' =>
      rw [survivors, Edit.leave, Edit.ends, decide_eq_false_iff_not]
      by_cases hid : d'.id = id
      · subst hid
        rw [if_pos rfl]
        cases rest.any (Edit.ends d'.id) with
        | true => simp
        | false =>
          simp only [Option.some.injEq, Bool.false_eq_true, if_false, List.mem_cons, not_true_eq_false,
            false_and, or_false, true_and, or_and_right]
          rw [or_comm, eq_comm]
          exact or_congr_left ⟨fun he => ⟨he, congrArg Document.id he⟩, And.left⟩
      · have hmem : d ∈ (if rest.any (Edit.ends d'.id) then survivors rest else d' :: survivors rest) ∧
            d.id = id ↔ d ∈ survivors rest ∧ d.id = id := by
          refine and_congr_left fun hd => ?_
          have hne : d ≠ d' := fun he => hid (he ▸ hd)
          split <;> simp [hne]
        rw [if_neg (Ne.symm hid), hmem]
        simp [hid]
    | delete id' =>
      rw [survivors, Edit.leave, Edit.ends, decide_eq_false_iff_not]
      by_cases hid : id' = id
      · simp [hid]
      · simp [hid, Ne.symm hid]
    | clear => simp [survivors, Edit.leave, Edit.ends]

theorem survivor_eq_some {id : String} {d : Document} :
    survivor id edits = some d ↔ d ∈ survivors edits ∧ d.id = id := by
  rw [survivor, foldl_leave_eq_some]
  simp

theorem survivors_upserts {ds : List Document} (h : (ds.map (·.id)).Nodup) :
    survivors (ds.map .upsert) = ds := by
  induction ds with
  | nil => rfl
  | cons d rest ih =>
    rw [List.map_cons, List.nodup_cons] at h
    have hends : ¬(rest.map Edit.upsert).any (Edit.ends d.id) := by
      rw [List.any_map, List.any_eq_true]
      rintro ⟨d', hd', hid⟩
      exact h.1 (List.mem_map.2 ⟨d', hd', of_decide_eq_true hid⟩)
    rw [List.map_cons, survivors, if_neg hends, ih h.2]

theorem survivor_upserts {ds : List Document} (h : ds.Perm (survivors edits)) (id : String) :
    survivor id (ds.map .upsert) = survivor id edits := by
  have hn := (h.map (·.id)).nodup_iff.2 (nodup_survivors edits)
  apply Option.ext
  intro d
  rw [survivor_eq_some, survivor_eq_some, survivors_upserts hn, h.mem_iff]

theorem Faithful.docs_upsert_delete {s : Segment} (h : s.Faithful) {d : Document}
    (hd : Fields.OnePath d.fields) (hnew : s.docOf? d.id = none) :
    ((s.upsert d).delete d.id).docs = s.docs := by
  have hget (doc : Nat) : (s.upsert d).docs.get? doc =
      if doc = s.nextDoc then some d else s.docs.get? doc := by
    rw [get?_docs_upsert, hnew, Option.getD_none]
  have hdoc : (s.upsert d).docOf? d.id = some s.nextDoc :=
    (h.upsert hd).docOf?_eq_some.2 ⟨d, (hget _).trans (if_pos rfl), rfl⟩
  refine Dict.ext_get? fun doc => ?_
  rw [get?_docs_delete, hdoc, hget]
  by_cases hnext : doc = s.nextDoc
  · rw [hnext, if_pos rfl]
    cases hold : s.docs.get? s.nextDoc with
    | none => rfl
    | some old => exact absurd (h.lt_nextDoc hold) (Nat.lt_irrefl _)
  · rw [if_neg (fun he => hnext (Option.some.inj he).symm), if_neg hnext]

/-- But for the numbers of its documents a segment is what the survivors alone make of an empty one. -/
theorem edited_eq_survivors (hd : ∀ d, .upsert d ∈ edits → d.IsAnalysis) :
    (∀ ds : List Document, ds.Perm (survivors edits) → ∃ ρ,
      Set.BijOn ρ (edited edits).docs.holders (edited (ds.map .upsert)).docs.holders ∧
      ((edited edits).rename ρ).SameContent (edited (ds.map .upsert)) ∧
      ∀ doc ∈ (edited edits).live, ∀ field,
        (edited (ds.map .upsert)).numberOf? (ρ doc) field = (edited edits).numberOf? doc field) ∧
    (∀ d : Document, d.IsAnalysis → (edited edits).docOf? d.id = none →
      (edited (edits ++ [.upsert d, .delete d.id])).SameContent (edited edits)) ∧
    (edited edits).Tidy := by
  have hone : ∀ d, .upsert d ∈ edits → Fields.OnePath d.fields := fun d h => (hd d h).onePath
  refine ⟨fun ds hds => ?_, fun d han hnew => ?_, tidy_edited hone⟩
  · have hone' : ∀ d, .upsert d ∈ ds.map Edit.upsert → Fields.OnePath d.fields := by
      intro d hm
      obtain ⟨d', hd', he⟩ := List.mem_map.1 hm
      cases he
      exact hone d (mem_of_mem_survivors (hds.mem_iff.1 hd'))
    obtain ⟨ρ, hbij, hsame⟩ := (faithful_edited hone).exists_renaming (faithful_edited hone')
      (tidy_edited hone) (tidy_edited hone') fun id => by
        rw [document?_edited hone, document?_edited hone', survivor_upserts hds]
    refine ⟨ρ, hbij, hsame, fun doc hdoc field => ?_⟩
    have hget : (edited (ds.map .upsert)).docs.get? (ρ doc) = (edited edits).docs.get? doc := by
      rw [← hsame.docs]
      exact Dict.get?_rename_apply hbij.injOn (Dict.mem_docs.1 hdoc)
    rw [numberOf?, numberOf?, hget]
  · have hone' : ∀ e, .upsert e ∈ edits ++ [.upsert d, .delete d.id] → Fields.OnePath e.fields := by
      intro e hm
      simp only [List.mem_append, List.mem_cons, Edit.upsert.injEq, reduceCtorEq, List.not_mem_nil,
        or_false] at hm
      obtain hm | rfl := hm
      · exact hone e hm
      · exact han.onePath
    refine (faithful_edited hone').sameContent (faithful_edited hone) (tidy_edited hone')
      (tidy_edited hone) ?_
    rw [edited, List.foldl_append]
    exact (faithful_edited hone).docs_upsert_delete han.onePath hnew

def richRecord (id : String) : Record :=
  ⟨id, "t", 5, .ofList [("c", .facet ["a", "b"]), ("n", .double 2), ("w", .string "the red fox")]⟩

theorem exists_rich (id : String) :
    ∃ d, Document.ofRecord .empty (.withDefault "standard") (richRecord id) = .ok d := ⟨_, rfl⟩

def replaced (d e : Document) : List Edit := [.upsert d, .upsert e, .upsert d, .delete "2"]

theorem edited_eq_survivors_replaced : ∃ d e : Document, d.id = "1" ∧ e.id = "2" ∧
    (∀ d', .upsert d' ∈ replaced d e → d'.IsAnalysis) ∧
    (∃ ρ, ((edited (replaced d e)).rename ρ).SameContent (edited [.upsert d]) ∧
      (edited [.upsert d]).numberOf? (ρ 0) "n" = some 2) ∧
    (edited (replaced d e ++ [.upsert e, .delete "2"])).SameContent (edited (replaced d e)) ∧
    (edited (replaced d e)).numberOf? 0 "n" = some 2 ∧
    (edited (replaced d e)).terms.posting? "w" "fox" 0 = some ⟨1, [2], 2⟩ := by
  obtain ⟨d, hd⟩ := exists_rich "1"
  obtain ⟨e, he⟩ := exists_rich "2"
  have hdid : d.id = "1" := Document.ofRecord_id hd
  have heid : e.id = "2" := Document.ofRecord_id he
  have hall : ∀ d', .upsert d' ∈ replaced d e → d'.IsAnalysis := by
    simp only [replaced, List.mem_cons, Edit.upsert.injEq, reduceCtorEq, List.not_mem_nil, or_false]
    rintro d' (rfl | rfl | rfl)
    · exact ⟨_, _, _, hd⟩
    · exact ⟨_, _, _, he⟩
    · exact ⟨_, _, _, hd⟩
  have hone : ∀ d', .upsert d' ∈ replaced d e → Fields.OnePath d'.fields := fun d' h => (hall d' h).onePath
  have hsurvivors : survivors (replaced d e) = [d] := by
    simp [replaced, survivors, Edit.ends, hdid, heid]
  have hnew : (edited (replaced d e)).docOf? e.id = none := by
    have hnone : survivor "2" (replaced d e) = none := rfl
    rw [← document?_edited hone] at hnone
    rw [heid, ← Option.not_isSome_iff_eq_none, (faithful_edited hone).isSome_docOf?, hnone]
    exact Bool.false_ne_true
  have hcontent : ((Document.ofRecord .empty (.withDefault "standard") (richRecord "1")).toOption.bind fun d =>
      (Document.ofRecord .empty (.withDefault "standard") (richRecord "2")).toOption.map fun e =>
        let s := edited (replaced d e)
        (decide (0 ∈ s.live), s.numberOf? 0 "n", s.terms.posting? "w" "fox" 0)) =
      some (true, some 2, some ⟨1, [2], 2⟩) := by
    decide +kernel
  simp only [hd, he, Except.toOption, Option.bind_some, Option.map_some, Option.some.injEq,
    Prod.mk.injEq, decide_eq_true_eq] at hcontent
  obtain ⟨hlive, hnumber, hposting⟩ := hcontent
  obtain ⟨hsame, hundone, -⟩ := edited_eq_survivors hall
  obtain ⟨ρ, -, hρ, hnumbers⟩ := hsame [d] (hsurvivors ▸ .refl _)
  have hback := hundone e ⟨_, _, _, he⟩ hnew
  rw [heid] at hback
  exact ⟨d, e, hdid, heid, hall, ⟨ρ, hρ, (hnumbers 0 hlive "n").trans hnumber⟩, hback, hnumber, hposting⟩

end Segment

end Corpus
