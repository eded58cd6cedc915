import Corpus.Proofs.Index.Segment

/-! Segments after any changes, and the documents that these changes leave. -/

namespace Corpus.Segment

inductive Edit
  | upsert (d : Document)
  | delete (id : String)
  | clear
  deriving DecidableEq

namespace Edit

def apply (s : Segment) : Edit → Segment
  | .upsert d => s.upsert d
  | .delete id => s.delete id
  | .clear => s.clear

def leave (id : String) (last : Option Document) : Edit → Option Document
  | .upsert d => if id = d.id then some d else last
  | .delete id' => if id = id' then none else last
  | .clear => none

end Edit

def edited (edits : List Edit) : Segment := edits.foldl Edit.apply .empty

def survivor (id : String) (edits : List Edit) : Option Document :=
  edits.foldl (Edit.leave id) none

theorem Faithful.apply {s : Segment} (h : s.Faithful) {e : Edit}
    (he : ∀ d, e = .upsert d → Fields.OnePath d.fields) : (e.apply s).Faithful := by
  cases e with
  | upsert d => exact h.upsert (he d rfl)
  | delete id => exact h.delete id
  | clear => exact .clear s

theorem Faithful.document?_apply {s : Segment} (h : s.Faithful) {e : Edit}
    (he : ∀ d, e = .upsert d → Fields.OnePath d.fields) (id : String) :
    (e.apply s).document? id = e.leave id (s.document? id) := by
  cases e with
  | upsert d => exact h.document?_upsert (he d rfl) id
  | delete id' => exact h.document?_delete id' id
  | clear => rfl

theorem Faithful.foldl_apply {s : Segment} (h : s.Faithful) {edits : List Edit}
    (he : ∀ d, .upsert d ∈ edits → Fields.OnePath d.fields) :
    (edits.foldl Edit.apply s).Faithful ∧
      ∀ id, (edits.foldl Edit.apply s).document? id = edits.foldl (Edit.leave id) (s.document? id) := by
  induction edits generalizing s with
  | nil => exact ⟨h, fun _ => rfl⟩
  | cons e rest ih =>
    have hone : ∀ d, e = .upsert d → Fields.OnePath d.fields := fun d hd => he d (hd ▸ .head _)
    have hrest := ih (h.apply hone) fun d hd => he d (.tail _ hd)
    refine ⟨hrest.1, fun id => ?_⟩
    rw [List.foldl_cons, List.foldl_cons, hrest.2, h.document?_apply hone]

theorem Edit.eq_upsert_or_of_leave {e : Edit} {id : String} {last : Option Document} {d : Document}
    (h : e.leave id last = some d) : e = .upsert d ∧ id = d.id ∨ last = some d := by
  cases e with
  | upsert d' =>
    rw [leave] at h
    split at h
    next hid => cases h; exact .inl ⟨rfl, hid⟩
    next => exact .inr h
  | delete id' =>
    rw [leave] at h
    split at h
    next => cases h
    next => exact .inr h
  | clear => cases h

@[simp] theorem Edit.leave_leave (e : Edit) (id : String) (last : Option Document) :
    e.leave id (e.leave id last) = e.leave id last := by
  cases e with
  | upsert d => simp only [leave]; split <;> rfl
  | delete id' => simp only [leave]; split <;> rfl
  | clear => rfl

theorem mem_of_foldl_leave {id : String} {edits : List Edit} {last : Option Document} {d : Document}
    (h : edits.foldl (Edit.leave id) last = some d) : .upsert d ∈ edits ∨ last = some d := by
  induction edits generalizing last with
  | nil => exact .inr h
  | cons e rest ih =>
    cases ih h with
    | inl hm => exact .inl (.tail _ hm)
    | inr he =>
      cases Edit.eq_upsert_or_of_leave he with
      | inl hu => exact .inl (hu.1 ▸ .head _)
      | inr hl => exact .inr hl

variable {edits : List Edit}

theorem mem_of_survivor {id : String} {d : Document} (h : survivor id edits = some d) :
    .upsert d ∈ edits :=
  (mem_of_foldl_leave h).resolve_right nofun

theorem faithful_edited (he : ∀ d, .upsert d ∈ edits → Fields.OnePath d.fields) :
    (edited edits).Faithful :=
  (Faithful.empty.foldl_apply he).1

theorem document?_edited (he : ∀ d, .upsert d ∈ edits → Fields.OnePath d.fields) (id : String) :
    (edited edits).document? id = survivor id edits :=
  (Faithful.empty.foldl_apply he).2 id

end Corpus.Segment
