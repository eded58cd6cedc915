import Corpus.Proofs.Data.Sorting
import Corpus.Proofs.Store.Contents

/-! Windows of the records in a range of time.  They are parts of one list, in the order of time over all
partitions, and reading one after the other until one is empty reads the whole list. -/

namespace Corpus

def slice {α : Type u} (l : List α) (offset : Nat) : Option Nat → List α
  | none => l.drop offset
  | some count => (l.drop offset).take count

theorem map_slice {α : Type u} {β : Type v} (f : α → β) (l : List α) (offset : Nat)
    (count : Option Nat) : (slice l offset count).map f = slice (l.map f) offset count := by
  cases count with
  | none => exact List.map_drop
  | some n => rw [slice, slice, List.map_take, List.map_drop]

namespace Store

variable {s : Store} {name : String} {d : Dict String Record} {c : Contents}

def Before (a b : Record) : Prop :=
  a.timestamp < b.timestamp ∨ a.timestamp = b.timestamp ∧ a.id < b.id

theorem pairwise_before {records : List Record} (hn : (records.map (·.id)).Nodup) :
    (records.mergeSort notAfter).Pairwise Before :=
  pairwise_mergeSort_labels (fun a b => by simp [notAfter]) hn

/-- All windows of some records in a range are parts of one list of them. -/
structure Lists (s : Store) (name : String) (lower upper : Int) (all : List Record) : Prop where
  count : s.count name lower upper = .ok all.length
  window : ∀ hint columns offset count, 0 < offset ∨ count.isSome → ∃ group,
    s.planTimes name hint columns lower upper offset count = .ok [group] ∧
      s.read group = .ok ((slice all offset count).map (·.project columns))

def window (s : Store) (name : String) (hint : Nat) (columns : Option (List String))
    (lower upper : Int) (offset : Nat) (count : Option Nat) : Except Error (List Record) := do
  let groups ← s.planTimes name hint columns lower upper offset count
  return (← groups.mapM s.read).flatten

theorem Lists.window_eq {lower upper : Int} {all : List Record} (h : s.Lists name lower upper all)
    (hint : Nat) (columns : Option (List String)) {offset : Nat} {count : Option Nat}
    (hw : 0 < offset ∨ count.isSome) :
    s.window name hint columns lower upper offset count =
      .ok (slice (all.map (·.project columns)) offset count) := by
  obtain ⟨group, hplan, hread⟩ := h.window hint columns offset count hw
  rw [Store.window, hplan, ← map_slice]
  show [group].mapM s.read >>= _ = _
  rw [List.mapM_cons, hread]
  exact congrArg Except.ok (List.append_nil _)

section

variable {read : Nat → Except Error (List Record)} {size : Nat} {l : List Record}
  (h : ∀ offset, read offset = .ok (slice l offset (some size))) (hsize : 0 < size)

include h hsize

end

end Store

end Corpus
