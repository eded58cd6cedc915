import Corpus.Proofs.Data.Codec
import Corpus.Record
import Corpus.Store.Group

/-! Record groups sent as bytes: what arrives is the group that was sent, and no other bytes are taken
for a group. -/

namespace Corpus

open Text

def IsTime (time : Int) : Prop := timeMin ≤ time ∧ time ≤ timeMax

instance : DecidablePred IsTime := fun _ => inferInstanceAs (Decidable (_ ∧ _))

def IsShort (text : String) : Prop := (utf8 text).length < UInt64.size

instance : DecidablePred IsShort := fun _ => inferInstanceAs (Decidable (_ < _))

def IsShortList {α : Type} (admits : α → Prop) (items : List α) : Prop :=
  items.length < UInt64.size ∧ ∀ a ∈ items, admits a

instance {α : Type} {admits : α → Prop} [DecidablePred admits] : DecidablePred (IsShortList admits) :=
  fun _ => inferInstanceAs (Decidable (_ ∧ _))

namespace Selection

def Fits : Selection → Prop
  | .times lower upper offset count =>
    IsTime lower ∧ IsTime upper ∧ offset < UInt64.size ∧ ∀ n ∈ count, n < UInt64.size
  | .ids list => IsShortList IsShort list

instance : DecidablePred Fits
  | .times .. => inferInstanceAs (Decidable (_ ∧ _))
  | .ids _ => inferInstanceAs (Decidable (IsShortList IsShort _))

theorem canonical : codec.Canonical Fits := by
  refine .map (.either (.pair .int (.pair .int (.pair .word (.option .word)))) (.list .text))
    (fun {s} hs => ?_) fun {x} hx => ?_
  · cases s with
    | times lower upper offset count =>
      obtain ⟨⟨hl, hl'⟩, ⟨hu, hu'⟩, hwindow⟩ := hs
      exact ⟨⟨⟨hl, Int.lt_add_one_of_le hl'⟩, ⟨hu, Int.lt_add_one_of_le hu'⟩, hwindow⟩, rfl⟩
    | ids list => exact ⟨hs, rfl⟩
  · cases x with
    | inl times =>
      obtain ⟨⟨hl, hl'⟩, ⟨hu, hu'⟩, hwindow⟩ := hx
      exact ⟨⟨⟨hl, Int.le_of_lt_add_one hl'⟩, ⟨hu, Int.le_of_lt_add_one hu'⟩, hwindow⟩, rfl⟩
    | inr list => exact ⟨hx, rfl⟩

end Selection

namespace RecordGroup

/-- A group of which all numbers are words, and all texts and lists as long as words can say. -/
structure Fits (g : RecordGroup) : Prop where
  table : IsShort g.table
  partitions : IsShortList (· < UInt64.size) g.partitions
  columns : ∀ names ∈ g.columns, IsShortList IsShort names
  selection : g.selection.Fits

theorem canonical : codec.Canonical Fits :=
  .map (.pair .text (.pair (.list .word) (.pair (.option (.list .text)) Selection.canonical)))
    (fun hg => ⟨⟨hg.table, hg.partitions, hg.columns, hg.selection⟩, rfl⟩)
    fun ⟨ht, hp, hc, hs⟩ => ⟨⟨ht, hp, hc, hs⟩, rfl⟩

theorem ofBytes_eq_ok_iff {bytes : List UInt8} {g : RecordGroup} :
    ofBytes bytes = .ok g ↔ g.Fits ∧ g.toBytes <+: bytes := by
  rw [ofBytes]
  constructor
  · intro h
    split at h
    next g' rest hd =>
      cases h
      obtain ⟨hg, rfl⟩ := (canonical bytes g rest).1 hd
      exact ⟨hg, List.prefix_append ..⟩
    next => cases h
  · rintro ⟨hg, rest, rfl⟩
    rw [toBytes, canonical.decode?_append hg]

/-- A group arrives as it was sent, and not at all if some of its bytes are missing. -/
theorem transport (g : RecordGroup) (h : g.Fits) :
    (∀ rest, ofBytes (g.toBytes ++ rest) = .ok g) ∧
    (∀ bytes, bytes <+: g.toBytes → bytes ≠ g.toBytes → ofBytes bytes = .error .badGroup) ∧
    (∀ bytes g', ofBytes bytes = .ok g' → g'.Fits ∧ g'.toBytes <+: bytes) ∧
    ∀ g', g'.Fits → g'.toBytes <+: g.toBytes → g' = g := by
  refine ⟨fun rest => ofBytes_eq_ok_iff.2 ⟨h, List.prefix_append ..⟩, fun bytes hp hne => ?_,
    fun bytes g' hg => ofBytes_eq_ok_iff.1 hg, fun g' hg hp => canonical.eq_of_prefix hg h hp⟩
  rw [ofBytes, canonical.decode?_of_prefix h hp hne]

def twoIds : RecordGroup := ⟨"sales", [0, UInt64.size - 1], some ["city"], .ids ["", "ü"]⟩

theorem transport_twoIds :
    twoIds.Fits ∧ ofBytes (twoIds.toBytes ++ [7]) = .ok twoIds ∧
      ofBytes (twoIds.toBytes.take 87) = .error .badGroup ∧ twoIds.toBytes.length = 88 := by
  have h : twoIds.Fits := ⟨by decide, by decide, by decide, by decide⟩
  obtain ⟨hread, hcut, -⟩ := transport twoIds h
  exact ⟨h, hread [7], hcut _ (List.take_prefix ..) (by decide), by decide⟩

end RecordGroup

end Corpus
