import Corpus.Index.Posting
import Corpus.Proofs.Data.Dict
import Mathlib.Algebra.Order.BigOperators.Group.Finset

/-! Posting lists as rows that are searched by halving.  Every change leaves the row of a posting list in
order, so that the halves can be told apart, and what is found in it is what was added last. -/

namespace Corpus

theorem insertIdx_length_append (before after : List α) (a : α) :
    (before ++ after).insertIdx before.length a = before ++ a :: after := by
  induction before with
  | nil => rfl
  | cons b before ih => rw [List.cons_append, List.length_cons, List.insertIdx_succ_cons, ih, List.cons_append]

namespace Postings

def Ordered (l : Postings) : Prop := l.Pairwise fun a b => a.1 < b.1

theorem ordered_entries (l : PostingList) : Ordered l.entries := l.ascending.imp Nat.compare_eq_lt.1

section

variable {l : Postings} {doc base size : Nat}

/-- What stands before some places is below a document, and what stands behind them is above it. -/
structure Encloses (l : Postings) (doc base size : Nat) : Prop where
  nonempty : 0 < size
  le_length : base + size ≤ l.length
  below : ∀ i (hi : i < l.length), i < base → l[i].1 < doc
  above : ∀ i (hi : i < l.length), base + size ≤ i → doc < l[i].1

theorem Ordered.lt_of_lt (h : Ordered l) {i j : Nat} (hj : j < l.length) (hij : i < j) :
    l[i].1 < l[j].1 :=
  List.pairwise_iff_getElem.1 h i j (Nat.lt_trans hij hj) hj hij

theorem Encloses.halved (h : Encloses l doc base size) (ho : Ordered l) (hsize : ¬size ≤ 1) :
    Encloses l doc (if l[base + size / 2]?.any (·.1 ≤ doc) then base + size / 2 else base)
      (size - size / 2) := by
  obtain ⟨hpos, hlength, hbelow, habove⟩ := h
  have hmiddle : base + size / 2 < l.length := by omega
  rw [List.getElem?_eq_getElem hmiddle, Option.any_some]
  split
  next hle =>
    have hle : l[base + size / 2].1 ≤ doc := of_decide_eq_true hle
    refine ⟨by omega, by omega, fun i hi hlt => ?_, fun i hi hge => habove i hi (by omega)⟩
    exact Nat.lt_of_lt_of_le (ho.lt_of_lt hmiddle hlt) hle
  next hgt =>
    have hgt : doc < l[base + size / 2].1 := by simpa using hgt
    refine ⟨by omega, by omega, hbelow, fun i hi hge => ?_⟩
    obtain rfl | hlt := Nat.eq_or_lt_of_le (show base + size / 2 ≤ i by omega)
    · exact hgt
    · exact Nat.lt_trans hgt (ho.lt_of_lt hi hlt)

theorem Encloses.narrow (h : Encloses l doc base size) (ho : Ordered l) :
    Encloses l doc (narrow l doc base size) 1 := by
  fun_induction Postings.narrow l doc base size with
  | case1 base size hsize =>
    obtain rfl : size = 1 := Nat.le_antisymm hsize h.nonempty
    exact h
  | case2 base size hsize middle ih => exact ih (h.halved ho hsize)

theorem Encloses.below_take (h : Encloses l doc base size) : ∀ a ∈ l.take base, compare doc a.1 = .gt := by
  intro a ha
  obtain ⟨i, hi, rfl⟩ := List.mem_take_iff_getElem.1 ha
  exact Nat.compare_eq_gt.2 (h.below i (by omega) (by omega))

theorem Encloses.above_drop (h : Encloses l doc base size) :
    ∀ a ∈ l.drop (base + size), compare doc a.1 = .lt := by
  intro a ha
  obtain ⟨i, hi, rfl⟩ := List.mem_drop_iff_getElem.1 ha
  exact Nat.compare_eq_lt.2 (h.above _ _ (Nat.le_add_right ..))

/-- A row in two parts: what is below a document and what is above it, with its posting between them where it
has one. -/
inductive Parts (doc : Nat) : Postings → Spot → Prop
  | taken {before after : Postings} (p : Posting) (below : ∀ a ∈ before, compare doc a.1 = .gt)
    (above : ∀ a ∈ after, compare doc a.1 = .lt) :
    Parts doc (before ++ (doc, p) :: after) (.taken before.length)
  | free {before after : Postings} (below : ∀ a ∈ before, compare doc a.1 = .gt)
    (above : ∀ a ∈ after, compare doc a.1 = .lt) : Parts doc (before ++ after) (.free before.length)

theorem parts_spot (ho : Ordered l) (doc : Nat) : Parts doc l (spot l doc) := by
  rw [spot]
  obtain rfl | hne := eq_or_ne l []
  · rw [List.length_nil, Postings.narrow, if_pos (Nat.zero_le 1)]
    change Parts doc ([] ++ []) (.free ([] : Postings).length)
    exact .free nofun nofun
  · have hlength : 0 < l.length := List.length_pos_iff.2 hne
    have h : Encloses l doc (Postings.narrow l doc 0 l.length) 1 :=
      Encloses.narrow ⟨hlength, by omega, nofun, fun i hi hge => by omega⟩ ho
    generalize Postings.narrow l doc 0 l.length = place at h ⊢
    have hplace : place < l.length := h.le_length
    have htake : (l.take place).length = place := List.length_take_of_le (Nat.le_of_lt hplace)
    have hl : l.take place ++ l[place] :: l.drop (place + 1) = l := by
      rw [List.getElem_cons_drop, List.take_append_drop]
    rw [List.getElem?_eq_getElem hplace]
    dsimp only
    split
    next heq =>
      subst heq
      have hparts := Parts.taken l[place].2 h.below_take h.above_drop
      rwa [htake, hl] at hparts
    next hne =>
      split
      next hlt =>
        have hbelow : ∀ a ∈ l.take place ++ [l[place]], compare doc a.1 = .gt :=
          List.forall_mem_append.2 ⟨h.below_take, List.forall_mem_singleton.2 (Nat.compare_eq_gt.2 hlt)⟩
        have hparts := Parts.free hbelow h.above_drop
        rwa [List.length_append, htake, List.append_assoc, List.singleton_append, hl] at hparts
      next hge =>
        have hgt : doc < l[place].1 := Nat.lt_of_le_of_ne (Nat.not_lt.1 hge) (Ne.symm hne)
        have habove : ∀ a ∈ l[place] :: l.drop (place + 1), compare doc a.1 = .lt :=
          List.forall_mem_cons.2 ⟨Nat.compare_eq_lt.2 hgt, h.above_drop⟩
        have hparts := Parts.free h.below_take habove
        rwa [htake, hl] at hparts

end

section

variable (l : PostingList) (doc : Nat)

theorem get?_entries : get? l.entries doc = l.get? doc := by
  have hparts := parts_spot (ordered_entries l) doc
  change _ = Dict.find doc l.entries
  rw [get?]
  generalize l.entries = row, spot l.entries doc = found at hparts ⊢
  cases hparts with
  | taken p below above => simp [Dict.find_append below, Dict.find]
  | free below above => rw [Dict.find_append below, Dict.find_eq_none above]

theorem add_entries (p : Posting) : add l.entries doc p = (l.insert doc p).entries := by
  have hparts := parts_spot (ordered_entries l) doc
  change _ = Dict.alterList doc (fun _ => some p) l.entries
  rw [add]
  generalize l.entries = row, spot l.entries doc = found at hparts ⊢
  cases hparts with
  | taken q below above => simp [Dict.alterList_append below, Dict.alterList]
  | free below above =>
    rw [Dict.alterList_append below, Dict.alterList_of_lt above]
    exact insertIdx_length_append ..

theorem remove_entries : remove l.entries doc = (l.contains doc, (l.erase doc).entries) := by
  have hparts := parts_spot (ordered_entries l) doc
  change _ = ((Dict.find doc l.entries).isSome, Dict.alterList doc (fun _ => none) l.entries)
  rw [remove]
  generalize l.entries = row, spot l.entries doc = found at hparts ⊢
  cases hparts with
  | @taken before after p below above =>
    rw [Dict.alterList_append below, Dict.find_append below]
    simp [Dict.find, Dict.alterList, List.eraseIdx_append_of_length_le]
  | free below above =>
    rw [Dict.alterList_append below, Dict.alterList_of_lt above, Dict.find_append below,
      Dict.find_eq_none above]
    rfl

end

end Postings

namespace PostingList

inductive Edit
  | add (doc : Nat) (p : Posting)
  | remove (doc : Nat)
  deriving DecidableEq

namespace Edit

def doc : Edit → Nat
  | .add doc _ => doc
  | .remove doc => doc

def posting? : Edit → Option Posting
  | .add _ p => some p
  | .remove _ => none

def apply (l : PostingList) : Edit → PostingList
  | .add doc p => l.insert doc p
  | .remove doc => l.erase doc

def Fits (e : Edit) : Prop := e.doc < 2 ^ 32 ∧ ∀ p ∈ e.posting?, p.termFreq < 2 ^ 32

instance (e : Edit) : Decidable e.Fits :=
  inferInstanceAs (Decidable (e.doc < 2 ^ 32 ∧ ∀ p ∈ e.posting?, p.termFreq < 2 ^ 32))

def applyTo (l : Postings) : Edit → Postings
  | .add doc p => l.add doc p
  | .remove doc => (l.remove doc).2

end Edit

def edited (edits : List Edit) : PostingList := edits.foldl Edit.apply .empty

def row (edits : List Edit) : Postings := edits.foldl Edit.applyTo []

/-- The posting that was added last for a document, unless the document has been removed since. -/
def held (edits : List Edit) (doc : Nat) : Option Posting :=
  (edits.filter (·.doc = doc)).getLast?.bind Edit.posting?

def remaining (edits : List Edit) : Finset Nat :=
  (edits.map Edit.doc).toFinset.filter fun doc => (held edits doc).isSome

section

variable (edits : List Edit) (doc : Nat)

theorem held_concat (e : Edit) :
    held (edits ++ [e]) doc = if e.doc = doc then e.posting? else held edits doc := by
  rw [held, List.filter_append]
  by_cases h : e.doc = doc
  · simp [h]
  · simp [h, held]

theorem get?_apply (l : PostingList) (e : Edit) :
    (e.apply l).get? doc = if e.doc = doc then e.posting? else l.get? doc := by
  cases e with
  | add doc' p => simp only [Edit.apply, Dict.get?_insert, Edit.doc, Edit.posting?, eq_comm]
  | remove doc' => simp only [Edit.apply, Dict.get?_erase, Edit.doc, Edit.posting?, eq_comm]

theorem get?_edited : (edited edits).get? doc = held edits doc := by
  induction edits using List.reverseRecOn with
  | nil => rfl
  | append_singleton init e ih => rw [edited, List.foldl_concat, get?_apply, held_concat, ← ih, edited]

theorem row_eq_entries : row edits = (edited edits).entries := by
  induction edits using List.reverseRecOn with
  | nil => rfl
  | append_singleton init e ih =>
    rw [row, edited, List.foldl_concat, List.foldl_concat, ← row, ← edited, ih]
    cases e with
    | add doc p => exact Postings.add_entries _ doc p
    | remove doc => exact congrArg Prod.snd (Postings.remove_entries _ doc)

variable {edits doc}

theorem mem_remaining : doc ∈ remaining edits ↔ (held edits doc).isSome := by
  rw [remaining, Finset.mem_filter, List.mem_toFinset, and_iff_right_iff_imp]
  intro h
  obtain ⟨p, hp⟩ := Option.isSome_iff_exists.1 h
  obtain ⟨e, he, -⟩ := Option.bind_eq_some_iff.1 hp
  have hm := List.mem_filter.1 (List.mem_of_getLast? he)
  exact List.mem_map.2 ⟨e, hm.1, of_decide_eq_true hm.2⟩

theorem mem_keys_edited : doc ∈ (edited edits).keys ↔ doc ∈ remaining edits := by
  rw [Dict.mem_keys_iff, get?_edited, mem_remaining]

theorem totalFreq_edited (edits : List Edit) :
    (edited edits).totalFreq = ∑ doc ∈ remaining edits, (held edits doc).elim 0 (·.termFreq) := by
  have hremaining : remaining edits = (edited edits).keys.toFinset :=
    Finset.ext fun doc => by rw [List.mem_toFinset, mem_keys_edited]
  rw [hremaining, List.sum_toFinset _ (edited edits).nodup_keys, totalFreq, total_eq_sum, Dict.values, Dict.keys,
    List.map_map, List.map_map]
  refine congrArg List.sum (List.map_congr_left fun a ha => ?_)
  have hget : held edits a.1 = some a.2 := (get?_edited edits a.1).symm.trans (Dict.get?_eq_some_iff.2 ha)
  rw [Function.comp_apply, Function.comp_apply, hget, Option.elim_some]

theorem totalFreq_lt (hfits : ∀ e ∈ edits, e.Fits) : (edited edits).totalFreq < 2 ^ 64 := by
  have hle : ∀ doc ∈ remaining edits, (held edits doc).elim 0 (·.termFreq) ≤ 2 ^ 32 - 1 := by
    intro doc hd
    obtain ⟨p, hp⟩ := Option.isSome_iff_exists.1 (mem_remaining.1 hd)
    obtain ⟨e, he, hep⟩ := Option.bind_eq_some_iff.1 hp
    rw [hp, Option.elim_some]
    exact Nat.le_sub_one_of_lt ((hfits e (List.mem_filter.1 (List.mem_of_getLast? he)).1).2 p hep)
  have hsubset : remaining edits ⊆ Finset.range (2 ^ 32) := by
    intro doc hd
    obtain ⟨e, he, rfl⟩ := List.mem_map.1 (List.mem_toFinset.1 (Finset.mem_filter.1 hd).1)
    exact Finset.mem_range.2 (hfits e he).1
  have hcard : (remaining edits).card ≤ 2 ^ 32 := (Finset.card_le_card hsubset).trans_eq (Finset.card_range _)
  calc (edited edits).totalFreq
      = ∑ doc ∈ remaining edits, (held edits doc).elim 0 (·.termFreq) := totalFreq_edited edits
    _ ≤ (remaining edits).card * (2 ^ 32 - 1) := Finset.sum_le_card_nsmul _ _ _ hle
    _ ≤ 2 ^ 32 * (2 ^ 32 - 1) := Nat.mul_le_mul_right _ hcard
    _ < 2 ^ 64 := by decide

end

section

variable {l m : List Nat}

theorem merge_sublist (l m : List Nat) : (merge l m).Sublist l := by
  fun_induction merge l m with
  | case1 as b bs ih => exact ih.cons_cons b
  | case2 a as b bs _ _ ih => exact ih.cons a
  | case3 a as b bs _ _ ih => exact ih
  | case4 l m h => exact List.nil_sublist l

theorem le_of_mem_cons {a doc : Nat} (h : (a :: l).Pairwise (· < ·)) (hd : doc ∈ a :: l) : a ≤ doc := by
  obtain rfl | hd := List.mem_cons.1 hd
  · exact Nat.le_refl doc
  · exact Nat.le_of_lt (List.rel_of_pairwise_cons h hd)

theorem mem_merge (hl : l.Pairwise (· < ·)) (hm : m.Pairwise (· < ·)) (doc : Nat) :
    doc ∈ merge l m ↔ doc ∈ l ∧ doc ∈ m := by
  fun_induction merge l m with
  | case1 as b bs ih =>
    rw [List.mem_cons, ih hl.of_cons hm.of_cons, or_and_left, ← List.mem_cons, ← List.mem_cons]
  | case2 a as b bs hne hlt ih =>
    rw [ih hl.of_cons hm]
    refine and_congr_left fun hd => ?_
    -- the other list has gone past `a` already
    have hpassed : doc ≠ a := Nat.ne_of_gt (Nat.lt_of_lt_of_le hlt (le_of_mem_cons hm hd))
    exact (List.mem_cons.trans (or_iff_right hpassed)).symm
  | case3 a as b bs hne hge ih =>
    rw [ih hl hm.of_cons]
    refine and_congr_right fun hd => ?_
    have hlt : b < a := Nat.lt_of_le_of_ne (Nat.not_lt.1 hge) (Ne.symm hne)
    have hpassed : doc ≠ b := Nat.ne_of_gt (Nat.lt_of_lt_of_le hlt (le_of_mem_cons hl hd))
    exact (List.mem_cons.trans (or_iff_right hpassed)).symm
  | case4 l m h =>
    cases l with
    | nil => simp
    | cons a as =>
      cases m with
      | nil => simp
      | cons b bs => exact (h a as b bs rfl rfl).elim

end

structure Enumerates (docs : List Nat) (s : Finset Nat) : Prop where
  ascending : docs.Pairwise (· < ·)
  mem_iff : ∀ doc, doc ∈ docs ↔ doc ∈ s

theorem Enumerates.merge {l m : List Nat} {s t : Finset Nat} (hl : Enumerates l s) (hm : Enumerates m t) :
    Enumerates (merge l m) (s ∩ t) where
  ascending := hl.ascending.sublist (merge_sublist l m)
  mem_iff doc := by rw [mem_merge hl.ascending hm.ascending, hl.mem_iff, hm.mem_iff, Finset.mem_inter]

theorem enumerates_keys (edits : List Edit) : Enumerates (edited edits).keys (remaining edits) where
  ascending := List.pairwise_map.2 (Postings.ordered_entries _)
  mem_iff _ := mem_keys_edited

/-- A row is the map that its changes make, whatever these are. -/
theorem rows_exact (edits others : List Edit) :
    Enumerates (row edits).docs (remaining edits) ∧
      (∀ doc, (row edits).get? doc = held edits doc) ∧
      (∀ doc, ((row edits).remove doc).1 = true ↔ doc ∈ remaining edits) ∧
      (row edits).totalFreq = ∑ doc ∈ remaining edits, (held edits doc).elim 0 (·.termFreq) ∧
      ((∀ e ∈ edits, e.Fits) → (row edits).totalFreq < 2 ^ 64) ∧
      Enumerates ((row edits).common (row others)) (remaining edits ∩ remaining others) ∧
      row edits = (edited edits).entries := by
  rw [row_eq_entries edits, row_eq_entries others]
  have htotal : Postings.totalFreq (edited edits).entries = (edited edits).totalFreq := by
    rw [Postings.totalFreq, totalFreq, Dict.values, List.map_map]
    rfl
  refine ⟨enumerates_keys edits, fun doc => ?_, fun doc => ?_, ?_, fun hfits => ?_, ?_, rfl⟩
  · exact (Postings.get?_entries _ doc).trans (get?_edited edits doc)
  · rw [Postings.remove_entries, Dict.contains, get?_edited, mem_remaining]
  · exact htotal.trans (totalFreq_edited edits)
  · exact htotal ▸ totalFreq_lt hfits
  · exact (enumerates_keys edits).merge (enumerates_keys others)

def addedTwice : List Edit :=
  [.add 5 ⟨1, [0], 4⟩, .add 1 ⟨2, [0, 3], 4⟩, .add 5 ⟨3, [0, 1, 2], 3⟩, .add 7 ⟨1, [2], 3⟩, .remove 1]

theorem rows_exact_addedTwice : (∀ e ∈ addedTwice, e.Fits) ∧ (row addedTwice).totalFreq < 2 ^ 64 ∧
    (row addedTwice).totalFreq = 4 ∧ (row addedTwice).get? 5 = some ⟨3, [0, 1, 2], 3⟩ ∧
    ((row addedTwice).remove 1).1 = false := by
  obtain ⟨-, hget, hremove, htotal, hlt, -⟩ := rows_exact addedTwice []
  have hfits : ∀ e ∈ addedTwice, e.Fits := by decide
  refine ⟨hfits, hlt hfits, htotal.trans (by decide), (hget 5).trans (by decide), ?_⟩
  exact Bool.eq_false_iff.2 fun h => absurd ((hremove 1).1 h) (by decide)

end PostingList

end Corpus
