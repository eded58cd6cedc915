import Corpus.Identity
import Corpus.Proofs.Data.Failure
import Mathlib.Algebra.BigOperators.Group.List.Basic
import Mathlib.Algebra.GroupWithZero.Nat

/-! The identities that primary keys give: which records they tell apart. -/

namespace Corpus

theorem Text.utf8_injective {text text' : String} (h : utf8 text = utf8 text') : text = text' := by
  have ho := congrArg ofUtf8? h
  rwa [ofUtf8?_utf8, ofUtf8?_utf8, Option.some_inj] at ho

namespace Identity

section Joined

variable {c : Char} {label : String → List Char}

theorem append_mark_inj {a b as bs : List Char} (h : a ++ c :: as = b ++ c :: bs)
    (hc : a.count c = b.count c) : a = b ∧ as = bs := by
  induction a generalizing b with
  | nil =>
    cases b with
    | nil => exact ⟨rfl, (List.cons.inj h).2⟩
    | cons y ys =>
      -- `a` has come to the mark, and `b` would have it once more
      obtain ⟨rfl, -⟩ := List.cons.inj h
      rw [List.count_nil, List.count_cons_self] at hc
      cases hc
  | cons x xs ih =>
    cases b with
    | nil =>
      obtain ⟨rfl, -⟩ := List.cons.inj h
      rw [List.count_nil, List.count_cons_self] at hc
      cases hc
    | cons y ys =>
      obtain ⟨rfl, ht⟩ := List.cons.inj h
      rw [List.count_cons, List.count_cons, Nat.add_right_cancel_iff] at hc
      obtain ⟨rfl, hr⟩ := ih ht hc
      exact ⟨rfl, hr⟩

theorem count_intercalate (parts : List (List Char)) :
    ([c].intercalate parts).count c = (parts.map (·.count c)).sum + (parts.length - 1) := by
  induction parts with
  | nil => rfl
  | cons part rest ih =>
    cases rest with
    | nil => simp
    | cons next rest =>
      rw [List.intercalate_cons_cons, List.count_append, List.count_append, ih,
        List.count_singleton_self]
      simp only [List.map_cons, List.sum_cons, List.length_cons]
      omega

theorem eq_of_intercalate_eq {keys : List String} {f g : String → List Char}
    (h : [c].intercalate (keys.map fun key => label key ++ f key) =
      [c].intercalate (keys.map fun key => label key ++ g key))
    (hc : ∀ key ∈ keys, (f key).count c = (g key).count c) : ∀ key ∈ keys, f key = g key := by
  induction keys with
  | nil => exact nofun
  | cons key rest ih =>
    rw [List.forall_mem_cons] at hc ⊢
    cases rest with
    | nil =>
      simp only [List.map_cons, List.map_nil, List.intercalate_singleton] at h
      exact ⟨List.append_cancel_left h, nofun⟩
    | cons next rest =>
      simp only [List.map_cons, List.intercalate_cons_cons, List.append_assoc,
        List.singleton_append] at h
      obtain ⟨hkey, hrest⟩ := append_mark_inj (List.append_cancel_left h) hc.1
      exact ⟨hkey, ih hrest hc.2⟩

theorem sum_count_eq_of_intercalate_eq {keys : List String} {f g : String → List Char}
    (h : [c].intercalate (keys.map fun key => label key ++ f key) =
      [c].intercalate (keys.map fun key => label key ++ g key)) :
    (keys.map fun key => (f key).count c).sum = (keys.map fun key => (g key).count c).sum := by
  have hc := congrArg (List.count c) h
  simp only [count_intercalate, List.map_map, Function.comp_def, List.count_append,
    List.sum_map_add, List.length_map] at hc
  omega

end Joined

def column? (r : Record) (key : String) : Option String :=
  match r.values.get? key with
  | none | some .null => none
  | some value => some value.text

theorem column?_string {r : Record} {key text : String} (h : r.values.get? key = some (.string text)) :
    column? r key = some text := by
  rw [column?, h]
  rfl

def columnText (r : Record) (key : String) : String := (column? r key).getD ""

/-- How often the separator of the columns is in the text of each of them. -/
def separators (r : Record) (keys : List String) : List Nat :=
  keys.map fun key => (columnText r key).toList.count '\x1f'

def joined (r : Record) (keys : List String) : String :=
  "\x1f".intercalate (keys.map fun key => key ++ "=" ++ columnText r key)

variable {r r' : Record} {keys : List String}

theorem keyText_eq (h : ∀ key ∈ keys, (column? r key).isSome) : keyText r keys = .ok (joined r keys) := by
  refine bind_eq_ok.2 ⟨_, mapM_eq_ok_map fun key hkey => ?_, rfl⟩
  have hsome := h key hkey
  rw [column?] at hsome
  rw [columnText, column?]
  cases hv : r.values.get? key with
  | none =>
    rw [hv] at hsome
    cases hsome
  | some value =>
    rw [hv] at hsome
    cases value with
    | null => cases hsome
    | _ => rfl

theorem toList_joined (r : Record) (keys : List String) :
    (joined r keys).toList = ['\x1f'].intercalate
      (keys.map fun key => (key ++ "=").toList ++ (columnText r key).toList) := by
  rw [joined, String.toList_intercalate, List.map_map]
  simp only [Function.comp_def, String.toList_append]
  rfl

theorem joined_ne (hm : (separators r keys).sum = (separators r' keys).sum →
      separators r keys = separators r' keys)
    (hd : ∃ key ∈ keys, columnText r key ≠ columnText r' key) : joined r keys ≠ joined r' keys := by
  intro h
  have hlist := congrArg String.toList h
  rw [toList_joined, toList_joined] at hlist
  have hcount := List.map_inj_left.1 (hm (sum_count_eq_of_intercalate_eq hlist))
  obtain ⟨key, hkey, hne⟩ := hd
  exact hne (String.toList_inj.1 (eq_of_intercalate_eq hlist hcount key hkey))

/-- A record without an identity of its own that has all key columns. -/
structure Keyed (r : Record) (keys : List String) : Prop where
  id : r.id = ""
  held : ∀ key ∈ keys, (column? r key).isSome

theorem Keyed.columnText_ne (h : Keyed r keys) (h' : Keyed r' keys)
    (hd : ∃ key ∈ keys, column? r key ≠ column? r' key) :
    ∃ key ∈ keys, columnText r key ≠ columnText r' key := by
  obtain ⟨key, hkey, hne⟩ := hd
  obtain ⟨text, ht⟩ := Option.isSome_iff_exists.1 (h.held key hkey)
  obtain ⟨text', ht'⟩ := Option.isSome_iff_exists.1 (h'.held key hkey)
  refine ⟨key, hkey, fun he => hne ?_⟩
  rw [columnText, columnText, ht, ht'] at he
  rw [ht, ht']
  exact congrArg some he

theorem Keyed.ofRecord_eq {schema : Schema} (h : Keyed r schema.primaryKeys)
    (hk : schema.primaryKeys ≠ []) :
    ofRecord schema r = .ok (.given (Digest.Uuid.ofName Digest.Uuid.objects
      (Text.utf8 (joined r schema.primaryKeys)))) := by
  rw [ofRecord, if_neg (by simp [h.id]), if_neg hk, keyText_eq h.held]
  rfl

section Missing

variable {schema : Schema}

theorem of_ofRecord_eq_error {e : Error} (h : ofRecord schema r = .error e) :
    schema.primaryKeys ≠ [] ∧
      ∃ key ∈ schema.primaryKeys, column? r key = none ∧ e = .missingKey key := by
  rw [ofRecord] at h
  split at h
  next => cases h
  next =>
    split at h
    next => cases h
    next hk =>
      refine ⟨hk, ?_⟩
      cases ht : keyText r schema.primaryKeys with
      | ok text => rw [ht] at h; cases h
      | error e' =>
        rw [ht] at h
        cases h
        rcases bind_eq_error.1 ht with ht | ⟨parts, -, ht⟩
        · obtain ⟨key, hkey, he⟩ := exists_of_mapM_eq_error ht
          refine ⟨key, hkey, ?_⟩
          split at he
          next hv => cases he; exact ⟨by simp only [column?, hv], rfl⟩
          next hv => cases he; exact ⟨by simp only [column?, hv], rfl⟩
          next => cases he
        · cases ht

theorem eq_given {identity : Identity} (h : ofRecord schema r = .ok identity) (hr : r.id ≠ "") :
    identity = .given r.id := by
  rw [ofRecord, if_pos hr] at h
  exact (Except.ok.inj h).symm

theorem primaryKeys_eq_nil (h : ofRecord schema r = .ok .fresh) : schema.primaryKeys = [] := by
  rw [ofRecord] at h
  split at h
  next => cases h
  next =>
    split at h
    next hk => exact hk
    next => obtain ⟨_, -, h⟩ := map_eq_ok.1 h; cases h

end Missing

end Identity

end Corpus
