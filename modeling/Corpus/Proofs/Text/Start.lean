import Corpus.Text.Bytes
import Mathlib.Tactic.SplitIfs

/-! The order of texts is the order of their bytes.  Those with a given start are a run in it, which begins
where the start itself would stand. -/

namespace Corpus.Text

theorem utf8_eq_flatMap (s : String) : utf8 s = s.toList.flatMap String.utf8EncodeChar := by
  rw [utf8, String.toUTF8, ← String.utf8Encode_toList, List.utf8Encode, List.toList_data_toByteArray]

theorem ofNat_lt_ofNat {m n : Nat} (hm : m < 256) (hn : n < 256) : UInt8.ofNat m < UInt8.ofNat n ↔ m < n := by
  rw [UInt8.lt_iff_toNat_lt, UInt8.toNat_ofNat_of_lt' hm, UInt8.toNat_ofNat_of_lt' hn]

theorem ofNat_eq_ofNat {m n : Nat} (hm : m < 256) (hn : n < 256) : UInt8.ofNat m = UInt8.ofNat n ↔ m = n := by
  rw [← UInt8.toNat_inj, UInt8.toNat_ofNat_of_lt' hm, UInt8.toNat_ofNat_of_lt' hn]

theorem utf8EncodeChar_append_lt {c d : Char} (h : c < d) (u v : List UInt8) :
    String.utf8EncodeChar c ++ u < String.utf8EncodeChar d ++ v := by
  have hcd : c.val.toNat < d.val.toNat := UInt32.lt_iff_toNat_lt.1 h
  have hd : d.val.toNat < 0x110000 := by
    have hv := d.valid
    rw [UInt32.isValidChar, Nat.isValidChar] at hv
    omega
  simp only [String.utf8EncodeChar]
  generalize c.val.toNat = m at *
  generalize d.val.toNat = n at *
  have hm : m < 0x110000 := Nat.lt_trans hcd hd
  have hdigits {k : Nat} (hk : k < 0x110000) : k / 64 = 64 * (k / 4096) + k / 64 % 64 ∧
      k / 4096 = 64 * (k / 262144) + k / 4096 % 64 ∧ k / 262144 % 8 = k / 262144 := by omega
  obtain ⟨hm2, hm3, hm4⟩ := hdigits hm
  obtain ⟨hn2, hn3, hn4⟩ := hdigits hd
  -- where the two have different numbers of bytes, already the first ones differ
  split_ifs
  all_goals
    simp (disch := omega) only [List.cons_append, List.nil_append, List.cons_lt_cons_iff, ofNat_lt_ofNat,
      ofNat_eq_ofNat, hm4, hn4]
    omega

theorem flatMap_utf8EncodeChar_lt {s t : List Char} (h : s < t) :
    s.flatMap String.utf8EncodeChar < t.flatMap String.utf8EncodeChar := by
  induction s generalizing t with
  | nil =>
    cases t with
    | nil => exact absurd h (List.lt_irrefl [])
    | cons d ds =>
      obtain ⟨byte, rest, hd⟩ := List.exists_cons_of_ne_nil (String.utf8EncodeChar_ne_nil (c := d))
      rw [List.flatMap_cons, hd]
      exact List.nil_lt_cons ..
  | cons c cs ih =>
    cases t with
    | nil => exact absurd h (List.not_lt_nil _)
    | cons d ds =>
      rw [List.cons_lt_cons_iff] at h
      rw [List.flatMap_cons, List.flatMap_cons]
      cases h with
      | inl h => exact utf8EncodeChar_append_lt h ..
      | inr h =>
        obtain ⟨rfl, h⟩ := h
        exact List.append_left_lt (ih h)

theorem utf8_lt_utf8_iff {s t : String} : utf8 s < utf8 t ↔ s < t := by
  have hlt {s t : String} (h : s < t) : utf8 s < utf8 t := by
    rw [utf8_eq_flatMap, utf8_eq_flatMap]
    exact flatMap_utf8EncodeChar_lt h
  refine ⟨fun h => ?_, hlt⟩
  rcases Std.lt_trichotomy s t with hst | rfl | hts
  · exact hst
  · exact absurd h (List.lt_irrefl _)
  · exact absurd (List.lt_trans h (hlt hts)) (List.lt_irrefl _)

theorem utf8_prefix_utf8_iff {s t : String} : utf8 s <+: utf8 t ↔ s.toList <+: t.toList := by
  rw [utf8_eq_flatMap, utf8_eq_flatMap]
  constructor
  · rintro ⟨rest, h⟩
    generalize s.toList = cs at h
    generalize t.toList = ds at h
    induction cs generalizing ds with
    | nil => exact List.nil_prefix
    | cons c cs ih =>
      cases ds with
      | nil => simp [String.utf8EncodeChar_ne_nil] at h
      | cons d ds =>
        rw [List.flatMap_cons, List.flatMap_cons, List.append_assoc] at h
        obtain rfl : c = d := by
          rcases Std.lt_trichotomy c d with hlt | he | hlt
          · exact absurd (h ▸ utf8EncodeChar_append_lt hlt ..) (List.lt_irrefl _)
          · exact he
          · exact absurd (h ▸ utf8EncodeChar_append_lt hlt ..) (List.lt_irrefl _)
        exact List.cons_prefix_cons.2 ⟨rfl, ih ds (List.append_cancel_left h)⟩
  · rintro ⟨rest, h⟩
    rw [← h, List.flatMap_append]
    exact List.prefix_append ..

theorem not_lt_of_prefix {start text : List Char} (h : start <+: text) : ¬text < start := by
  obtain ⟨rest, rfl⟩ := h
  induction start with
  | nil => exact List.not_lt_nil _
  | cons c cs ih =>
    rw [List.cons_append, List.cons_lt_cons_iff]
    intro hlt
    cases hlt with
    | inl hc => exact Char.lt_irrefl c hc
    | inr hcs => exact ih hcs.2

theorem prefix_of_not_lt {start text later : List Char} (hs : ¬text < start) (hl : text < later)
    (h : start <+: later) : start <+: text := by
  obtain ⟨rest, rfl⟩ := h
  induction start generalizing text with
  | nil => exact List.nil_prefix
  | cons c cs ih =>
    cases text with
    | nil => exact absurd (List.nil_lt_cons c cs) hs
    | cons d ds =>
      rw [List.cons_append, List.cons_lt_cons_iff] at hl
      rw [List.cons_lt_cons_iff] at hs
      cases hl with
      | inl hd => exact absurd (.inl hd) hs
      | inr hd =>
        obtain ⟨rfl, hd⟩ := hd
        exact List.cons_prefix_cons.2 ⟨rfl, ih (fun hlt => hs (.inr ⟨rfl, hlt⟩)) hd⟩

theorem takeWhile_dropWhile_eq_filter {r : α → α → Prop} {below among : α → Bool}
    (hbelow : ∀ {a}, among a → below a = false)
    (hup : ∀ {a b}, r a b → below a = false → below b = false)
    (hrun : ∀ {a b}, r a b → below a = false → among b → among a) {l : List α}
    (h : l.Pairwise r) : (l.dropWhile below).takeWhile among = l.filter among := by
  induction l with
  | nil => rfl
  | cons a rest ih =>
    cases ha : below a with
    | true =>
      have hn : among a = false := by
        cases hm : among a with
        | false => rfl
        | true => exact absurd (hbelow hm) (by simp [ha])
      rw [List.dropWhile_cons, if_pos ha, List.filter_cons, if_neg (by simp [hn]), ih h.of_cons]
    | false =>
      -- nothing that is below comes after this one
      have hrest : ∀ b ∈ rest, below b = false := fun b hb => hup (List.rel_of_pairwise_cons h hb) ha
      rw [List.dropWhile_cons, if_neg (by simp [ha]), List.takeWhile_cons, List.filter_cons]
      cases hm : among a with
      | true =>
        have hdrop : rest.dropWhile below = rest := by
          cases rest with
          | nil => rfl
          | cons b rest => rw [List.dropWhile_cons, if_neg (by simp [hrest b (.head _)])]
        have := ih h.of_cons
        rw [hdrop] at this
        simp [this]
      | false =>
        refine (List.filter_eq_nil_iff.2 fun b hb hmb => ?_).symm
        simp [hrun (List.rel_of_pairwise_cons h hb) ha hmb] at hm

end Corpus.Text
