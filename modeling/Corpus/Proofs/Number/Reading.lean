import Corpus.Number.Numeral
import Corpus.Proofs.Number.Key
import Corpus.Proofs.Number.Neutral
import Corpus.Proofs.Text.Blank

/-! Written numbers read back as what they were written for. -/

namespace Corpus.Number

theorem isDigit_eq (c : Char) : isDigit c = c.isDigit := by
  rw [isDigit, Char.isDigit, Bool.eq_iff_iff]
  simp [Char.le_def]

def isDigitOrPoint (c : Char) : Bool := isDigit c || c = '.'

theorem isDigit_of_mem_toDigits {n : Nat} {c : Char} (h : c ∈ Nat.toDigits 10 n) : isDigit c := by
  rw [isDigit_eq]
  exact Nat.isDigit_of_mem_toDigits (by decide) (by decide) h

theorem isBlank_of_isDigit {c : Char} (h : isDigit c) : Text.isBlank c = false := by
  simp only [isDigit, Bool.and_eq_true, decide_eq_true_eq, Char.le_def, UInt32.le_iff_toNat_le] at h
  change 48 ≤ c.toNat ∧ c.toNat ≤ 57 at h
  rw [Text.isBlank, Bool.eq_false_iff]
  simp [Text.blanks, Text.Runs.has]
  omega

theorem ofDigits_eq (ds : List Char) : ofDigits ds = Nat.ofDigitChars 10 ds 0 := by
  rw [Nat.ofDigitChars_eq_foldl]
  rfl

@[simp] theorem ofDigits_toDigits (n : Nat) : ofDigits (Nat.toDigits 10 n) = n := by
  rw [ofDigits_eq, Nat.ofDigitChars_ten_toDigits]

theorem ofDigits_append_zeros (ds : List Char) (n : Nat) :
    ofDigits (ds ++ List.replicate n '0') = ofDigits ds * 10 ^ n := by
  rw [ofDigits_eq, ofDigits_eq, Nat.ofDigitChars_append, Nat.ofDigitChars_replicate_zero,
    Nat.mul_comm]

theorem ofDigits_zeros_append (n : Nat) (ds : List Char) :
    ofDigits (List.replicate n '0' ++ ds) = ofDigits ds := by
  rw [ofDigits_eq, ofDigits_eq, Nat.ofDigitChars_append, Nat.ofDigitChars_replicate_zero,
    Nat.mul_zero]

theorem takeWhile_isDigit {ds : List Char} (h : ∀ c ∈ ds, isDigit c) : ds.takeWhile isDigit = ds :=
  List.takeWhile_eq_self_iff.2 h

theorem dropWhile_isDigit {ds : List Char} (h : ∀ c ∈ ds, isDigit c) : ds.dropWhile isDigit = [] :=
  List.dropWhile_eq_nil_iff.2 h

theorem readDecimal_whole {whole : List Char} (h : ∀ c ∈ whole, isDigit c) (hne : whole ≠ []) :
    readDecimal whole = some ⟨ofDigits whole, 0⟩ := by
  rw [readDecimal, takeWhile_isDigit h, dropWhile_isDigit h]
  simp [hne, readExponent]

theorem readDecimal_pointed {whole fraction : List Char} (hw : ∀ c ∈ whole, isDigit c)
    (hf : ∀ c ∈ fraction, isDigit c) (hne : whole ≠ []) :
    readDecimal (whole ++ '.' :: fraction) =
      some ⟨ofDigits (whole ++ fraction), -fraction.length⟩ := by
  have hpoint : isDigit '.' = false := by decide
  have htake : (whole ++ '.' :: fraction).takeWhile isDigit = whole := by
    rw [List.takeWhile_append_of_pos hw, List.takeWhile_cons_of_neg (by simp [hpoint]),
      List.append_nil]
  have hdrop : (whole ++ '.' :: fraction).dropWhile isDigit = '.' :: fraction := by
    rw [List.dropWhile_append_of_pos hw, List.dropWhile_cons_of_neg (by simp [hpoint])]
  rw [readDecimal, htake, hdrop]
  simp [takeWhile_isDigit hf, dropWhile_isDigit hf, hne, readExponent]

namespace Decimal

theorem length_le_iff {n k : Nat} (hk : 0 < k) : length n ≤ k ↔ n < 10 ^ k :=
  Nat.length_toDigits_le_iff (by decide) hk

theorem length_pos (n : Nat) : 0 < length n := Nat.length_toDigits_pos

theorem length_mul_pow {n : Nat} (hn : 0 < n) (k : Nat) : length (n * 10 ^ k) = length n + k := by
  induction k with
  | zero => simp
  | succ k ih =>
    have hpos : 0 < n * 10 ^ k := Nat.mul_pos hn (Nat.pow_pos (by decide))
    have h := Nat.toDigits_append_toDigits (b := 10) (d := 0) (by decide) hpos (by decide)
    rw [Nat.pow_succ, ← Nat.mul_assoc, ← Nat.add_assoc, ← ih, Nat.mul_comm _ 10]
    exact (congrArg List.length h).symm.trans List.length_append

theorem nearest_mul_pow (f : Format) (digits n : Nat) :
    nearest f ⟨digits * 10 ^ n, 0⟩ = nearest f ⟨digits, n⟩ := by
  cases Nat.eq_zero_or_pos digits with
  | inl h => simp [nearest, h]
  | inr h =>
    have hpos : digits * 10 ^ n ≠ 0 := Nat.ne_of_gt (Nat.mul_pos h (Nat.pow_pos (by decide)))
    have htop : (0 : Int) + length (digits * 10 ^ n) = (n : Int) + length digits := by
      rw [length_mul_pow h]
      omega
    simp only [nearest, hpos, Nat.ne_of_gt h, htop, Nat.pow_eq, Int.toNat_zero, Nat.pow_zero,
      Nat.mul_one, Int.toNat_natCast, Int.neg_zero]
    rw [show (-(n : Int)).toNat = 0 by omega, Nat.pow_zero]

theorem isDigit_of_mem_split {d : Decimal} :
    (∀ c ∈ d.split.1, isDigit c) ∧ (∀ c ∈ d.split.2, isDigit c) ∧ d.split.1 ≠ [] := by
  have hchars : ∀ c ∈ d.chars, isDigit c := fun c hc => isDigit_of_mem_toDigits hc
  have hzeros (n : Nat) : ∀ c ∈ List.replicate n '0', isDigit c := by
    intro c hc
    rw [(List.mem_replicate.1 hc).2]
    rfl
  have hne : d.chars ≠ [] := Nat.toDigits_ne_nil
  rw [split]
  split
  next =>
    refine ⟨List.forall_mem_append.2 ⟨hchars, hzeros _⟩, nofun, ?_⟩
    simp [hne]
  next n =>
    split
    next h =>
      rw [List.splitAt_eq]
      refine ⟨fun c hc => hchars c (List.mem_of_mem_take hc),
        fun c hc => hchars c (List.mem_of_mem_drop hc), ?_⟩
      simp only [ne_eq, List.take_eq_nil_iff, hne, or_false]
      omega
    next => exact ⟨by simp [isDigit], List.forall_mem_append.2 ⟨hzeros _, hchars⟩, by simp⟩

def ofSplit (parts : List Char × List Char) : Decimal :=
  ⟨ofDigits (parts.1 ++ parts.2), -parts.2.length⟩

theorem nearest_ofSplit_split (f : Format) (d : Decimal) : (ofSplit d.split).nearest f = d.nearest f := by
  obtain ⟨digits, exponent⟩ := d
  have hchars : ofDigits (Decimal.chars ⟨digits, exponent⟩) = digits := ofDigits_toDigits digits
  rw [split, ofSplit]
  cases exponent with
  | ofNat n =>
    simp only [List.append_nil, List.length_nil, ofDigits_append_zeros, hchars]
    exact nearest_mul_pow f digits n
  | negSucc n =>
    congr 1
    dsimp only
    split
    next h =>
      simp only [List.splitAt_eq, List.take_append_drop, hchars, List.length_drop]
      congr 1
      omega
    next h =>
      have hzero : ofDigits ('0' :: (List.replicate
          (n + 1 - (Decimal.chars ⟨digits, .negSucc n⟩).length) '0' ++
          Decimal.chars ⟨digits, .negSucc n⟩)) = digits := by
        rw [← List.cons_append, ← List.replicate_succ, ofDigits_zeros_append, hchars]
      simp only [List.cons_append, List.nil_append, hzero, List.length_append,
        List.length_replicate]
      congr 1
      omega

theorem readDecimal_positional (d : Decimal) :
    readDecimal d.positional.toList = some (ofSplit d.split) := by
  have ⟨hw, hf, hne⟩ := d.isDigit_of_mem_split
  rw [positional]
  split
  next whole hs =>
    rw [hs] at hw hne ⊢
    rw [String.toList_ofList, readDecimal_whole hw hne, ofSplit, List.append_nil]
    rfl
  next whole fraction _ hs =>
    rw [hs] at hw hf hne ⊢
    rw [String.toList_ofList, readDecimal_pointed hw hf hne, ofSplit]

end Decimal

namespace Format

variable {f : Format}

theorem infinity_eq (f : Format) : f.infinity = (2 ^ f.exponentBits - 1) * f.block := by
  rw [infinity, Nat.one_shiftLeft]

theorem two_mul_block (hp : 0 < f.precision) : 2 * f.block = 2 ^ f.precision := by
  rw [block_eq, ← Nat.pow_succ']
  congr 1
  omega

theorem units_lt {m k : Nat} (h : m < (k + 1) * f.block) :
    f.units m < 2 ^ (f.precision - 1 + k) := by
  have hk : m / f.block < k + 1 := Nat.div_lt_of_lt_mul (Nat.mul_comm .. ▸ h)
  by_cases hm : m < f.block
  · rw [units, if_pos hm]
    rw [block_eq] at hm
    exact Nat.lt_of_lt_of_le hm (Nat.pow_le_pow_right (by decide) (Nat.le_add_right ..))
  · have hb := Nat.not_lt.1 hm
    have he : 1 ≤ m / f.block := (Nat.one_le_div_iff f.block_pos).2 hb
    refine Nat.lt_of_lt_of_le Nat.lt_log2_self (Nat.pow_le_pow_right (by decide) ?_)
    rw [log2_units hb]
    omega

theorem roundHalfEven_le (num den : Nat) : roundHalfEven num den ≤ num / den + 1 := by
  rw [roundHalfEven]
  split <;> omega

theorem nearest_lt_infinity {num den k : Nat} (h : num / den < 2 ^ (f.precision + k))
    (hp : 0 < f.precision) (hk : k + 2 < 2 ^ f.exponentBits - 1) : f.nearest num den < f.infinity := by
  generalize hs : (num / den).log2 + 1 - f.precision = shift
  have hshift : shift ≤ k := by
    by_cases h0 : num / den = 0
    · rw [h0, Nat.log2_zero] at hs
      omega
    · have := (Nat.log2_lt h0).2 h
      omega
  have hlt : num / den < 2 ^ (f.precision + shift) :=
    Nat.lt_of_lt_of_le Nat.lt_log2_self (Nat.pow_le_pow_right (by decide) (by omega))
  have hq : num / (den <<< shift) < 2 * f.block := by
    rw [Nat.shiftLeft_eq, ← Nat.div_div_eq_div_mul, two_mul_block hp]
    refine Nat.div_lt_of_lt_mul ?_
    rwa [← Nat.pow_add, Nat.add_comm]
  have hround := roundHalfEven_le num (den <<< shift)
  have hle : f.nearest num den ≤ (k + 2) * f.block := by
    rw [nearest, hs]
    refine Nat.le_trans (Nat.min_le_left ..) ?_
    rw [Nat.add_mul]
    exact Nat.add_le_add (Nat.mul_le_mul_right _ hshift) (by omega)
  rw [infinity_eq]
  exact Nat.lt_of_le_of_lt hle (Nat.mul_lt_mul_of_pos_right hk f.block_pos)

theorem nearest_exact (hp : 3 ≤ f.precision) (he : 0 < f.exponentBits) {m : Nat}
    (hm : m < f.infinity) : (f.exact m).nearest f = m := by
  have hbits : 2 ^ f.exponentBits = 2 * 2 ^ (f.exponentBits - 1) := by
    rw [← Nat.pow_succ']
    congr 1
    omega
  have hscale : f.scale = 2 ^ (f.exponentBits - 1) + f.precision - 3 := by
    rw [scale, Nat.one_shiftLeft]
  have hone := Nat.two_pow_pos (f.exponentBits - 1)
  have hunits : f.units m < 2 ^ (2 * f.scale) := by
    obtain ⟨k, hk⟩ : ∃ k, 2 ^ f.exponentBits - 1 = k + 1 := ⟨2 ^ f.exponentBits - 2, by omega⟩
    rw [infinity_eq, hk] at hm
    exact Nat.lt_of_lt_of_le (units_lt hm) (Nat.pow_le_pow_right (by decide) (by omega))
  -- the exact decimal has few enough digits to be read by its value
  have hdigits : f.units m * 5 ^ f.scale < 10 ^ (2 * f.scale) := by
    calc f.units m * 5 ^ f.scale < 2 ^ (2 * f.scale) * 5 ^ (2 * f.scale) :=
          Nat.mul_lt_mul_of_lt_of_le hunits (Nat.pow_le_pow_right (by decide) (by omega))
            (Nat.pow_pos (by decide))
      _ = 10 ^ (2 * f.scale) := by rw [← Nat.mul_pow]
  have hlength := (Decimal.length_le_iff (by omega)).2 hdigits
  have hpos := Decimal.length_pos (f.units m * 5 ^ f.scale)
  rw [Decimal.nearest, exact]
  dsimp only
  rw [Nat.pow_eq]
  split
  next h0 =>
    have hfive : 5 ^ f.scale ≠ 0 := Nat.ne_of_gt (Nat.pow_pos (by decide))
    exact (units_eq_zero.1 ((Nat.mul_eq_zero.1 h0).resolve_right hfive)).symm
  next =>
    have hnum : (f.units m * 5 ^ f.scale * 10 ^ (-(f.scale : Int)).toNat) <<< f.scale =
        f.units m * 10 ^ f.scale := by
      rw [show (-(f.scale : Int)).toNat = 0 by omega, Nat.pow_zero, Nat.mul_one, Nat.shiftLeft_eq,
        Nat.mul_assoc, ← Nat.mul_pow]
    rw [if_neg (by omega), if_neg (by omega), Nat.pow_eq, hnum, Nat.pow_eq, Int.neg_neg,
      Int.toNat_natCast]
    exact nearest_units (by omega) (Nat.le_of_lt hm) (Nat.pow_pos (by decide))

theorem nearest_decimalOf? {m count : Nat} {d : Decimal} (h : f.decimalOf? m count = some d) :
    d.nearest f = m := by
  unfold decimalOf? at h
  extract_lets num den exponent scaled grid below above readsBack at h
  split at h
  next hb => exact Option.some.inj h ▸ hb.1
  next =>
    split at h
    next ha => exact Option.some.inj h ▸ ha
    next => cases h

theorem nearest_shortestFrom {m fuel count : Nat} {d : Decimal}
    (h : f.shortestFrom m fuel count = some d) : d.nearest f = m := by
  induction fuel generalizing count with
  | zero => cases h
  | succ fuel ih =>
    rw [shortestFrom, Option.or_eq_some_iff] at h
    cases h with
    | inl h => exact nearest_decimalOf? h
    | inr h => exact ih h.2

theorem nearest_shortest (hp : 3 ≤ f.precision) (he : 0 < f.exponentBits) {m : Nat}
    (hm : m < f.infinity) : (f.shortest m).nearest f = m := by
  rw [shortest]
  cases h : f.shortestFrom m f.precision 1 with
  | none => exact nearest_exact hp he hm
  | some d => exact nearest_shortestFrom h

end Format

namespace Decimal

theorem lt_ten_pow_length (n : Nat) : n < 10 ^ length n :=
  (length_le_iff (length_pos n)).1 (Nat.le_refl _)

theorem nearest_lt_infinity {f : Format} (hp : 0 < f.precision) {d : Decimal} {top k : Nat}
    (hd : d.exponent + length d.digits ≤ top) (ht : top ≤ f.scale)
    (hbits : f.scale + 4 * top = f.precision + k) (hk : k + 2 < 2 ^ f.exponentBits - 1) :
    d.nearest f < f.infinity := by
  obtain ⟨digits, exponent⟩ := d
  have hinf : 0 < f.infinity := by
    rw [Format.infinity_eq]
    exact Nat.mul_pos (by omega) f.block_pos
  have hten : 10 ^ top ≤ 2 ^ (4 * top) := by
    rw [Nat.pow_mul]
    exact Nat.pow_le_pow_left (by decide) top
  have hnum : digits * 10 ^ exponent.toNat < 2 ^ (4 * top) * 10 ^ (-exponent).toNat := by
    calc digits * 10 ^ exponent.toNat < 10 ^ length digits * 10 ^ exponent.toNat :=
          Nat.mul_lt_mul_of_pos_right (lt_ten_pow_length digits) (Nat.pow_pos (by decide))
      _ = 10 ^ (length digits + exponent.toNat) := (Nat.pow_add ..).symm
      _ ≤ 10 ^ (top + (-exponent).toNat) :=
        Nat.pow_le_pow_right (by decide) (by dsimp only at hd; omega)
      _ = 10 ^ top * 10 ^ (-exponent).toNat := Nat.pow_add ..
      _ ≤ 2 ^ (4 * top) * 10 ^ (-exponent).toNat := Nat.mul_le_mul_right _ hten
  rw [nearest]
  dsimp only at hd ⊢
  split
  next => exact hinf
  next =>
    rw [if_neg (by omega)]
    split
    next => exact hinf
    next =>
      refine Format.nearest_lt_infinity (k := k) ?_ hp hk
      rw [← hbits, Nat.pow_add, Nat.pow_eq, Nat.pow_eq, Nat.shiftLeft_eq,
        Nat.div_lt_iff_lt_mul (Nat.pow_pos (by decide)), Nat.mul_comm, Nat.mul_assoc]
      exact Nat.mul_lt_mul_of_pos_left hnum (Nat.two_pow_pos _)

theorem nearest_le_infinity {f : Format} (d : Decimal) : d.nearest f ≤ f.infinity := by
  rw [nearest]
  split
  next => exact Nat.zero_le _
  next =>
    split
    next => exact Nat.le_refl _
    next =>
      split
      next => exact Nat.zero_le _
      next => exact Nat.min_le_right ..

theorem top_le_of_nearest_lt {f : Format} {d : Decimal} (h0 : d.digits ≠ 0)
    (h : d.nearest f < f.infinity) : d.exponent + length d.digits ≤ f.scale := by
  rw [nearest, if_neg h0] at h
  split at h
  next => exact absurd h (Nat.lt_irrefl _)
  next ht => exact Int.not_lt.1 ht

theorem nearest_double_lt_infinity {d : Decimal}
    (hd : d.exponent + length d.digits ≤ Format.single.scale) :
    d.nearest .double < Format.double.infinity :=
  nearest_lt_infinity (k := 1617) (by decide) hd (by decide) rfl (by decide)

end Decimal

theorem readSign_of_isDigit {c : Char} (h : isDigit c) (s : List Char) :
    readSign (c :: s) = (false, c :: s) := by
  rw [readSign.eq_def]
  split
  next => simp_all [isDigit]
  next => simp_all [isDigit]
  next => rfl

namespace Decimal

theorem exists_positional (d : Decimal) : ∃ c s, d.positional.toList = c :: s ∧ isDigit c := by
  obtain ⟨hw, -, hne⟩ := d.isDigit_of_mem_split
  rw [positional]
  obtain ⟨c, s, hs⟩ := List.exists_cons_of_ne_nil hne
  split
  next whole h =>
    rw [h] at hs hw
    exact ⟨c, s, by rw [String.toList_ofList]; exact hs, hw c (by rw [hs]; exact .head _)⟩
  next whole fraction _ h =>
    rw [h] at hs hw
    refine ⟨c, s ++ '.' :: fraction, ?_, hw c (by rw [hs]; exact .head _)⟩
    rw [String.toList_ofList, show whole = c :: s from hs, List.cons_append]

theorem isDigit_of_mem_positional {d : Decimal} {c : Char} (h : c ∈ d.positional.toList) :
    isDigit c ∨ c = '.' := by
  have ⟨hw, hf, _⟩ := d.isDigit_of_mem_split
  rw [positional] at h
  split at h
  next whole hs =>
    rw [hs] at hw
    rw [String.toList_ofList] at h
    exact .inl (hw c h)
  next whole fraction _ hs =>
    rw [hs] at hw hf
    rw [String.toList_ofList, List.mem_append, List.mem_cons] at h
    rcases h with h | h | h
    · exact .inl (hw c h)
    · exact .inr h
    · exact .inl (hf c h)

end Decimal

namespace Binary

variable {f g : Format} {x : Binary f}

theorem trimmed_signed (x : Binary f) (d : Decimal) :
    Text.trimmed (x.signed d.positional) = x.signed d.positional := by
  have hbody : ∀ c ∈ d.positional.toList, Text.isBlank c = false := by
    intro c hc
    rcases Decimal.isDigit_of_mem_positional hc with h | rfl
    · exact isBlank_of_isDigit h
    · decide
  refine Text.trimmed_of_forall fun c hc => ?_
  rw [signed] at hc
  split at hc
  next =>
    rw [String.toList_append, List.mem_append] at hc
    rcases hc with hc | hc
    · rw [List.mem_singleton.1 hc]
      decide
    · exact hbody c hc
  next => exact hbody c hc

def decimal (x : Binary f) : Decimal := if x.isZero then ⟨0, 0⟩ else f.shortest x.magnitude

theorem text_eq (hx : x.isFinite) : x.text = x.signed x.decimal.positional := by
  rw [text, write, isNaN_of_isFinite hx, isInfinite_of_isFinite hx, decimal,
    if_neg Bool.false_ne_true, if_neg Bool.false_ne_true]
  split <;> rfl

theorem nearest_decimal (hp : 3 ≤ f.precision) (he : 0 < f.exponentBits) (hx : x.isFinite) :
    x.decimal.nearest f = x.magnitude := by
  rw [decimal]
  split
  next h => exact (of_decide_eq_true h).symm
  next => exact Format.nearest_shortest hp he (of_decide_eq_true hx)

theorem ofText?_signed (x : Binary f) (d : Decimal) :
    (ofText? (x.signed d.positional) : Option (Binary g)) = some ⟨x.negative, d.nearest g⟩ := by
  obtain ⟨c, s, hs, hc⟩ := d.exists_positional
  have hread : readDecimal (c :: s) = some (Decimal.ofSplit d.split) :=
    hs ▸ d.readDecimal_positional
  rw [ofText?, signed]
  cases hn : x.negative with
  | true =>
    have hsign : readSign ('-' :: c :: s) = (true, c :: s) := rfl
    simp [hs, hsign, hread, Decimal.nearest_ofSplit_split]
  | false => simp [hs, readSign_of_isDigit hc, hread, Decimal.nearest_ofSplit_split]

theorem ofText?_text (hx : x.isFinite) :
    (ofText? x.text : Option (Binary g)) = some ⟨x.negative, x.decimal.nearest g⟩ := by
  rw [text_eq hx, ofText?_signed]

theorem trimmed_text (hx : x.isFinite) : Text.trimmed x.text = x.text := by
  rw [text_eq hx, trimmed_signed]

theorem ofText?_text_self (hp : 3 ≤ f.precision) (he : 0 < f.exponentBits) (hx : x.isFinite) :
    ofText? x.text = some x := by
  rw [ofText?_text hx, nearest_decimal hp he hx]

section Word

theorem toLower_ne_n {c : Char} (h : isDigitOrPoint c) : c.toLower ≠ 'n' := by
  have hval : c.val ≤ '9'.val := by
    simp only [isDigitOrPoint, isDigit, Bool.or_eq_true, Bool.and_eq_true, decide_eq_true_eq] at h
    obtain ⟨-, h⟩ | rfl := h
    · exact h
    · decide
  have hsmall : ¬('A'.val ≤ c.val ∧ c.val ≤ 'Z'.val) := fun hc =>
    absurd (UInt32.le_trans hc.1 hval) (by decide)
  have hlower : c.toLower = c := dif_neg hsmall
  rw [hlower]
  rintro rfl
  exact absurd hval (by decide)

theorem isNaN_ofText? {text : String} {b : Binary f} (h : ofText? text = some b)
    (hs : (readSign text.toList).2.head?.any isDigitOrPoint) : b.isNaN = false := by
  rw [ofText?] at h
  dsimp only at h
  split at h
  next decimal _ =>
    cases h
    exact decide_eq_false (Nat.not_lt.2 (Decimal.nearest_le_infinity decimal))
  next =>
    obtain ⟨word, hword, rfl⟩ := Option.map_eq_some_iff.1 h
    rw [readWord] at hword
    split at hword
    next =>
      cases hword
      exact decide_eq_false (Nat.lt_irrefl _)
    next =>
      obtain ⟨c, hc, hpoint⟩ := (Option.any_eq_true ..).1 hs
      obtain ⟨s, hs⟩ := List.head?_eq_some_iff.1 hc
      have hne : (c :: s).map Char.toLower ≠ "nan".toList := fun he =>
        toLower_ne_n hpoint (List.cons.inj he).1
      rw [hs, if_neg hne] at hword
      cases hword

end Word

section Int

variable {n : Int}

theorem negative_ofInt (n : Int) : (ofInt n : Binary f).negative = decide (n < 0) := by
  have hscale : (0 : Int) < (1 <<< f.scale : Nat) := by
    rw [Nat.one_shiftLeft]
    exact_mod_cast Nat.two_pow_pos f.scale
  rw [ofInt, ofUnits, decide_eq_decide]
  refine ⟨fun h => Int.not_le.1 fun hn => ?_, fun h => Int.mul_neg_of_neg_of_pos h hscale⟩
  exact Int.not_le.2 h (Int.mul_nonneg hn (Int.le_of_lt hscale))

theorem toString_eq (n : Int) :
    toString n = (ofInt n : Binary f).signed (Decimal.positional ⟨n.natAbs, 0⟩) := by
  have hwhole (m : Nat) : Decimal.positional ⟨m, 0⟩ = toString m := by
    rw [Nat.toString_eq_ofList_toDigits]
    exact congrArg String.ofList (List.append_nil _)
  rw [signed, negative_ofInt, hwhole]
  cases n with
  | ofNat m => rfl
  | negSucc m =>
    rw [if_pos (decide_eq_true (Int.negSucc_lt_zero m))]
    rfl

theorem nearest_natAbs (hp : 0 < f.precision) (hn : Decimal.length n.natAbs ≤ f.scale) :
    Decimal.nearest f ⟨n.natAbs, 0⟩ = (ofInt n : Binary f).magnitude := by
  have hmul : (n * (1 <<< f.scale : Nat)).natAbs = n.natAbs <<< f.scale := by
    rw [Int.natAbs_mul, Int.natAbs_natCast, Nat.one_shiftLeft, Nat.shiftLeft_eq]
  rw [ofInt, ofUnits, hmul, Decimal.nearest]
  split
  next h0 =>
    have h0 : n.natAbs = 0 := h0
    have hzero := Format.nearest_units hp (Nat.zero_le f.infinity) Nat.one_pos
    rw [Format.units_eq_zero.2 rfl, Nat.zero_mul] at hzero
    rw [h0, Nat.zero_shiftLeft, hzero]
  next =>
    dsimp only
    rw [if_neg (by omega), if_neg (by omega), Int.neg_zero, Int.toNat_zero, Nat.pow_eq,
      Nat.pow_zero, Nat.mul_one]

theorem ofText?_toString (hp : 0 < f.precision) (hn : Decimal.length n.natAbs ≤ f.scale) :
    (ofText? (toString n) : Option (Binary f)) = some (ofInt n) := by
  rw [toString_eq (f := f), ofText?_signed, nearest_natAbs hp hn]

theorem trimmed_toString (n : Int) : Text.trimmed (toString n) = toString n := by
  rw [toString_eq (f := .double), trimmed_signed]

theorem isFinite_ofInt (hn : Decimal.length n.natAbs ≤ Format.single.scale) :
    (ofInt n : Binary64).isFinite := by
  have hlt : Decimal.nearest .double ⟨n.natAbs, 0⟩ < Format.double.infinity :=
    Decimal.nearest_double_lt_infinity (by dsimp only; omega)
  rw [nearest_natAbs (by decide) (Nat.le_trans hn (by decide))] at hlt
  exact decide_eq_true hlt

end Int

section Single

variable {x : Binary32}

theorem nearest_decimal_lt_infinity (hx : x.isFinite) :
    x.decimal.nearest .double < Format.double.infinity := by
  by_cases h0 : x.decimal.digits = 0
  · rw [Decimal.nearest, if_pos h0]
    decide
  · refine Decimal.nearest_double_lt_infinity (Decimal.top_le_of_nearest_lt h0 ?_)
    rw [nearest_decimal (by decide) (by decide) hx]
    exact of_decide_eq_true hx

end Single

end Binary

end Corpus.Number
