import Corpus.Data.Codec
import Mathlib.Algebra.GroupWithZero.Nat

/-! Canonical formats: of every run of bytes they read a value off the front just where the bytes begin
with what is written of it.  A format made of canonical ones is canonical. -/

namespace Corpus

open Text

namespace Text

theorem ofUtf8?_eq_some_iff {bytes : List UInt8} {s : String} :
    ofUtf8? bytes = some s ↔ bytes = utf8 s := by
  constructor
  · intro h
    rw [ofUtf8?, String.fromUTF8?] at h
    split at h
    next hv => cases h; rfl
    next => cases h
  · rintro rfl
    exact ofUtf8?_utf8 s

end Text

namespace Codec

variable {α β : Type}

/-- The values that can be written are those that `admits` says; a text of all other bytes is refused. -/
def Canonical (c : Codec α) (admits : α → Prop) : Prop :=
  ∀ bytes a rest, c.decode? bytes = some (a, rest) ↔ admits a ∧ bytes = c.encode a ++ rest

namespace Canonical

variable {c : Codec α} {d : Codec β} {P : α → Prop} {Q : β → Prop}

theorem decode?_append (h : c.Canonical P) {a : α} (ha : P a) (rest : List UInt8) :
    c.decode? (c.encode a ++ rest) = some (a, rest) :=
  (h _ a rest).2 ⟨ha, rfl⟩

theorem admits (h : c.Canonical P) {bytes : List UInt8} {a : α} {rest : List UInt8}
    (hd : c.decode? bytes = some (a, rest)) : P a :=
  ((h bytes a rest).1 hd).1

theorem eq_of_prefix (h : c.Canonical P) {a b : α} (ha : P a) (hb : P b)
    (hp : c.encode a <+: c.encode b) : a = b := by
  obtain ⟨rest, hr⟩ := hp
  have hread := h.decode?_append hb []
  rw [List.append_nil, ← hr, h.decode?_append ha] at hread
  exact congrArg Prod.fst (Option.some.inj hread)

theorem decode?_of_prefix (h : c.Canonical P) {a : α} (ha : P a) {bytes : List UInt8}
    (hp : bytes <+: c.encode a) (hne : bytes ≠ c.encode a) : c.decode? bytes = none := by
  cases hd : c.decode? bytes with
  | none => rfl
  | some read =>
    obtain ⟨b, rest⟩ := read
    obtain ⟨hb, rfl⟩ := (h bytes b rest).1 hd
    obtain rfl := h.eq_of_prefix hb ha ((List.prefix_append ..).trans hp)
    exact absurd (hp.eq_of_length_le (by simp)) hne

theorem nat (width : Nat) : (Codec.nat width).Canonical (· < 256 ^ width) := by
  show ∀ bytes n rest, decodeNat? width bytes = some (n, rest) ↔
    n < 256 ^ width ∧ bytes = encodeNat width n ++ rest
  intro bytes n rest
  induction width generalizing bytes n with
  | zero => simp [decodeNat?, encodeNat, eq_comm]
  | succ width ih =>
    cases bytes with
    | nil => simp [decodeNat?, encodeNat]
    | cons b bytes =>
      have hb := b.toNat_lt
      rw [decodeNat?, Option.bind_eq_bind, Option.bind_eq_some_iff, encodeNat, List.cons_append,
        List.cons.injEq, Nat.pow_succ]
      constructor
      · rintro ⟨⟨m, rest'⟩, hm, he⟩
        cases he
        obtain ⟨hlt, rfl⟩ := (ih bytes m).1 hm
        have hdiv : (b.toNat + 256 * m) / 256 = m := by omega
        refine ⟨by omega, UInt8.toNat_inj.1 ?_, by rw [hdiv]⟩
        rw [UInt8.toNat_ofNat']
        omega
      · rintro ⟨hlt, rfl, hbytes⟩
        refine ⟨(n / 256, rest), (ih bytes _).2 ⟨by omega, hbytes⟩, ?_⟩
        have hn : (UInt8.ofNat n).toNat + 256 * (n / 256) = n := by
          rw [UInt8.toNat_ofNat']
          exact Nat.mod_add_div n 256
        exact congrArg (fun m => some (m, rest)) hn

theorem word : Codec.word.Canonical (· < UInt64.size) := nat 8

theorem map {f : α → β} {g : β → α} (h : c.Canonical P) (hg : ∀ {b}, Q b → P (g b) ∧ f (g b) = b)
    (hf : ∀ {a}, P a → Q (f a) ∧ g (f a) = a) : (c.map f g).Canonical Q := by
  intro bytes b rest
  simp only [Codec.map, Option.map_eq_some_iff, Prod.exists, Prod.mk.injEq, h bytes]
  constructor
  · rintro ⟨a, _, ⟨ha, rfl⟩, rfl, rfl⟩
    exact ⟨(hf ha).1, by rw [(hf ha).2]⟩
  · rintro ⟨hb, rfl⟩
    exact ⟨g b, rest, ⟨(hg hb).1, rfl⟩, (hg hb).2, rfl⟩

theorem int : Codec.int.Canonical fun n => -(UInt64.size / 2 : Nat) ≤ n ∧ n < (UInt64.size / 2 : Nat) := by
  refine map word (fun {n} hn => ?_) fun {n} hn => ?_
  · simp only [UInt64.size] at hn ⊢
    split <;> omega
  · simp only [UInt64.size] at hn ⊢
    split <;> omega

theorem text : Codec.text.Canonical fun s => (utf8 s).length < UInt64.size := by
  intro bytes s rest
  simp only [Codec.text, Option.bind_eq_bind, Option.bind_eq_some_iff, Prod.exists, word bytes]
  constructor
  · rintro ⟨n, rest', ⟨hn, rfl⟩, hd⟩
    split at hd
    next => cases hd
    next hle =>
      obtain ⟨s', hs, he⟩ := Option.map_eq_some_iff.1 hd
      cases he
      have hlen := congrArg List.length (ofUtf8?_eq_some_iff.1 hs)
      rw [List.length_take, Nat.min_eq_left (Nat.not_lt.1 hle)] at hlen
      refine ⟨hlen ▸ hn, ?_⟩
      rw [← hlen, ← ofUtf8?_eq_some_iff.1 hs, List.append_assoc, List.take_append_drop]
  · rintro ⟨hs, rfl⟩
    refine ⟨_, utf8 s ++ rest, ⟨hs, List.append_assoc ..⟩, ?_⟩
    simp

theorem pair (h : c.Canonical P) (h' : d.Canonical Q) :
    (Codec.pair c d).Canonical fun ab => P ab.1 ∧ Q ab.2 := by
  intro bytes ⟨a, b⟩ rest
  simp only [Codec.pair, Option.bind_eq_bind, Option.bind_eq_some_iff, Prod.exists, h bytes]
  constructor
  · rintro ⟨a', rest', ⟨ha, rfl⟩, b', _, hb, he⟩
    cases he
    obtain ⟨hQ, rfl⟩ := (h' rest' b rest).1 hb
    exact ⟨⟨ha, hQ⟩, (List.append_assoc ..).symm⟩
  · rintro ⟨⟨ha, hb⟩, rfl⟩
    exact ⟨a, _, ⟨ha, List.append_assoc ..⟩, b, rest, h'.decode?_append hb rest, rfl⟩

theorem decodeMany? (h : c.Canonical P) (count : Nat) (bytes : List UInt8) (as : List α)
    (rest : List UInt8) : c.decodeMany? count bytes = some (as, rest) ↔
      as.length = count ∧ (∀ a ∈ as, P a) ∧ bytes = as.flatMap c.encode ++ rest := by
  induction count generalizing bytes as with
  | zero =>
    rw [Codec.decodeMany?, List.length_eq_zero_iff]
    constructor
    · intro he
      cases he
      exact ⟨rfl, nofun, rfl⟩
    · rintro ⟨rfl, -, rfl⟩
      rfl
  | succ count ih =>
    simp only [Codec.decodeMany?, Option.bind_eq_bind, Option.bind_eq_some_iff, Prod.exists, h bytes]
    constructor
    · rintro ⟨a, rest', ⟨ha, rfl⟩, as', _, hread, he⟩
      cases he
      obtain ⟨hlen, has, rfl⟩ := (ih rest' as').1 hread
      refine ⟨congrArg Nat.succ hlen, List.forall_mem_cons.2 ⟨ha, has⟩, ?_⟩
      rw [List.flatMap_cons, List.append_assoc]
    · rintro ⟨hlen, has, rfl⟩
      cases as with
      | nil => cases hlen
      | cons a as =>
        obtain ⟨ha, has⟩ := List.forall_mem_cons.1 has
        refine ⟨a, _, ⟨ha, ?_⟩, as, rest, (ih _ as).2 ⟨Nat.succ.inj hlen, has, rfl⟩, rfl⟩
        rw [List.flatMap_cons, List.append_assoc]

theorem list (h : c.Canonical P) :
    (Codec.list c).Canonical fun as => as.length < UInt64.size ∧ ∀ a ∈ as, P a := by
  intro bytes as rest
  simp only [Codec.list, Option.bind_eq_bind, Option.bind_eq_some_iff, Prod.exists, word bytes,
    h.decodeMany?]
  constructor
  · rintro ⟨_, _, ⟨hn, rfl⟩, rfl, has, rfl⟩
    exact ⟨⟨hn, has⟩, (List.append_assoc ..).symm⟩
  · rintro ⟨⟨hn, has⟩, rfl⟩
    exact ⟨as.length, _, ⟨hn, List.append_assoc ..⟩, rfl, has, rfl⟩

theorem option (h : c.Canonical P) : (Codec.option c).Canonical fun o => ∀ a ∈ o, P a := by
  intro bytes o rest
  simp only [Codec.option]
  split
  next bytes =>
    cases o with
    | none => simp
    | some a => simp
  next bytes =>
    cases o with
    | none => simp
    | some a => simp [h bytes]
  next h0 h1 =>
    cases o with
    | none => simpa using h0 rest
    | some a => simpa using fun _ => h1 (c.encode a ++ rest)

theorem either (h : c.Canonical P) (h' : d.Canonical Q) :
    (Codec.either c d).Canonical (Sum.elim P Q) := by
  intro bytes ab rest
  simp only [Codec.either, Option.bind_eq_bind, Option.bind_eq_some_iff, Prod.exists]
  constructor
  · rintro ⟨tag, rest', htag, hd⟩
    obtain ⟨-, rfl⟩ := (nat 4 bytes tag rest').1 htag
    split at hd
    next h0 =>
      obtain ⟨⟨a, _⟩, hread, he⟩ := Option.map_eq_some_iff.1 hd
      cases he
      obtain ⟨ha, rfl⟩ := (h rest' a _).1 hread
      exact ⟨ha, by rw [h0, List.append_assoc]; rfl⟩
    next =>
      split at hd
      next h1 =>
        obtain ⟨⟨b, _⟩, hread, he⟩ := Option.map_eq_some_iff.1 hd
        cases he
        obtain ⟨hb, rfl⟩ := (h' rest' b _).1 hread
        exact ⟨hb, by rw [h1, List.append_assoc]; rfl⟩
      next => cases hd
  · rintro ⟨hab, rfl⟩
    cases ab with
    | inl a =>
      refine ⟨0, c.encode a ++ rest, (nat 4 _ 0 _).2 ⟨by decide, List.append_assoc ..⟩, ?_⟩
      rw [if_pos rfl, h.decode?_append hab]
      rfl
    | inr b =>
      refine ⟨1, d.encode b ++ rest, (nat 4 _ 1 _).2 ⟨by decide, List.append_assoc ..⟩, ?_⟩
      rw [if_neg (by decide), if_pos rfl, h'.decode?_append hab]
      rfl

end Canonical

end Codec

end Corpus
