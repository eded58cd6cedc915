/-! Steps that may fail, and walks over lists of them. -/

namespace Corpus

theorem bind_eq_ok {ε : Type u} {α β : Type v} {x : Except ε α} {f : α → Except ε β} {b : β} :
    x >>= f = .ok b ↔ ∃ a, x = .ok a ∧ f a = .ok b := by
  cases x with
  | error e => exact ⟨nofun, nofun⟩
  | ok a => exact ⟨fun h => ⟨a, rfl, h⟩, fun ⟨_, h, hf⟩ => by cases h; exact hf⟩

theorem bind_eq_error {ε : Type u} {α β : Type v} {x : Except ε α} {f : α → Except ε β} {e : ε} :
    x >>= f = .error e ↔ x = .error e ∨ ∃ a, x = .ok a ∧ f a = .error e := by
  cases x with
  | error e' =>
    constructor
    · intro h
      cases h
      exact .inl rfl
    · rintro (h | ⟨a, h, -⟩)
      · cases h
        rfl
      · cases h
  | ok a =>
    constructor
    · intro h
      exact .inr ⟨a, rfl, h⟩
    · rintro (h | ⟨b, h, hf⟩)
      · cases h
      · cases h
        exact hf

theorem map_eq_ok {ε : Type u} {α β : Type v} {x : Except ε α} {f : α → β} {b : β} :
    x.map f = .ok b ↔ ∃ a, x = .ok a ∧ f a = b := by
  cases x with
  | error e => exact ⟨nofun, nofun⟩
  | ok a => exact ⟨fun h => ⟨a, rfl, Except.ok.inj h⟩, fun ⟨_, h, hf⟩ => by cases h; rw [← hf]; rfl⟩

theorem map_eq_map {ε : Type u} {α β γ : Type v} {x : Except ε α} {y : Except ε β} {f : α → γ}
    {g : β → γ} (h : x.map f = y.map g) :
    (∃ e, x = .error e ∧ y = .error e) ∨ ∃ a b, x = .ok a ∧ y = .ok b ∧ f a = g b := by
  cases x with
  | error e =>
    cases y with
    | error e' => cases h; exact .inl ⟨e, rfl, rfl⟩
    | ok b => cases h
  | ok a =>
    cases y with
    | error e => cases h
    | ok b => exact .inr ⟨a, b, rfl, rfl, Except.ok.inj h⟩

theorem eq_ok_of_toOption {ε : Type u} {α : Type v} {x : Except ε α} {a : α}
    (h : x.toOption = some a) : x = .ok a := by
  cases x with
  | error e => cases h
  | ok b => cases h; rfl

variable {α : Type u} {β γ : Type v}

section Optional

variable {f : α → Option β}

theorem mapM_cons_eq_some {a : α} {l : List α} {r : List β} :
    (a :: l).mapM f = some r ↔ ∃ b bs, f a = some b ∧ l.mapM f = some bs ∧ r = b :: bs := by
  cases hb : f a <;> cases hbs : l.mapM f <;> simp [hb, hbs, eq_comm]

theorem isSome_mapM_iff {l : List α} : (l.mapM f).isSome ↔ ∀ a ∈ l, (f a).isSome := by
  induction l with
  | nil => simp
  | cons a rest ih =>
    rw [List.forall_mem_cons, ← ih]
    cases hb : f a <;> cases hbs : rest.mapM f <;> simp [hb, hbs]

theorem exists_mem_of_mapM {l : List α} {r : List β} (h : l.mapM f = some r) :
    ∀ a ∈ l, ∃ b ∈ r, f a = some b := by
  induction l generalizing r with
  | nil => exact nofun
  | cons a rest ih =>
    obtain ⟨b, bs, hb, hbs, rfl⟩ := mapM_cons_eq_some.1 h
    intro a' ha'
    cases ha' with
    | head => exact ⟨b, .head _, hb⟩
    | tail _ ha' =>
      obtain ⟨b', hb', he⟩ := ih hbs a' ha'
      exact ⟨b', .tail _ hb', he⟩

theorem exists_of_mem_mapM {l : List α} {r : List β} (h : l.mapM f = some r) :
    ∀ b ∈ r, ∃ a ∈ l, f a = some b := by
  induction l generalizing r with
  | nil => cases h; exact nofun
  | cons a rest ih =>
    obtain ⟨b, bs, hb, hbs, rfl⟩ := mapM_cons_eq_some.1 h
    intro b' hb'
    cases hb' with
    | head => exact ⟨a, .head _, hb⟩
    | tail _ hb' =>
      obtain ⟨a', ha', he⟩ := ih hbs b' hb'
      exact ⟨a', .tail _ ha', he⟩

theorem mapM_bind_mapM (g : β → Option γ) (l : List α) :
    (l.mapM f).bind (·.mapM g) = l.mapM fun a => (f a).bind g := by
  induction l with
  | nil => rfl
  | cons a rest ih =>
    simp only [List.mapM_cons, ← ih]
    cases f a with
    | none => rfl
    | some b => cases rest.mapM f <;> simp

theorem filterMap_of_mapM_eq_some (g : β → Option γ) {l : List α} {r : List β}
    (h : l.mapM f = some r) : r.filterMap g = l.filterMap fun a => (f a).bind g := by
  induction l generalizing r with
  | nil => cases h; rfl
  | cons a rest ih =>
    obtain ⟨b, bs, hb, hbs, rfl⟩ := mapM_cons_eq_some.1 h
    rw [List.filterMap_cons, List.filterMap_cons, ih hbs, hb, Option.bind_some]

end Optional

theorem exists_of_mem_mapM_eq_ok {ε : Type w} {f : α → Except ε β} {l : List α} {r : List β}
    (h : l.mapM f = .ok r) : ∀ b ∈ r, ∃ a ∈ l, f a = .ok b := by
  induction l generalizing r with
  | nil => cases h; exact nofun
  | cons a rest ih =>
    rw [List.mapM_cons] at h
    obtain ⟨b, hb, h⟩ := bind_eq_ok.1 h
    obtain ⟨bs, hbs, h⟩ := bind_eq_ok.1 h
    cases h
    intro b' hb'
    cases hb' with
    | head => exact ⟨a, .head _, hb⟩
    | tail _ hb' =>
      obtain ⟨a', ha', he⟩ := ih hbs b' hb'
      exact ⟨a', .tail _ ha', he⟩

theorem exists_of_mapM_eq_error {ε : Type w} {f : α → Except ε β} {l : List α} {e : ε}
    (h : l.mapM f = .error e) : ∃ a ∈ l, f a = .error e := by
  induction l with
  | nil => cases h
  | cons a rest ih =>
    rw [List.mapM_cons] at h
    rcases bind_eq_error.1 h with h | ⟨b, -, h⟩
    · exact ⟨a, .head _, h⟩
    · rcases bind_eq_error.1 h with h | ⟨bs, -, h⟩
      · obtain ⟨a', ha', he⟩ := ih h
        exact ⟨a', .tail _ ha', he⟩
      · cases h

theorem mapM_eq_ok_map {ε : Type w} {f : α → Except ε β} {g : α → β} {l : List α}
    (h : ∀ a ∈ l, f a = .ok (g a)) : l.mapM f = .ok (l.map g) := by
  induction l with
  | nil => rfl
  | cons a rest ih =>
    rw [List.forall_mem_cons] at h
    rw [List.mapM_cons, ih h.2, h.1]
    rfl

theorem mapM_eq_ite {ε : Type w} {f : α → Except ε β} {bad : α → Bool} {e : ε} {g : α → β} {l : List α}
    (h : ∀ a ∈ l, f a = if bad a then .error e else .ok (g a)) :
    l.mapM f = if l.any bad then .error e else .ok (l.map g) := by
  induction l with
  | nil => rfl
  | cons a rest ih =>
    rw [List.forall_mem_cons] at h
    rw [List.mapM_cons, ih h.2, h.1]
    cases ha : bad a <;> cases hr : rest.any bad <;> simp [ha, hr] <;> rfl

end Corpus
