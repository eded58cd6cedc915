import Corpus.Proofs.Index.Document

/-! What a document holds under a name, and which column of its record that comes from. -/

namespace Corpus

open Number

namespace Fields

def held (fields : Fields) (field : String) : List Content :=
  (fields.filter (·.1 = field)).map (·.2)

theorem held_cons (f : String × Content) (fields : Fields) (field : String) :
    held (f :: fields) field = (if f.1 = field then [f.2] else []) ++ held fields field := by
  by_cases h : f.1 = field <;> simp [held, h]

theorem held_append (fields more : Fields) (field : String) :
    held (fields ++ more) field = held fields field ++ held more field := by
  simp [held]

theorem mem_held {fields : Fields} {field : String} {content : Content} :
    content ∈ held fields field ↔ (field, content) ∈ fields := by
  simp only [held, List.mem_map, List.mem_filter, decide_eq_true_eq]
  constructor
  · rintro ⟨⟨name, c⟩, ⟨hm, rfl⟩, rfl⟩
    exact hm
  · intro h
    exact ⟨_, ⟨h, rfl⟩, rfl⟩

theorem held_eq_nil {fields : Fields} {field : String} (h : field ∉ fields.map (·.1)) :
    held fields field = [] :=
  List.eq_nil_iff_forall_not_mem.2 fun _ hc => h (List.mem_map.2 ⟨_, mem_held.1 hc, rfl⟩)

theorem read_eq_filterMap_held (kind : Content → Option α) (fields : Fields) (field : String) :
    read kind fields field = (held fields field).filterMap kind := by
  induction fields with
  | nil => rfl
  | cons f rest ih =>
    rw [read_cons, held_cons, List.filterMap_append, ih]
    by_cases h : f.1 = field <;> cases hk : kind f.2 <;> simp [h, hk]

theorem words_of_held {fields : Fields} {field : String} {tokens : List Token}
    (h : fields.held field = [.text tokens]) : fields.words field = tokens.map (·.text) := by
  rw [words, texts, read_eq_filterMap_held, h]
  exact List.append_nil _

end Fields

namespace Document

variable {schema : Schema} {analyzers : Analyzers}

def indexed? (schema : Schema) (analyzers : Analyzers) (name : String) (value : Value) :
    Except Error (Option Content) :=
  match typeOf? schema name value with
  | none => .ok none
  | some type => content? schema analyzers name type value

def columnFields (found : List (String × Content × Bool)) : Fields :=
  found.map fun (name, content, _) => (name, content)

theorem contents_cons {name : String} {value : Value} {rest : List (String × Value)}
    {found : List (String × Content × Bool)}
    (h : contents schema analyzers ((name, value) :: rest) = .ok found) :
    ∃ content? later, indexed? schema analyzers name value = .ok content? ∧
      contents schema analyzers rest = .ok later ∧
      found = content?.toList.map (name, ·, typeOf? schema name value == some .string) ++ later := by
  rw [contents] at h
  rw [indexed?]
  cases ht : typeOf? schema name value with
  | none =>
    rw [ht] at h
    obtain ⟨first?, hf, h⟩ := bind_eq_ok.1 h
    obtain ⟨later, hr, h⟩ := bind_eq_ok.1 h
    cases hf
    cases h
    exact ⟨none, later, rfl, hr, rfl⟩
  | some type =>
    rw [ht] at h
    obtain ⟨first?, hf, h⟩ := bind_eq_ok.1 h
    obtain ⟨later, hr, h⟩ := bind_eq_ok.1 h
    obtain ⟨content?, hc, rfl⟩ := map_eq_ok.1 hf
    cases h
    refine ⟨content?, later, hc, hr, ?_⟩
    cases content? <;> rfl

theorem mem_contents {values : List (String × Value)} {found : List (String × Content × Bool)}
    (h : contents schema analyzers values = .ok found) {name : String} {content : Content}
    {isText : Bool} :
    (name, content, isText) ∈ found ↔ ∃ value, (name, value) ∈ values ∧
      indexed? schema analyzers name value = .ok (some content) ∧
      (typeOf? schema name value == some .string) = isText := by
  induction values generalizing found with
  | nil =>
    cases h
    simp
  | cons entry rest ih =>
    obtain ⟨name', value'⟩ := entry
    obtain ⟨content?, later, hc, hr, rfl⟩ := contents_cons h
    rw [List.mem_append, ih hr, List.mem_map]
    constructor
    · rintro (⟨c, hm, he⟩ | ⟨value, hm, hvalue⟩)
      · cases he
        rw [Option.mem_toList.1 hm] at hc
        exact ⟨value', .head _, hc, rfl⟩
      · exact ⟨value, .tail _ hm, hvalue⟩
    · rintro ⟨value, hm, hi, rfl⟩
      cases hm with
      | head =>
        rw [hc] at hi
        exact .inl ⟨content, Option.mem_toList.2 (Except.ok.inj hi), rfl⟩
      | tail _ hm => exact .inr ⟨value, hm, hi, rfl⟩

theorem columnFields_names {values : List (String × Value)}
    {found : List (String × Content × Bool)} (h : contents schema analyzers values = .ok found) :
    ((columnFields found).map (·.1)).Sublist (values.map (·.1)) := by
  rw [columnFields, List.map_map]
  exact contents_names h

theorem held_columnFields {values : List (String × Value)} {found : List (String × Content × Bool)}
    (h : contents schema analyzers values = .ok found) (hn : (values.map (·.1)).Nodup)
    {name : String} {value : Value} (hm : (name, value) ∈ values) :
    ∃ content?, indexed? schema analyzers name value = .ok content? ∧
      (columnFields found).held name = content?.toList := by
  induction values generalizing found with
  | nil => cases hm
  | cons entry rest ih =>
    obtain ⟨name', value'⟩ := entry
    obtain ⟨content?, later, hc, hr, rfl⟩ := contents_cons h
    have hfields : columnFields (content?.toList.map
        (name', ·, typeOf? schema name' value' == some .string) ++ later) =
        content?.toList.map (name', ·) ++ columnFields later := by
      rw [columnFields, List.map_append, List.map_map]
      rfl
    rw [List.map_cons, List.nodup_cons] at hn
    rw [hfields, Fields.held_append]
    cases hm with
    | head =>
      have hlater := Fields.held_eq_nil fun hm => hn.1 ((columnFields_names hr).subset hm)
      refine ⟨content?, hc, ?_⟩
      rw [hlater, List.append_nil]
      cases content? <;> simp [Fields.held]
    | tail _ hm =>
      obtain ⟨content', hc', hheld⟩ := ih hr hn.2 hm
      have hne : name' ≠ name := fun he => hn.1 (he ▸ List.mem_map.2 ⟨_, hm, rfl⟩)
      refine ⟨content', hc', ?_⟩
      rw [hheld]
      cases content? <;> simp [Fields.held, hne]

variable {r : Record} {d : Document}

theorem ofRecord_fields (h : ofRecord schema analyzers r = .ok d) :
    ∃ found, contents schema analyzers r.values.entries = .ok found ∧
      d.fields = (idField, .text (analyzers.keyword.analyze r.id)) ::
        (timestampField, .number (.ofInt r.timestamp)) ::
        (columnFields found ++
          if allTokens found = [] then [] else [(allField, .text (allTokens found))]) := by
  obtain ⟨found, hc, h⟩ := bind_eq_ok.1 h
  cases h
  exact ⟨found, hc, rfl⟩

theorem mem_fields (h : ofRecord schema analyzers r = .ok d) {name : String} {value : Value}
    {content : Content} (hv : r.values.get? name = some value)
    (hi : indexed? schema analyzers name value = .ok (some content)) : (name, content) ∈ d.fields := by
  obtain ⟨found, hc, hf⟩ := ofRecord_fields h
  have hm := (mem_contents hc).2 ⟨value, Dict.get?_eq_some_iff.1 hv, hi, rfl⟩
  rw [hf]
  exact .tail _ (.tail _ (List.mem_append_left _ (List.mem_map.2 ⟨_, hm, rfl⟩)))

theorem ofRecord_held_eq (h : ofRecord schema analyzers r = .ok d) :
    ∃ found, contents schema analyzers r.values.entries = .ok found ∧
      ∀ name, name ≠ allField → Fields.held d.fields name =
        (if idField = name then [.text (analyzers.keyword.analyze r.id)] else []) ++
          ((if timestampField = name then [.number (.ofInt r.timestamp)] else []) ++
            (columnFields found).held name) := by
  obtain ⟨found, hc, hf⟩ := ofRecord_fields h
  refine ⟨found, hc, fun name hall => ?_⟩
  have hlast : Fields.held (if allTokens found = [] then []
      else [(allField, .text (allTokens found))]) name = [] := by
    split
    next => rfl
    next => simp [Fields.held, hall.symm]
  rw [hf, Fields.held_cons, Fields.held_cons, Fields.held_append, hlast, List.append_nil]

theorem held_columnFields_eq_nil {found : List (String × Content × Bool)}
    (h : contents schema analyzers r.values.entries = .ok found) {name : String}
    (hv : r.values.get? name = none) : (columnFields found).held name = [] := by
  refine Fields.held_eq_nil fun hm => ?_
  have hkey := Dict.mem_keys_iff.1 ((columnFields_names h).subset hm)
  rw [hv] at hkey
  cases hkey

theorem texts_columnFields_eq_nil {found : List (String × Content × Bool)}
    (h : contents schema analyzers r.values.entries = .ok found) {name : String}
    (hv : r.values.get? name = none) : Fields.texts (columnFields found) name = [] := by
  rw [Fields.texts, Fields.read_eq_filterMap_held, held_columnFields_eq_nil h hv]
  rfl

theorem ofRecord_held (h : ofRecord schema analyzers r = .ok d) {name : String} {value : Value}
    (hv : r.values.get? name = some value) (hid : name ≠ idField) (htime : name ≠ timestampField)
    (hall : name ≠ allField) :
    ∃ content?, indexed? schema analyzers name value = .ok content? ∧
      Fields.held d.fields name = content?.toList := by
  obtain ⟨found, hc, hheld⟩ := ofRecord_held_eq h
  obtain ⟨content?, hi, hcolumn⟩ :=
    held_columnFields hc r.values.nodup_keys (Dict.get?_eq_some_iff.1 hv)
  refine ⟨content?, hi, ?_⟩
  rw [hheld name hall, if_neg hid.symm, if_neg htime.symm, hcolumn, List.nil_append, List.nil_append]

theorem ofRecord_held_timestamp (h : ofRecord schema analyzers r = .ok d)
    (hv : r.values.get? timestampField = none) :
    Fields.held d.fields timestampField = [.number (.ofInt r.timestamp)] := by
  obtain ⟨found, hc, hheld⟩ := ofRecord_held_eq h
  rw [hheld timestampField (by decide), held_columnFields_eq_nil hc hv]
  rfl

theorem ofRecord_held_id (h : ofRecord schema analyzers r = .ok d) :
    ∃ column, Fields.held d.fields idField = .text (analyzers.keyword.analyze r.id) :: column ∧
      match r.values.get? idField with
      | none => column = []
      | some value => ∃ content?, indexed? schema analyzers idField value = .ok content? ∧
        column = content?.toList := by
  obtain ⟨found, hc, hheld⟩ := ofRecord_held_eq h
  refine ⟨(columnFields found).held idField, hheld idField (by decide), ?_⟩
  cases hv : r.values.get? idField with
  | none => exact held_columnFields_eq_nil hc hv
  | some value => exact held_columnFields hc r.values.nodup_keys (Dict.get?_eq_some_iff.1 hv)

end Document

end Corpus
