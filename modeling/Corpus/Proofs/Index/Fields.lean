import Corpus.Index.Segment
import Corpus.Proofs.Data.Dict

/-! What the fields of a document hold, read off the document itself. -/

namespace Corpus

open Number

def positionsOf (tokens : List Token) (text : String) : List Nat :=
  (tokens.filter (·.text = text)).map (·.position)

def Posting.of? (tokens : List Token) (text : String) : Option Posting :=
  match positionsOf tokens text with
  | [] => none
  | p :: ps => some ⟨(p :: ps).length, p :: ps, tokens.length⟩

theorem positionsOf_eq_nil (tokens : List Token) (text : String) :
    positionsOf tokens text = [] ↔ ∀ t ∈ tokens, t.text ≠ text := by
  simp [positionsOf]

theorem Posting.isSome_of? {tokens : List Token} {text : String} :
    (of? tokens text).isSome ↔ ∃ t ∈ tokens, t.text = text := by
  have h := positionsOf_eq_nil tokens text
  rw [of?]
  split
  next hp => simpa [hp] using h
  next p ps hp => simpa [hp] using h

theorem Posting.positions_of? {tokens : List Token} {text : String} {p : Posting}
    (h : of? tokens text = some p) : p.positions = positionsOf tokens text := by
  rw [of?] at h
  split at h
  next => cases h
  next q qs hp => cases h; exact hp.symm

namespace Content

def tokens? : Content → Option (List Token)
  | .text tokens => some tokens
  | _ => none

def number? : Content → Option Binary64
  | .number x => some x
  | _ => none

def path? : Content → Option Path
  | .facet path => some path
  | _ => none

end Content

abbrev Fields := List (String × Content)

namespace Fields

def read (kind : Content → Option α) (fields : Fields) (field : String) : List α :=
  fields.filterMap fun (name, content) => if name = field then kind content else none

def texts : Fields → String → List (List Token) := read Content.tokens?

def numbers : Fields → String → List Binary64 := read Content.number?

def paths : Fields → String → List Path := read Content.path?

/-- The posting of a term.  Of several values that hold it the last one counts. -/
def posting? (fields : Fields) (field text : String) : Option Posting :=
  ((texts fields field).filterMap (Posting.of? · text)).getLast?

def words (fields : Fields) (field : String) : List String :=
  (texts fields field).flatMap (·.map (·.text))

def lengths (fields : Fields) (field : String) : List Nat :=
  ((texts fields field).filter (· ≠ [])).map (·.length)

def keys (fields : Fields) (field : String) : List Nat :=
  ((numbers fields field).filter (! ·.isNaN)).map sortKey

theorem read_cons (kind : Content → Option α) (f : String × Content) (fields : Fields)
    (field : String) :
    read kind (f :: fields) field =
      (if f.1 = field then (kind f.2).toList else []) ++ read kind fields field := by
  by_cases h : f.1 = field <;> cases hk : kind f.2 <;> simp [read, h, hk]

theorem mem_read {kind : Content → Option α} {fields : Fields} {field : String} {a : α} :
    a ∈ read kind fields field ↔ ∃ content, (field, content) ∈ fields ∧ kind content = some a := by
  induction fields with
  | nil => simp [read]
  | cons f rest ih =>
    obtain ⟨name, content⟩ := f
    rw [read_cons, List.mem_append, ih]
    by_cases h : name = field
    · simp [h, or_and_right, exists_or]
    · have h' : field ≠ name := fun e => h e.symm
      simp [h, h']

theorem read_eq_of_mem {kind : Content → Option α} {fields : Fields} {field : String}
    {content : Content} (hn : (fields.map (·.1)).Nodup) (hm : (field, content) ∈ fields) :
    read kind fields field = (kind content).toList := by
  induction fields with
  | nil => cases hm
  | cons f rest ih =>
    rw [List.map_cons, List.nodup_cons] at hn
    rw [read_cons]
    cases hm with
    | head =>
      have hr : read kind rest field = [] := by
        refine List.eq_nil_iff_forall_not_mem.2 fun a ha => ?_
        obtain ⟨other, ho, -⟩ := mem_read.1 ha
        exact hn.1 (List.mem_map.2 ⟨_, ho, rfl⟩)
      rw [if_pos rfl, hr, List.append_nil]
    | tail _ hm =>
      have hf : f.1 ≠ field := fun e => hn.1 (List.mem_map.2 ⟨_, hm, e.symm⟩)
      rw [if_neg hf, List.nil_append, ih hn.2 hm]

theorem posting?_cons (f : String × Content) (fields : Fields) (field text : String) :
    posting? (f :: fields) field text =
      (posting? fields field text).or (posting? [f] field text) := by
  simp only [posting?, texts, read_cons, List.filterMap_append, List.getLast?_append]
  simp [read]

theorem posting?_singleton (name : String) (content : Content) (field text : String) :
    posting? [(name, content)] field text =
      if name = field then content.tokens?.bind (Posting.of? · text) else none := by
  by_cases h : name = field <;> cases hc : content.tokens? <;> simp [posting?, texts, read, h, hc]

theorem lengths_cons (f : String × Content) (fields : Fields) (field : String) :
    lengths (f :: fields) field = lengths [f] field ++ lengths fields field := by
  simp only [lengths, texts, read_cons, List.filter_append, List.map_append]
  simp [read]

theorem lengths_singleton (name : String) (content : Content) (field : String) :
    lengths [(name, content)] field =
      if name = field then (content.tokens?.toList.filter (· ≠ [])).map (·.length) else [] := by
  by_cases h : name = field <;> cases hc : content.tokens? <;> simp [lengths, texts, read, h, hc]

theorem mem_texts {fields : Fields} {field : String} {tokens : List Token} :
    tokens ∈ texts fields field ↔ (field, .text tokens) ∈ fields := by
  rw [texts, mem_read]
  constructor
  · intro ⟨content, hm, h⟩
    cases content <;> cases h
    exact hm
  · intro h
    exact ⟨_, h, rfl⟩

theorem mem_words {fields : Fields} {field text : String} :
    text ∈ words fields field ↔
      ∃ tokens, (field, .text tokens) ∈ fields ∧ ∃ t ∈ tokens, t.text = text := by
  simp only [words, List.mem_flatMap, mem_texts, List.mem_map]

theorem isSome_posting? {fields : Fields} {field text : String} :
    (posting? fields field text).isSome ↔ text ∈ words fields field := by
  rw [posting?, List.getLast?_isSome, ← List.length_pos_iff, List.length_pos_iff_exists_mem]
  simp only [List.mem_filterMap, words, List.mem_flatMap, List.mem_map, ← Posting.isSome_of?,
    Option.isSome_iff_exists]
  constructor
  · intro ⟨p, tokens, hm, hp⟩
    exact ⟨tokens, hm, p, hp⟩
  · intro ⟨tokens, hm, p, hp⟩
    exact ⟨p, tokens, hm, hp⟩

theorem posting?_eq_of_mem {fields : Fields} {field : String} {tokens : List Token}
    (hn : (fields.map (·.1)).Nodup) (hm : (field, .text tokens) ∈ fields) (text : String) :
    posting? fields field text = Posting.of? tokens text := by
  rw [posting?, texts, read_eq_of_mem hn hm]
  cases h : Posting.of? tokens text <;> simp [Content.tokens?, h]

theorem mem_numbers {fields : Fields} {field : String} {x : Binary64} :
    x ∈ numbers fields field ↔ (field, .number x) ∈ fields := by
  rw [numbers, mem_read]
  constructor
  · intro ⟨content, hm, h⟩
    cases content <;> cases h
    exact hm
  · intro h
    exact ⟨_, h, rfl⟩

theorem mem_paths {fields : Fields} {field : String} {path : Path} :
    path ∈ paths fields field ↔ (field, .facet path) ∈ fields := by
  rw [paths, mem_read]
  constructor
  · intro ⟨content, hm, h⟩
    cases content <;> cases h
    exact hm
  · intro h
    exact ⟨_, h, rfl⟩

end Fields

end Corpus
