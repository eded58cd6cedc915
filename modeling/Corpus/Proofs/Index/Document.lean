import Corpus.Proofs.Data.Dict
import Corpus.Proofs.Data.Failure
import Corpus.Proofs.Index.Facets

/-! What analysis makes of a record: a document of its identity, with at most one path in a field.  Columns
that are declared, but not indexed, leave no trace in it. -/

namespace Corpus

namespace Document

variable {schema : Schema} {analyzers : Analyzers}

theorem contents_names {values : List (String × Value)} {found : List (String × Content × Bool)}
    (h : contents schema analyzers values = .ok found) :
    (found.map (·.1)).Sublist (values.map (·.1)) := by
  induction values generalizing found with
  | nil => cases h; exact .slnil
  | cons value rest ih =>
    obtain ⟨name, value⟩ := value
    rw [contents] at h
    cases ht : typeOf? schema name value with
    | none =>
      rw [ht] at h
      obtain ⟨first?, hf, h⟩ := bind_eq_ok.1 h
      obtain ⟨later, hr, h⟩ := bind_eq_ok.1 h
      cases hf
      cases h
      exact (ih hr).cons _
    | some type =>
      rw [ht] at h
      obtain ⟨first?, hf, h⟩ := bind_eq_ok.1 h
      obtain ⟨later, hr, h⟩ := bind_eq_ok.1 h
      obtain ⟨content?, -, rfl⟩ := map_eq_ok.1 hf
      cases h
      cases content? with
      | none => exact (ih hr).cons _
      | some content => exact (ih hr).cons_cons _

variable {r : Record} {d : Document}

theorem ofRecord_id (h : ofRecord schema analyzers r = .ok d) : d.id = r.id := by
  obtain ⟨found, -, h⟩ := bind_eq_ok.1 h
  cases h
  rfl

theorem ofRecord_onePath (h : ofRecord schema analyzers r = .ok d) : Fields.OnePath d.fields := by
  obtain ⟨found, hc, h⟩ := bind_eq_ok.1 h
  cases h
  have hkeys : r.values.keys.Nodup :=
    List.pairwise_map.2 (r.values.ascending.imp fun hab he => by simp [he] at hab)
  have hone : Fields.OnePath (found.map fun f => (f.1, f.2.1)) := by
    refine Fields.onePath_of_nodup ?_
    rw [List.map_map]
    exact hkeys.sublist (contents_names hc)
  refine ((hone.append ?_).cons timestampField rfl).cons idField rfl
  intro f hf
  split at hf
  next => cases hf
  next => rw [List.mem_singleton.1 hf]; rfl

end Document

def Schema.hides (s : Schema) (name : String) : Bool := (s.column? name).any (! ·.indexed)

/-- Records of one identity that differ in hidden columns alone. -/
structure Record.Alike (s : Schema) (r r' : Record) : Prop where
  named : r.id ≠ ""
  id : r'.id = r.id
  table : r'.table = r.table
  timestamp : r'.timestamp = r.timestamp
  values : ∀ name, s.hides name = false → r'.values.get? name = r.values.get? name

theorem Record.Alike.setTable {s : Schema} {r r' : Record} (h : r.Alike s r') (name : String) :
    Record.Alike s { r with table := name } { r' with table := name } :=
  ⟨h.named, h.id, rfl, h.timestamp, h.values⟩

theorem Record.Alike.filter_values {s : Schema} {r r' : Record} (h : r.Alike s r') :
    (r'.values.filter fun name _ => !s.hides name) = r.values.filter fun name _ => !s.hides name := by
  refine Dict.ext_get? fun name => Option.ext fun value => ?_
  rw [Dict.get?_filter_eq_some, Dict.get?_filter_eq_some]
  refine and_congr_left fun hn => ?_
  rw [h.values name (by simpa using hn)]

namespace Document

variable {schema : Schema} {analyzers : Analyzers}

theorem typeOf?_of_hides {name : String} (h : schema.hides name) (value : Value) :
    typeOf? schema name value = none := by
  rw [typeOf?]
  rw [Schema.hides] at h
  cases hc : schema.column? name with
  | none => rw [hc] at h; cases h
  | some c =>
    have hi : c.indexed = false := by simpa [hc] using h
    simp [hi]

theorem contents_filter (values : List (String × Value)) :
    contents schema analyzers (values.filter fun v => !schema.hides v.1) =
      contents schema analyzers values := by
  induction values with
  | nil => rfl
  | cons v rest ih =>
    obtain ⟨name, value⟩ := v
    cases hn : schema.hides name with
    | true =>
      rw [List.filter_cons_of_neg (by simp [hn]), ih, contents, typeOf?_of_hides hn]
      cases contents schema analyzers rest <;> rfl
    | false => rw [List.filter_cons_of_pos (by simp [hn]), contents, contents, ih]

theorem ofRecord_of_alike {r r' : Record} (h : r.Alike schema r') :
    ofRecord schema analyzers r' = ofRecord schema analyzers r := by
  have hvalues := congrArg Dict.entries h.filter_values
  have hcontents : contents schema analyzers r'.values.entries =
      contents schema analyzers r.values.entries := by
    rw [← contents_filter r'.values.entries, ← contents_filter r.values.entries]
    exact congrArg _ hvalues
  rw [ofRecord, ofRecord, hcontents, h.id, h.timestamp]

end Document

end Corpus
