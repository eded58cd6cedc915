import Corpus.Proofs.Search.Recovery
import Corpus.Proofs.Text.Case

/-! A word in a column is found by its beginnings, except where small letters lead astray. -/

namespace Corpus

open Text

def Tokenizer.taken (maxBytes : Nat) (s : List Char) : List (List Char) :=
  (Word.pieces s).filter fun w => Word.hasAlphanumeric w && byteSize w ≤ maxBytes

theorem Tokenizer.map_text_wordTokens (maxBytes position offset : Nat) (pieces : List (List Char)) :
    (wordTokens maxBytes position offset pieces).map (·.text) =
      (pieces.filter fun w => Word.hasAlphanumeric w && byteSize w ≤ maxBytes).map String.ofList := by
  induction pieces generalizing position offset with
  | nil => rfl
  | cons piece rest ih =>
    rw [wordTokens, List.filter_cons]
    split
    next => rw [List.map_cons, List.map_cons, ih, Token.of]
    next => rw [ih]

theorem Filter.text_lowerToken (t : Token) :
    (lowerToken t).text = String.ofList (lowerWord t.text.toList) := by
  rw [lowerToken, lowerWord]
  split
  next => rfl
  next => exact String.ofList_toList.symm

theorem Analyzer.map_text_simple (text : String) :
    (simple.analyze text).map (·.text) =
      (Tokenizer.taken 255 text.toList).map fun w => String.ofList (lowerWord w) := by
  change ((Tokenizer.wordTokens 255 0 0 (Word.pieces text.toList)).map Filter.lowerToken).map _ = _
  have hlower : (fun t : Token => t.text) ∘ Filter.lowerToken =
      (fun s : String => String.ofList (lowerWord s.toList)) ∘ (·.text) :=
    funext Filter.text_lowerToken
  rw [List.map_map, hlower, ← List.map_map, Tokenizer.map_text_wordTokens, List.map_map]
  refine List.map_congr_left fun w _ => ?_
  rw [Function.comp_apply, String.toList_ofList]

/-- Columns whose text is cut into words in small letters, the values with their text. -/
inductive Schema.Simple (schema : Schema) (analyzers : Analyzers) (name : String) : Value → Prop
  | declared {c : Column} {v : Value} (hc : schema.column? name = some c) (hi : c.indexed)
    (ht : c.type = .string) (ha : analyzers.resolve c.analyzer = .ok .simple) (hv : v ≠ .null) :
    Simple schema analyzers name v
  | undeclared {s : String} (hc : schema.column? name = none) (ha : analyzers.default = .simple) :
    Simple schema analyzers name (.string s)

namespace Schema.Simple

variable {schema : Schema} {analyzers : Analyzers} {name : String} {v : Value}

theorem indexed? (h : schema.Simple analyzers name v) :
    Document.indexed? schema analyzers name v = .ok (some (.text (Analyzer.simple.analyze v.text))) := by
  cases h with
  | declared hc hi ht ha hv =>
    rw [Document.indexed?, Document.typeOf?, hc]
    dsimp only
    rw [if_pos hi, ht]
    dsimp only
    rw [Document.content?.eq_def, if_neg hv, Schema.analyzer?, hc]
    exact map_eq_ok.2 ⟨_, ha, rfl⟩
  | undeclared hc ha =>
    rw [Document.indexed?, Document.typeOf?, hc]
    change Document.content? _ _ _ .string _ = _
    rw [Document.content?.eq_def, if_neg (by simp), Schema.analyzer?, hc]
    exact map_eq_ok.2 ⟨_, congrArg _ ha, rfl⟩

theorem ofPrefix (h : schema.Simple analyzers name v) (htime : name ≠ timestampField) {start : String}
    (hkept : name = idField ∨ name = allField ∧ analyzers.default.lowercases = false →
      lowered start = start) (hstart : start ≠ "") (boost : Number.Binary32) :
    Plan.ofPrefix schema analyzers name start boost =
      .ok (.leaf (.prefixed name (lowered start)) boost) := by
  by_cases hid : name = idField
  · rw [hkept (.inl hid), hid]
    rfl
  by_cases hall : name = allField
  · have hcased : Plan.cased analyzers.default start = lowered start := by
      rw [Plan.cased]
      cases hlower : analyzers.default.lowercases with
      | true => rfl
      | false => exact (hkept (.inr ⟨hall, hlower⟩)).symm
    rw [hall, ← hcased]
    rfl
  rw [Plan.ofPrefix, Plan.indexing_of_ne hid htime hall]
  cases h with
  | @declared c _ hc hi ht ha =>
    have htext : c.indexing = .text c.analyzer := by rw [Column.indexing, hi, ht]; rfl
    rw [hc, Option.map_some, Option.getD_some, htext]
    exact map_eq_ok.2 ⟨_, ha, rfl⟩
  | undeclared hc ha =>
    rw [hc, if_neg hstart, if_neg hstart, ha]
    rfl

end Schema.Simple

namespace Plan

theorem isSome_prefixed {score : Scorer} {st : Statistics} {fields : Fields} {field start : String}
    {boost : Number.Binary32} :
    ((Plan.leaf (.prefixed field start) boost).score? score st fields).isSome ↔
      ∃ text ∈ fields.words field, start.toList <+: text.toList := by
  change (Option.isSome (ite _ _ _)) = true ↔ _
  simp only [Option.isSome_ite, List.any_eq_true, TermIndex.startsWith, List.isPrefixOf_iff_prefix]

/-- A word of a column is found by its beginnings, unless they stray. -/
theorem finds_prefixed {schema : Schema} {analyzers : Analyzers} {r : Record} {d : Document}
    (h : Document.ofRecord schema analyzers r = .ok d) {name : String} {v : Value}
    (hv : r.values.get? name = some v) (hs : schema.Simple analyzers name v)
    (htime : name ≠ timestampField) {start : String}
    (hkept : name = idField ∨ name = allField ∧ analyzers.default.lowercases = false →
      lowered start = start) (hstart : start ≠ "") (boost : Option Number.Binary32) :
    ∃ p, ofQuery schema analyzers (.field name (.prefixed start) boost) = .ok p ∧
      (∀ rest, start.toList ++ rest ∈ Tokenizer.taken 255 v.text.toList →
        ¬Strays start.toList rest → p.Finds d) ∧
      (name ≠ idField → name ≠ allField → (p.Finds d ↔
        ∃ w ∈ Tokenizer.taken 255 v.text.toList, lower start.toList <+: lowerWord w)) := by
  have hone := Document.ofRecord_onePath h
  refine ⟨.leaf (.prefixed name (lowered start)) (boost.getD 1),
    hs.ofPrefix htime hkept hstart _, fun rest hword hstrays => ?_, fun hid hall => ?_⟩
  · refine finds_of_isSome rfl hone fun _ _ => isSome_prefixed.2 ?_
    have htext : String.ofList (lowerWord (start.toList ++ rest)) ∈
        (Analyzer.simple.analyze v.text).map (·.text) := by
      rw [Analyzer.map_text_simple]
      exact List.mem_map_of_mem hword
    refine ⟨_, Fields.mem_words.2 ⟨_, Document.mem_fields h hv hs.indexed?, List.mem_map.1 htext⟩, ?_⟩
    rw [lowered, String.toList_ofList, String.toList_ofList]
    exact lower_prefix_lowerWord_iff.2 hstrays
  · obtain ⟨content?, hcontent, hheld⟩ := Document.ofRecord_held h hv hid htime hall
    rw [hs.indexed?] at hcontent
    cases hcontent
    refine finds_iff rfl hone fun _ _ => isSome_prefixed.trans ?_
    rw [Fields.words_of_held hheld, Analyzer.map_text_simple]
    simp only [List.mem_map, exists_exists_and_eq_and, lowered, String.toList_ofList]

def labelled : Schema := Schema.empty.addText idField (some "simple")

def streets : Record :=
  ⟨"1", "t", 0, .ofList [(idField, .string "Fuchs"), ("deutsch", .string "Am Roten Fuchs"),
    ("ελληνικά", .string "ΟΔΟΣΑ"), ("hrvatski", .string "ǅep")]⟩

theorem finds_prefixed_roten : ∃ d p,
    Document.ofRecord labelled (.withDefault "simple") streets = .ok d ∧
    ofQuery labelled (.withDefault "simple") (.field "deutsch" (.prefixed "Ro") none) = .ok p ∧
    p.Finds d := by
  have hd : (Document.ofRecord labelled (.withDefault "simple") streets).toOption.isSome := by
    decide +kernel
  obtain ⟨d, hd⟩ := Option.isSome_iff_exists.1 hd
  have hd := eq_ok_of_toOption hd
  have hv : streets.values.get? "deutsch" = some (.string "Am Roten Fuchs") := by decide +kernel
  have hword : "Ro".toList ++ "ten".toList ∈ Tokenizer.taken 255 "Am Roten Fuchs".toList := by
    decide +kernel
  have hstrays : ¬Strays "Ro".toList "ten".toList := by decide +kernel
  have hstart : "Ro" ≠ "" := by decide
  obtain ⟨p, hp, hfinds, -⟩ :=
    finds_prefixed hd hv (.undeclared rfl rfl) (by decide) (by decide) hstart none
  exact ⟨d, p, hd, hp, hfinds _ hword hstrays⟩

/-- Whether a word that a record has in a column is not found by its beginning. -/
def MissesWord (schema : Schema) (analyzers : Analyzers) (r : Record) (name start rest : String) : Prop :=
  ∃ v d p, r.values.get? name = some v ∧ schema.Simple analyzers name v ∧
    start.toList ++ rest.toList ∈ Tokenizer.taken 255 v.text.toList ∧
    Document.ofRecord schema analyzers r = .ok d ∧
    ofQuery schema analyzers (.field name (.prefixed start) none) = .ok p ∧ ¬p.Finds d

theorem missesWord_of_findsAlone {schema : Schema} {analyzers : Analyzers} {r : Record}
    {name start rest : String} {v : Value} (hv : r.values.get? name = some v)
    (hs : schema.Simple analyzers name v)
    (hword : start.toList ++ rest.toList ∈ Tokenizer.taken 255 v.text.toList)
    (h : (do
      let d ← Document.ofRecord schema analyzers r
      let p ← ofQuery schema analyzers (.field name (.prefixed start) none)
      return p.findsAlone d).toOption = some false) :
    MissesWord schema analyzers r name start rest := by
  obtain ⟨d, hd, h⟩ := bind_eq_ok.1 (eq_ok_of_toOption h)
  obtain ⟨p, hp, h⟩ := bind_eq_ok.1 h
  refine ⟨v, d, p, hv, hs, hword, hd, hp, fun hf => ?_⟩
  exact Bool.false_ne_true ((Except.ok.inj h).symm.trans (findsAlone_of_finds hf))

/-- A final sigma, a letter that is neither capital nor small, and a column with a reserved name. -/
theorem missesWord_streets :
    MissesWord labelled (.withDefault "simple") streets "ελληνικά" "ΟΔΟΣ" "Α" ∧
    MissesWord labelled (.withDefault "simple") streets "hrvatski" "ǅ" "ep" ∧
    MissesWord labelled (.withDefault "simple") streets idField "F" "uchs" := by
  have hcolumn : labelled.column? idField = some ⟨idField, .string, true, false, some "simple"⟩ := rfl
  refine ⟨?sigma, ?kept, ?identity⟩
  case sigma =>
    exact missesWord_of_findsAlone (v := .string "ΟΔΟΣΑ") (by decide +kernel) (.undeclared rfl rfl)
      (by decide +kernel) (by decide +kernel)
  case kept =>
    exact missesWord_of_findsAlone (v := .string "ǅep") (by decide +kernel) (.undeclared rfl rfl)
      (by decide +kernel) (by decide +kernel)
  case identity =>
    exact missesWord_of_findsAlone (v := .string "Fuchs") (by decide +kernel)
      (.declared hcolumn rfl rfl rfl nofun) (by decide +kernel) (by decide +kernel)

end Plan

end Corpus
