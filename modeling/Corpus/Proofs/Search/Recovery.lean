import Corpus.Plan.OfQuery
import Corpus.Proofs.Number.Reading
import Corpus.Proofs.Search.Finding
import Corpus.Schema

/-! What a column holds can be found by the text of its value. -/

namespace Corpus

open Number Text

/-- Values of a declared column that the text of the value is to find. -/
inductive Column.Recoverable (analyzers : Analyzers) (c : Column) : Value → Prop
  | string {v : Value} (ht : c.type = .string) (hv : v ≠ .null)
    (hw : ∀ a, analyzers.resolve c.analyzer = .ok a → a.analyze v.text ≠ []) :
    Recoverable analyzers c v
  | boolean {v : Value} (ht : c.type = .boolean) (hv : v ≠ .null)
    (hk : analyzers.keyword = .keyword) : Recoverable analyzers c v
  | facet (ht : c.type = .facet) (s : String) : Recoverable analyzers c (.string s)
  | number (ht : c.type.isNumeric) {s : String} {x : Binary64}
    (hs : Binary.ofText? (trimmed s) = some x) (hx : x.isFinite) : Recoverable analyzers c (.string s)

namespace Value

/-- Values of an undeclared column that the text of the value is to find. -/
inductive Recoverable (a : Analyzer) : Value → Prop
  | boolean (b : Bool) : Recoverable a (.boolean b)
  | integer {n : Int} (hl : -0x80000000 ≤ n) (hu : n < 0x80000000) : Recoverable a (.integer n)
  | long {n : Int} (hl : -0x8000000000000000 ≤ n) (hu : n < 0x8000000000000000) :
    Recoverable a (.long n)
  | float {x : Binary32} (hx : x.isFinite) : Recoverable a (.float x)
  | double {x : Binary64} (hx : x.isFinite) : Recoverable a (.double x)
  | string {s : String} (hw : a.analyze s ≠ []) : Recoverable a (.string s)

/-- Whether the text of a value leads back to it. -/
def Recovered (a : Analyzer) : Value → Prop
  | .boolean b => b = true ∨ a ≠ .standard
  | .float x => ∃ y, Binary.ofText? x.text = some y ∧ y.eq (x.convert .double)
  | _ => True

end Value

theorem Analyzers.default_withDefault (fallback : String) :
    (withDefault fallback).default = .standard ∨ (withDefault fallback).default = .simple ∨
      (withDefault fallback).default = .keyword := by
  simp only [default, get?, withDefault, List.lookup_cons]
  cases fallback == "standard" <;> cases fallback == "simple" <;> cases fallback == "keyword" <;> simp

namespace Plan

variable {schema : Schema} {analyzers : Analyzers} {r : Record} {d : Document} {name : String}

theorem hasOversized_ofTokens (field : String) (boost : Binary32) (tokens : List Token) :
    (ofTokens field boost tokens).hasOversized = false := by
  match tokens with
  | [] => rfl
  | [_] => rfl
  | _ :: _ :: _ => rfl

theorem indexing_of_ne (hid : name ≠ idField) (htime : name ≠ timestampField)
    (hall : name ≠ allField) :
    schema.indexing name = ((schema.column? name).map Column.indexing).getD .anywhere := by
  rw [Schema.indexing, if_neg hid, if_neg htime, if_neg hall]

theorem indexing_of_isNumeric {c : Column} (hi : c.indexed) (ht : c.type.isNumeric) :
    c.indexing = .number := by
  rw [Column.indexing, hi]
  cases hc : c.type <;> simp_all [ColumnType.isNumeric]

theorem content?_of_isNumeric {type : ColumnType} (ht : type.isNumeric) {s : String} {x : Binary64}
    (hs : Binary.ofText? (trimmed s) = some x) :
    Document.content? schema analyzers name type (.string s) = .ok (some (.number x)) := by
  cases type <;> simp_all [ColumnType.isNumeric, Document.content?, Document.number?]

/-- What an indexed, declared column holds is found by its own text in every index of its record. -/
theorem finds_declared (h : Document.ofRecord schema analyzers r = .ok d) {c : Column}
    (hc : schema.column? name = some c) (hi : c.indexed) (hid : name ≠ idField)
    (htime : name ≠ timestampField) (hall : name ≠ allField) {v : Value}
    (hv : r.values.get? name = some v) (hr : c.Recoverable analyzers v) (boost : Option Binary32) :
    ∃ p, ofQuery schema analyzers (.field name (.phrase v.text) boost) = .ok p ∧ p.Finds d := by
  have hone := Document.ofRecord_onePath h
  have hindexing : schema.indexing name = c.indexing := by
    rw [indexing_of_ne hid htime hall, hc]
    rfl
  obtain ⟨content?, hcontent, hheld⟩ := Document.ofRecord_held h hv hid htime hall
  have htype : Document.typeOf? schema name v = some c.type := by
    rw [Document.typeOf?, hc]
    exact if_pos hi
  rw [Document.indexed?, htype] at hcontent
  dsimp only at hcontent
  change ∃ p, ofValue schema analyzers name v.text (boost.getD 1) = .ok p ∧ p.Finds d
  rw [ofValue, hindexing]
  cases hr with
  | string ht hnull hw =>
    rw [ht, Document.content?.eq_def, if_neg hnull] at hcontent
    obtain ⟨a, ha, rfl⟩ := map_eq_ok.1 hcontent
    rw [Schema.analyzer?, hc] at ha
    have htext : c.indexing = .text c.analyzer := by rw [Column.indexing, hi, ht]; rfl
    refine ⟨ofText name v.text (boost.getD 1) a, ?_, ?_⟩
    · rw [htext]
      exact map_eq_ok.2 ⟨a, ha, rfl⟩
    · exact finds_of_isSome (hasOversized_ofTokens ..) hone fun _ _ =>
        isSome_ofTokens hheld (a.ascending_analyze v.text) (hw a ha)
  | boolean ht hnull hk =>
    rw [ht, Document.content?.eq_def, if_neg hnull] at hcontent
    have hflag : c.indexing = .flag := by rw [Column.indexing, hi, ht]; rfl
    rw [hflag]
    refine ⟨_, rfl, finds_of_isSome rfl hone fun _ _ => ?_⟩
    cases v with
    | boolean b =>
      cases hcontent
      rw [hk] at hheld
      refine (isSome_term hheld _).2 ⟨Token.of (Value.boolean b).text 0 0, ?_⟩
      cases b <;> decide
    | _ => cases hcontent
  | facet ht s =>
    rw [ht, Document.content?.eq_def, if_neg (by simp)] at hcontent
    cases hcontent
    have hfacet : c.indexing = .facet := by rw [Column.indexing, hi, ht]; rfl
    rw [hfacet]
    have hmem : Content.facet (pathOfText s) ∈ Fields.held d.fields name := by simp [hheld]
    refine ⟨_, rfl, finds_of_isSome rfl hone fun _ _ => (isSome_under hone _).2 ?_⟩
    exact ⟨pathOfText s, Fields.mem_paths.2 (Fields.mem_held.1 hmem), List.prefix_rfl⟩
  | @number ht s x hs hx =>
    rw [content?_of_isNumeric ht hs] at hcontent
    cases hcontent
    rw [indexing_of_isNumeric hi ht]
    have hmem : Content.number x ∈ Fields.held d.fields name := by simp [hheld]
    refine ⟨equalTo name x (boost.getD 1), ?_, finds_of_isSome rfl hone fun _ _ =>
      (isSome_equalTo hx).2 ⟨x, Fields.mem_numbers.2 (Fields.mem_held.1 hmem), ?_⟩⟩
    · dsimp only
      rw [number, number?, Value.text, hs]
      rfl
    · exact Binary.eq_self hx

def titled : Schema := Schema.empty.addText "title" (some "standard")

def essay : Record := ⟨"1", "t", 0, .ofList [("title", .string "The Cats of Rome")]⟩

theorem finds_declared_title : ∃ d p,
    Document.ofRecord titled (.withDefault "keyword") essay = .ok d ∧
    ofQuery titled (.withDefault "keyword") (.field "title" (.phrase "The Cats of Rome") none) =
      .ok p ∧ p.Finds d := by
  have hd : (Document.ofRecord titled (.withDefault "keyword") essay).toOption.isSome := by
    decide +kernel
  obtain ⟨d, hd⟩ := Option.isSome_iff_exists.1 hd
  have hd := eq_ok_of_toOption hd
  have hwords : Analyzer.standard.analyze "The Cats of Rome" ≠ [] := by decide +kernel
  have hc : titled.column? "title" = some ⟨"title", .string, true, false, some "standard"⟩ := rfl
  have hv : essay.values.get? "title" = some (.string "The Cats of Rome") := by decide
  obtain ⟨p, hp, hf⟩ := finds_declared hd hc rfl (by decide) (by decide) (by decide) hv
    (.string rfl nofun fun a ha => by cases ha; exact hwords) none
  exact ⟨d, p, hd, hp, hf⟩

theorem exists_anywhere (h : schema.indexing name = .anywhere) (analyzers : Analyzers) (text : String)
    (boost : Binary32) :
    ∃ p, ofValue schema analyzers name text boost = .ok p ∧ p.hasOversized = false ∧
      ∀ (score : Scorer) (st : Statistics) (fields : Fields), (p.score? score st fields).isSome ↔
        ((ofTokens name boost (analyzers.default.analyze text)).score? score st fields).isSome ∨
        (∃ x, number? text = some x ∧ ((equalTo name x boost).score? score st fields).isSome) ∨
        pathOfText text ≠ [] ∧
          ((Plan.leaf (.under name (pathOfText text)) boost).score? score st fields).isSome := by
  rw [ofValue, h]
  refine ⟨_, rfl, ?_, fun score st fields => ?_⟩
  · rw [hasOversized_anyOf, anyOversized_eq_any, List.any_append, List.any_append]
    cases number? text <;> split <;> split <;> simp [hasOversized_ofTokens, hasOversized, equalTo]
  · rw [isSome_score?_anyOf, List.any_append, List.any_append, Bool.or_eq_true, Bool.or_eq_true,
      or_assoc]
    refine or_congr ?_ (or_congr ?_ ?_)
    · split
      next hn => simp [hn, ofTokens, score?]
      next => simp
    · cases number? text <;> simp
    · split
      next hn => simp [hn]
      next hn => simp [hn]

theorem number?_toString {n : Int} (hn : n.natAbs < 10 ^ 19) :
    number? (toString n) = some (.ofInt n) ∧ (Binary.ofInt n : Binary64).isFinite := by
  have hlength : Decimal.length n.natAbs ≤ Format.single.scale :=
    (Decimal.length_le_iff (by decide)).2
      (Nat.lt_of_lt_of_le hn (Nat.pow_le_pow_right (by decide) (by decide)))
  refine ⟨?_, Binary.isFinite_ofInt hlength⟩
  rw [number?, Binary.trimmed_toString]
  exact Binary.ofText?_toString (by decide) (Nat.le_trans hlength (by decide))

section

variable {score : Scorer} {st : Statistics} {fields : Fields} {boost : Binary32} {text : String}

theorem isSome_alternatives_number {x y : Binary64} (h : fields.held name = [.number x])
    (hone : Fields.OnePath fields) (hy : number? text = some y) (hf : y.isFinite)
    (tokens : List Token) :
    (((ofTokens name boost tokens).score? score st fields).isSome ∨
      (∃ y, number? text = some y ∧ ((equalTo name y boost).score? score st fields).isSome) ∨
      pathOfText text ≠ [] ∧
        ((Plan.leaf (.under name (pathOfText text)) boost).score? score st fields).isSome) ↔
      y.eq x := by
  have htexts : fields.texts name = [] := by
    rw [Fields.texts, Fields.read_eq_filterMap_held, h]
    rfl
  have hpaths : fields.paths name = [] := by
    rw [Fields.paths, Fields.read_eq_filterMap_held, h]
    rfl
  have hnumbers : fields.numbers name = [x] := by
    rw [Fields.numbers, Fields.read_eq_filterMap_held, h]
    rfl
  rw [or_iff_right (isSome_ofTokens_of_texts htexts tokens)]
  simp [isSome_under hone, hpaths, hy, isSome_equalTo hf, hnumbers]

theorem isSome_alternatives_boolean {b : Bool}
    (h : fields.held name = [.text (Analyzer.keyword.analyze (Value.boolean b).text)])
    (hone : Fields.OnePath fields) {a : Analyzer} (ha : a = .standard ∨ a = .simple ∨ a = .keyword) :
    (((ofTokens name boost (a.analyze (Value.boolean b).text)).score? score st fields).isSome ∨
      (∃ y, number? (Value.boolean b).text = some y ∧
        ((equalTo name y boost).score? score st fields).isSome) ∨
      pathOfText (Value.boolean b).text ≠ [] ∧
        ((Plan.leaf (.under name (pathOfText (Value.boolean b).text)) boost).score? score st
          fields).isSome) ↔
      b = true ∨ a ≠ .standard := by
  have hpaths : fields.paths name = [] := by
    rw [Fields.paths, Fields.read_eq_filterMap_held, h]
    rfl
  have hnumber : number? (Value.boolean b).text = none := by cases b <;> decide +kernel
  have hheld : Analyzer.keyword.analyze (Value.boolean b).text = [.of (Value.boolean b).text 0 0] := by
    cases b <;> decide +kernel
  rw [hheld] at h
  have hfound (t : Token) : ((ofTokens name boost [t]).score? score st fields).isSome ↔
      (Value.boolean b).text = t.text := by
    refine (isSome_term h t.text).trans ?_
    simp [Token.of]
  have hwords : ((ofTokens name boost (a.analyze (Value.boolean b).text)).score? score st
      fields).isSome ↔ b = true ∨ a ≠ .standard := by
    -- the stemmer takes the end off `false`
    have hstandard : Analyzer.standard.analyze (Value.boolean b).text =
        [⟨if b then "true" else "fals", 0, 0, 4⟩] := by
      cases b <;> decide +kernel
    have hsimple : Analyzer.simple.analyze (Value.boolean b).text = [.of (Value.boolean b).text 0 0] := by
      cases b <;> decide +kernel
    have hne : Analyzer.simple ≠ .standard ∧ Analyzer.keyword ≠ .standard := by decide
    rcases ha with rfl | rfl | rfl
    · rw [hstandard, hfound]
      cases b <;> simp [Value.text]
    · rw [hsimple, hfound]
      exact iff_of_true rfl (.inr hne.1)
    · rw [hheld, hfound]
      exact iff_of_true rfl (.inr hne.2)
  rw [hwords, hnumber]
  simp [isSome_under hone, hpaths]

end

/-- A value is found by its own text, unless it is `false` or a single that is another double. -/
theorem finds_undeclared {fallback : String}
    (h : Document.ofRecord schema (.withDefault fallback) r = .ok d)
    (hc : schema.column? name = none) (hid : name ≠ idField) (htime : name ≠ timestampField)
    (hall : name ≠ allField) {v : Value} (hv : r.values.get? name = some v)
    (hr : v.Recoverable (Analyzers.withDefault fallback).default) (boost : Option Binary32) :
    ∃ p, ofQuery schema (.withDefault fallback) (.field name (.phrase v.text) boost) = .ok p ∧
      (p.Finds d ↔ v.Recovered (Analyzers.withDefault fallback).default) := by
  have hone := Document.ofRecord_onePath h
  have hindexing : schema.indexing name = .anywhere := by
    rw [indexing_of_ne hid htime hall, hc]
    rfl
  obtain ⟨content?, hcontent, hheld⟩ := Document.ofRecord_held h hv hid htime hall
  have htype : Document.typeOf? schema name v = v.type? := by rw [Document.typeOf?, hc]
  rw [Document.indexed?, htype] at hcontent
  obtain ⟨p, hp, hover, hsome⟩ :=
    exists_anywhere hindexing (.withDefault fallback) v.text (boost.getD 1)
  refine ⟨p, hp, finds_iff hover hone fun score st => (hsome score st d.fields).trans ?_⟩
  cases hr with
  | boolean b =>
    cases hcontent
    exact isSome_alternatives_boolean hheld hone (Analyzers.default_withDefault fallback)
  | @integer n hl hu =>
    cases hcontent
    obtain ⟨hread, hf⟩ := number?_toString (n := n) (by omega)
    exact (isSome_alternatives_number hheld hone hread hf _).trans
      (iff_of_true (Binary.eq_self hf) trivial)
  | @long n hl hu =>
    cases hcontent
    obtain ⟨hread, hf⟩ := number?_toString (n := n) (by omega)
    exact (isSome_alternatives_number hheld hone hread hf _).trans
      (iff_of_true (Binary.eq_self hf) trivial)
  | @float x hx =>
    cases hcontent
    have hread : number? x.text = some ⟨x.negative, x.decimal.nearest .double⟩ := by
      rw [number?, Binary.trimmed_text hx, Binary.ofText?_text hx]
    have hf : Binary.isFinite ⟨x.negative, x.decimal.nearest .double⟩ :=
      decide_eq_true (Binary.nearest_decimal_lt_infinity hx)
    refine (isSome_alternatives_number hheld hone hread hf _).trans ?_
    simp [Value.Recovered, Binary.ofText?_text hx]
  | @double x hx =>
    cases hcontent
    have hread : number? x.text = some x := by
      rw [number?, Binary.trimmed_text hx, Binary.ofText?_text_self (by decide) (by decide) hx]
    exact (isSome_alternatives_number hheld hone hread hx _).trans
      (iff_of_true (Binary.eq_self hx) trivial)
  | @string s hw =>
    change Document.content? _ _ _ .string _ = _ at hcontent
    rw [Document.content?.eq_def, if_neg (by simp), Schema.analyzer?, hc] at hcontent
    cases hcontent
    exact iff_of_true (.inl (isSome_ofTokens hheld (Analyzer.ascending_analyze ..) hw)) trivial

def measured : Record :=
  ⟨"1", "t", 0, .ofList [("half", .float (1 / 2)), ("open", .boolean false), ("tenth", .float (1 / 10))]⟩

theorem finds_undeclared_half : ∃ d p,
    Document.ofRecord .empty (.withDefault "standard") measured = .ok d ∧
    ofQuery .empty (.withDefault "standard") (.field "half" (.phrase "0.5") none) = .ok p ∧
    p.Finds d := by
  have hd : (Document.ofRecord .empty (.withDefault "standard") measured).toOption.isSome := by
    decide +kernel
  obtain ⟨d, hd⟩ := Option.isSome_iff_exists.1 hd
  have hd := eq_ok_of_toOption hd
  have htext : (Value.float (1 / 2)).text = "0.5" := by decide +kernel
  have hc : Schema.empty.column? "half" = none := rfl
  have hv : measured.values.get? "half" = some (.float (1 / 2)) := by decide +kernel
  obtain ⟨p, hp, hf⟩ := finds_undeclared hd hc (by decide) (by decide) (by decide) hv
    (.float (by decide +kernel)) none
  rw [htext] at hp
  refine ⟨d, p, hd, hp, hf.2 ⟨.div 1 2, ?_, ?_⟩⟩
  · decide +kernel
  · decide +kernel

def findsAlone (p : Plan) (d : Document) : Bool :=
  (p.simplify.run (fun _ _ _ => 1) [] (Segment.empty.upsert d)).toOption.any (! ·.docs.isEmpty)

theorem findsAlone_of_finds {p : Plan} (h : p.Finds d) : p.findsAlone d := by
  obtain ⟨scored, doc, hrun, -, hm⟩ := h .empty .empty (fun _ _ _ => 1) []
  rw [findsAlone, hrun]
  exact DocSet.not_isEmpty_iff.2 ⟨doc, hm⟩

/-- The stem of `false` is `fals`, and a tenth in single precision is not the double `0.1`. -/
theorem misses_undeclared : ∃ d p q,
    Document.ofRecord .empty (.withDefault "standard") measured = .ok d ∧
    ofQuery .empty (.withDefault "standard")
      (.field "open" (.phrase (Value.boolean false).text) none) = .ok p ∧
    ofQuery .empty (.withDefault "standard")
      (.field "tenth" (.phrase (Value.float (1 / 10)).text) none) = .ok q ∧
    ¬p.Finds d ∧ ¬q.Finds d := by
  have h : (do
      let d ← Document.ofRecord .empty (.withDefault "standard") measured
      let p ← ofQuery .empty (.withDefault "standard")
        (.field "open" (.phrase (Value.boolean false).text) none)
      let q ← ofQuery .empty (.withDefault "standard")
        (.field "tenth" (.phrase (Value.float (1 / 10)).text) none)
      return (p.findsAlone d, q.findsAlone d)).toOption = some (false, false) := by
    decide +kernel
  obtain ⟨d, hd, h⟩ := bind_eq_ok.1 (eq_ok_of_toOption h)
  obtain ⟨p, hp, h⟩ := bind_eq_ok.1 h
  obtain ⟨q, hq, h⟩ := bind_eq_ok.1 h
  obtain ⟨hpd, hqd⟩ := Prod.mk.inj (Except.ok.inj h)
  refine ⟨d, p, q, hd, hp, hq, fun hf => ?_, fun hf => ?_⟩
  · exact Bool.false_ne_true (hpd.symm.trans (findsAlone_of_finds hf))
  · exact Bool.false_ne_true (hqd.symm.trans (findsAlone_of_finds hf))

end Plan

end Corpus
