import Corpus.Proofs.Index.Fields
import Corpus.Proofs.Text.Glob
import Corpus.Proofs.Text.Start

/-! The index of words against the documents in it: every posting is the one that the document's own
tokens give, and the statistics of a field are those of all values in it. -/

namespace Corpus

def FieldStats.of? (lengths : List Nat) : Option FieldStats :=
  if lengths = [] then none else some ⟨lengths.length, lengths.sum⟩

namespace FieldStats

theorem of?_perm {l m : List Nat} (h : l.Perm m) : of? l = of? m := by
  have hnil : l = [] ↔ m = [] := by rw [← List.length_eq_zero_iff, h.length_eq, List.length_eq_zero_iff]
  by_cases hm : m = []
  · rw [of?, of?, if_pos hm, if_pos (hnil.2 hm)]
  · rw [of?, of?, if_neg hm, if_neg (mt hnil.1 hm), h.length_eq, h.sum_nat]

theorem add_of? (n : Nat) (lengths : List Nat) : add n (of? lengths) = of? (n :: lengths) := by
  cases lengths with
  | nil => simp [of?, add]
  | cons m rest => simp [of?, add]; omega

theorem remove_of? (n : Nat) (lengths : List Nat) : remove n (of? (n :: lengths)) = of? lengths := by
  cases lengths with
  | nil => simp [of?, remove]
  | cons m rest => simp [of?, remove]

theorem foldl_add_of? (news lengths : List Nat) :
    news.foldl (fun s n => add n s) (of? lengths) = of? (news ++ lengths) := by
  induction news generalizing lengths with
  | nil => rfl
  | cons n rest ih =>
    rw [List.foldl_cons, add_of?, ih]
    exact of?_perm List.perm_middle

theorem foldl_remove_of? (olds lengths : List Nat) :
    olds.foldl (fun s n => remove n s) (of? (olds ++ lengths)) = of? lengths := by
  induction olds with
  | nil => rfl
  | cons n rest ih => rw [List.foldl_cons, List.cons_append, remove_of?, ih]

end FieldStats

namespace TermIndex

theorem withStart_eq_filter (t : TermIndex) (field start : String) :
    t.withStart field start = (t.terms field).entries.filter (startsWith start ·.1) := by
  refine Text.takeWhile_dropWhile_eq_filter ?_ ?_ ?_ (t.terms field).ascending
  · intro a ha
    rw [startsWith, List.isPrefixOf_iff_prefix] at ha
    exact decide_eq_false (Text.not_lt_of_prefix ha)
  · intro a b hab ha
    have hlt : a.1 < b.1 := compareOfLessAndEq_eq_lt.1 hab
    rw [decide_eq_false_iff_not] at ha ⊢
    exact fun hb => ha (Std.lt_trans hlt hb)
  · intro a b hab ha hb
    have hlt : a.1 < b.1 := compareOfLessAndEq_eq_lt.1 hab
    rw [startsWith, List.isPrefixOf_iff_prefix] at hb ⊢
    exact Text.prefix_of_not_lt (of_decide_eq_false ha) hlt hb

theorem mem_withStart {t : TermIndex} {field start text : String} {l : PostingList} :
    (text, l) ∈ t.withStart field start ↔
      t.get? field text = some l ∧ start.toList <+: text.toList := by
  rw [withStart_eq_filter, List.mem_filter, ← Dict.get?_eq_some_iff, startsWith,
    List.isPrefixOf_iff_prefix, get?]

theorem mem_matching {t : TermIndex} {field glob text : String} {l : PostingList} :
    (text, l) ∈ t.matching field glob ↔
      t.get? field text = some l ∧ Text.Matches glob.toList text.toList := by
  rw [matching, List.mem_filter, mem_withStart, Text.globMatches_iff, String.toList_ofList]
  constructor
  · exact fun h => ⟨h.1.1, h.2⟩
  · exact fun h => ⟨⟨h.1, h.2.startsWith_literalPart⟩, h.2⟩

theorem get?_foldl_grouped (tokens : List Token) (d : Dict String (List Nat)) (text : String) :
    (tokens.foldl (fun d t => d.alter t.text fun ps => some (ps.getD [] ++ [t.position])) d).get? text =
      if positionsOf tokens text = [] then d.get? text
      else some ((d.get? text).getD [] ++ positionsOf tokens text) := by
  induction tokens generalizing d with
  | nil => rfl
  | cons t rest ih =>
    rw [List.foldl_cons, ih, Dict.get?_alter]
    by_cases ht : t.text = text
    · by_cases hr : positionsOf rest text = [] <;> simp_all [positionsOf]
    · have ht' : text ≠ t.text := fun e => ht e.symm
      simp [positionsOf, ht, ht']

theorem get?_grouped (tokens : List Token) (text : String) :
    (grouped tokens).get? text =
      if positionsOf tokens text = [] then none else some (positionsOf tokens text) := by
  rw [grouped, get?_foldl_grouped]
  rfl

theorem mem_keys_grouped {tokens : List Token} {text : String} :
    text ∈ (grouped tokens).keys ↔ (Posting.of? tokens text).isSome := by
  rw [Dict.mem_keys_iff, get?_grouped, Posting.of?]
  cases positionsOf tokens text <;> simp

def posting? (t : TermIndex) (field text : String) (doc : Nat) : Option Posting :=
  (t.get? field text).bind (·.get? doc)

theorem posting?_eq (t : TermIndex) (field text : String) (doc : Nat) :
    t.posting? field text doc =
      ((t.postings.get? field).bind (·.get? text)).bind (·.get? doc) := by
  rw [posting?, get?, terms, Dict.getD_empty_get?]

theorem get?_foldl_addPosting (doc length : Nat) {entries : List (String × List Nat)}
    (h : entries.Pairwise (fun a b => compare a.1 b.1 = .lt)) (terms : Dict String PostingList)
    (text : String) (doc' : Nat) :
    ((entries.foldl (addPosting doc length) terms).get? text).bind (·.get? doc') =
      if doc' = doc then
        ((Dict.find text entries).map fun ps => Posting.mk ps.length ps length).or
          ((terms.get? text).bind (·.get? doc'))
      else (terms.get? text).bind (·.get? doc') := by
  induction entries generalizing terms with
  | nil => simp [Dict.find]
  | cons e rest ih =>
    rw [List.foldl_cons, ih h.of_cons, addPosting, Dict.get?_alter]
    by_cases ht : text = e.1
    · subst ht
      have hn : Dict.find e.1 rest = none :=
        Dict.find_eq_none fun a => List.rel_of_pairwise_cons h
      by_cases hd : doc' = doc <;> simp [Dict.find, hd, hn]
    · simp [Dict.find, ht]

theorem get?_foldl_removePosting (doc : Nat) (texts : List String) (terms : Dict String PostingList)
    (text : String) (doc' : Nat) :
    ((texts.foldl (removePosting doc) terms).get? text).bind (·.get? doc') =
      if doc' = doc ∧ text ∈ texts then none else (terms.get? text).bind (·.get? doc') := by
  induction texts generalizing terms with
  | nil => simp
  | cons x rest ih =>
    rw [List.foldl_cons, ih, removePosting, Dict.get?_alter]
    by_cases hx : text = x
    · subst hx
      cases terms.get? text with
      | none => simp
      | some l => by_cases hd : doc' = doc <;> simp [hd]
    · simp [hx]

theorem posting?_add (t : TermIndex) (doc doc' : Nat) (field field' : String) (tokens : List Token)
    (text : String) :
    (t.add doc field tokens).posting? field' text doc' =
      if doc' = doc ∧ field' = field then (Posting.of? tokens text).or (t.posting? field' text doc')
      else t.posting? field' text doc' := by
  rw [add]
  split
  next h => simp [h, Posting.of?, positionsOf]
  next =>
    simp only [posting?_eq, Dict.get?_alter]
    by_cases hf : field' = field
    · subst hf
      have hg : Dict.find text (grouped tokens).entries = (grouped tokens).get? text := rfl
      simp only [if_true, Option.bind_some, and_true]
      rw [get?_foldl_addPosting doc tokens.length (grouped tokens).ascending, hg, get?_grouped,
        Dict.getD_empty_get?, Posting.of?]
      cases hp : positionsOf tokens text with
      | nil => simp
      | cons p ps => simp
    · simp [hf]

theorem posting?_remove (t : TermIndex) (doc doc' : Nat) (field field' : String)
    (texts : List String) (length : Nat) (text : String) :
    (t.remove doc field texts length).posting? field' text doc' =
      if (doc' = doc ∧ field' = field) ∧ text ∈ texts then none
      else t.posting? field' text doc' := by
  simp only [posting?_eq, remove, Dict.get?_alter]
  by_cases hf : field' = field
  · subst hf
    cases ht : t.postings.get? field' with
    | none => simp
    | some terms => simp [get?_foldl_removePosting]
  · simp [hf]

theorem get?_stats_add (t : TermIndex) (doc : Nat) (field field' : String) (tokens : List Token) :
    (t.add doc field tokens).stats.get? field' =
      if field' = field ∧ tokens ≠ [] then FieldStats.add tokens.length (t.stats.get? field')
      else t.stats.get? field' := by
  rw [add]
  split
  next h => simp [h]
  next h => by_cases hf : field' = field <;> simp [Dict.get?_alter, h, hf]

theorem get?_stats_remove (t : TermIndex) (doc : Nat) (field field' : String) (texts : List String)
    (length : Nat) :
    (t.remove doc field texts length).stats.get? field' =
      if field' = field then FieldStats.remove length (t.stats.get? field')
      else t.stats.get? field' := by
  by_cases hf : field' = field <;> simp [remove, Dict.get?_alter, hf]

def addField (doc : Nat) (t : TermIndex) (field : String × Content) : TermIndex :=
  match field.2 with
  | .text tokens => t.add doc field.1 tokens
  | _ => t

def removeField (doc : Nat) (t : TermIndex) (field : String × Content) : TermIndex :=
  match field.2 with
  | .text [] => t
  | .text tokens => t.remove doc field.1 (grouped tokens).keys tokens.length
  | _ => t

theorem posting?_addField (doc doc' : Nat) (t : TermIndex) (f : String × Content)
    (field text : String) :
    (addField doc t f).posting? field text doc' =
      if doc' = doc then (Fields.posting? [f] field text).or (t.posting? field text doc')
      else t.posting? field text doc' := by
  obtain ⟨name, content⟩ := f
  rw [Fields.posting?_singleton]
  cases content with
  | text tokens =>
    by_cases hf : name = field
    · simp [addField, posting?_add, Content.tokens?, hf]
    · have hf' : field ≠ name := fun e => hf e.symm
      simp [addField, posting?_add, hf, hf']
  | number x => simp [addField, Content.tokens?]
  | facet path => simp [addField, Content.tokens?]

theorem posting?_removeField (doc doc' : Nat) (t : TermIndex) (f : String × Content)
    (field text : String) :
    (removeField doc t f).posting? field text doc' =
      if doc' = doc ∧ (Fields.posting? [f] field text).isSome then none
      else t.posting? field text doc' := by
  obtain ⟨name, content⟩ := f
  rw [Fields.posting?_singleton]
  cases content with
  | text tokens =>
    cases tokens with
    | nil => simp [removeField, Content.tokens?, Posting.of?, positionsOf]
    | cons u rest =>
      by_cases hf : name = field
      · simp [removeField, posting?_remove, mem_keys_grouped, Content.tokens?, hf]
      · have hf' : field ≠ name := fun e => hf e.symm
        simp [removeField, posting?_remove, hf, hf']
  | number x => simp [removeField, Content.tokens?]
  | facet path => simp [removeField, Content.tokens?]

theorem get?_stats_addField (doc : Nat) (t : TermIndex) (f : String × Content) (field : String) :
    (addField doc t f).stats.get? field =
      (Fields.lengths [f] field).foldl (fun s n => FieldStats.add n s) (t.stats.get? field) := by
  obtain ⟨name, content⟩ := f
  rw [Fields.lengths_singleton]
  cases content with
  | text tokens =>
    by_cases hf : name = field
    · by_cases ht : tokens = [] <;> simp [addField, get?_stats_add, Content.tokens?, hf, ht]
    · have hf' : field ≠ name := fun e => hf e.symm
      simp [addField, get?_stats_add, hf, hf']
  | number x => simp [addField, Content.tokens?]
  | facet path => simp [addField, Content.tokens?]

theorem get?_stats_removeField (doc : Nat) (t : TermIndex) (f : String × Content)
    (field : String) :
    (removeField doc t f).stats.get? field =
      (Fields.lengths [f] field).foldl (fun s n => FieldStats.remove n s) (t.stats.get? field) := by
  obtain ⟨name, content⟩ := f
  rw [Fields.lengths_singleton]
  cases content with
  | text tokens =>
    cases tokens with
    | nil => simp [removeField, Content.tokens?]
    | cons u rest =>
      by_cases hf : name = field
      · simp [removeField, get?_stats_remove, Content.tokens?, hf]
      · have hf' : field ≠ name := fun e => hf e.symm
        simp [removeField, get?_stats_remove, hf, hf']
  | number x => simp [removeField, Content.tokens?]
  | facet path => simp [removeField, Content.tokens?]

theorem posting?_foldl_addField (doc doc' : Nat) (fields : Fields) (t : TermIndex)
    (field text : String) :
    (fields.foldl (addField doc) t).posting? field text doc' =
      if doc' = doc then (Fields.posting? fields field text).or (t.posting? field text doc')
      else t.posting? field text doc' := by
  induction fields generalizing t with
  | nil => simp [Fields.posting?, Fields.texts, Fields.read]
  | cons f rest ih =>
    rw [List.foldl_cons, ih, posting?_addField, Fields.posting?_cons f rest, Option.or_assoc]
    split <;> rfl

theorem posting?_foldl_removeField (doc doc' : Nat) (fields : Fields) (t : TermIndex)
    (field text : String) :
    (fields.foldl (removeField doc) t).posting? field text doc' =
      if doc' = doc ∧ (Fields.posting? fields field text).isSome then none
      else t.posting? field text doc' := by
  induction fields generalizing t with
  | nil => simp [Fields.posting?, Fields.texts, Fields.read]
  | cons f rest ih =>
    rw [List.foldl_cons, ih, posting?_removeField, Fields.posting?_cons f rest, Option.isSome_or]
    by_cases hd : doc' = doc <;> cases (Fields.posting? rest field text).isSome <;> simp [hd]

theorem get?_stats_foldl_addField (doc : Nat) (fields : Fields) (t : TermIndex) (field : String) :
    (fields.foldl (addField doc) t).stats.get? field =
      (Fields.lengths fields field).foldl (fun s n => FieldStats.add n s)
        (t.stats.get? field) := by
  induction fields generalizing t with
  | nil => rfl
  | cons f rest ih =>
    rw [List.foldl_cons, ih, get?_stats_addField, Fields.lengths_cons f rest, List.foldl_append]

theorem get?_stats_foldl_removeField (doc : Nat) (fields : Fields) (t : TermIndex)
    (field : String) :
    (fields.foldl (removeField doc) t).stats.get? field =
      (Fields.lengths fields field).foldl (fun s n => FieldStats.remove n s)
        (t.stats.get? field) := by
  induction fields generalizing t with
  | nil => rfl
  | cons f rest ih =>
    rw [List.foldl_cons, ih, get?_stats_removeField, Fields.lengths_cons f rest, List.foldl_append]

structure Reflects (t : TermIndex) (docs : Dict Nat Document) : Prop where
  posting? : ∀ field text doc,
    t.posting? field text doc = (docs.get? doc).bind (Fields.posting? ·.fields field text)
  stats : ∀ field, t.stats.get? field =
    FieldStats.of? (docs.values.flatMap (Fields.lengths ·.fields field))

theorem Reflects.empty : TermIndex.empty.Reflects .empty where
  posting? _ _ _ := rfl
  stats _ := rfl

theorem Reflects.insert {t : TermIndex} {docs : Dict Nat Document} (h : t.Reflects docs)
    {doc : Nat} (hdoc : docs.get? doc = none) (d : Document) :
    (d.fields.foldl (addField doc) t).Reflects (docs.insert doc d) where
  posting? field text doc' := by
    rw [posting?_foldl_addField, h.posting?, Dict.get?_insert]
    by_cases hd : doc' = doc <;> simp [hd, hdoc]
  stats field := by
    have hp := (Dict.values_insert_perm hdoc d).flatMap_right (Fields.lengths ·.fields field)
    rw [get?_stats_foldl_addField, h.stats, FieldStats.foldl_add_of?]
    exact FieldStats.of?_perm hp.symm

theorem Reflects.erase {t : TermIndex} {docs : Dict Nat Document} (h : t.Reflects docs)
    {doc : Nat} {d : Document} (hdoc : docs.get? doc = some d) :
    (d.fields.foldl (removeField doc) t).Reflects (docs.erase doc) where
  posting? field text doc' := by
    rw [posting?_foldl_removeField, h.posting?, Dict.get?_erase]
    by_cases hd : doc' = doc
    · subst hd
      cases hp : Fields.posting? d.fields field text <;> simp [hdoc, hp]
    · simp [hd]
  stats field := by
    have hp := (Dict.values_erase_perm hdoc).flatMap_right (Fields.lengths ·.fields field)
    rw [get?_stats_foldl_removeField, h.stats, FieldStats.of?_perm hp]
    exact FieldStats.foldl_remove_of? ..

end TermIndex

end Corpus
