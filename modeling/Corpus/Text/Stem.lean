/-! Stems of English words.  Each step looks for its longest suffix at the end of
the word and, if the suffix lies in the region that the step asks for, replaces it. -/

namespace Corpus.Text.Stem

def isVowel (c : Char) : Bool := "aeiouy".toList.contains c

def before? (suffix : String) (word : List Char) : Option (List Char) :=
  if suffix.toList.isSuffixOf word then some (word.take (word.length - suffix.length)) else none

/-- The first rule whose suffix ends the word, with what stands before it.  In every table here a
suffix comes before the shorter ones that end it. -/
def match? (rules : List (String × α)) (word : List Char) : Option (List Char × α) :=
  rules.findSome? fun (suffix, action) => (before? suffix word).map (·, action)

def markY (previous : Option Char) : List Char → List Char
  | [] => []
  | c :: rest =>
    if c = 'y' ∧ previous.all isVowel then 'Y' :: markY (some 'Y') rest
    else c :: markY (some c) rest

def unmarkY (word : List Char) : List Char := word.map fun c => if c = 'Y' then 'y' else c

def regionAfter (word : List Char) (start : Nat) : Option Nat :=
  match (word.drop start).dropWhile (! isVowel ·) with
  | [] => none
  | vowels =>
    match vowels.dropWhile isVowel with
    | [] => none
    | rest => some (word.length - rest.length + 1)

structure Regions where
  first : Nat
  second : Nat

def Regions.of (word : List Char) : Regions :=
  let first := match ["gener", "commun", "arsen"].find? fun s => s.toList.isPrefixOf word with
    | some s => some s.length
    | none => regionAfter word 0
  match first with
  | none => ⟨word.length, word.length⟩
  | some n => ⟨n, (regionAfter word n).getD word.length⟩

def endsShort (word : List Char) : Bool :=
  match word.reverse with
  | c :: v :: b :: _ =>
    !(isVowel c || ['w', 'x', 'Y'].contains c) && isVowel v && !isVowel b
  | [c, v] => !isVowel c && isVowel v
  | _ => false

def endsWithOneOf (chars : String) (word : List Char) : Bool :=
  match word.getLast? with
  | none => false
  | some c => chars.toList.contains c

def dropPossessive (word : List Char) : List Char :=
  match match? [("'s'", ()), ("'s", ()), ("'", ())] word with
  | some (base, _) => base
  | none => word

inductive Plural
  | sses | ies | s | kept

def dropPlural (word : List Char) : List Char :=
  match match? [("sses", .sses), ("ied", Plural.ies), ("ies", .ies), ("us", .kept), ("ss", .kept),
    ("s", .s)] word with
  | some (base, .sses) => base ++ ['s', 's']
  | some (base, .ies) => base ++ (if 2 ≤ base.length then ['i'] else ['i', 'e'])
  | some (base, .s) => if base.dropLast.any isVowel then base else word
  | _ => word

def isDouble (word : List Char) : Bool :=
  match word.reverse with
  | a :: b :: _ => a = b && "bdfgmnprt".toList.contains a
  | _ => false

def restore (regions : Regions) (word : List Char) : List Char :=
  if ["at", "bl", "iz"].any fun s => s.toList.isSuffixOf word then word ++ ['e']
  else if isDouble word then word.dropLast
  else if word.length = regions.first ∧ endsShort word then word ++ ['e']
  else word

def dropParticiple (regions : Regions) (word : List Char) : List Char :=
  match match? [("eedly", true), ("ingly", false), ("edly", false), ("eed", true), ("ing", false),
    ("ed", false)] word with
  | some (base, true) => if regions.first ≤ base.length then base ++ ['e', 'e'] else word
  | some (base, false) => if base.any isVowel then restore regions base else word
  | none => word

def replaceY (word : List Char) : List Char :=
  match word.reverse with
  | y :: c :: b :: rest =>
    if (y = 'y' ∨ y = 'Y') ∧ !isVowel c then (b :: rest).reverse ++ [c, 'i'] else word
  | _ => word

structure Rule where
  replacement : String
  preceded : Option String

def Rule.holds (r : Rule) (base : List Char) : Bool :=
  match r.preceded with
  | none => true
  | some chars => endsWithOneOf chars base

def Rule.into (replacement : String) : Rule := ⟨replacement, none⟩

def derivational : List (String × Rule) :=
  [("ational", .into "ate"), ("fulness", .into "ful"), ("iveness", .into "ive"),
   ("ization", .into "ize"), ("ousness", .into "ous"), ("biliti", .into "ble"),
   ("lessli", .into "less"), ("tional", .into "tion"), ("alism", .into "al"),
   ("aliti", .into "al"), ("ation", .into "ate"), ("entli", .into "ent"), ("fulli", .into "ful"),
   ("iviti", .into "ive"), ("ousli", .into "ous"), ("enci", .into "ence"), ("anci", .into "ance"),
   ("abli", .into "able"), ("izer", .into "ize"), ("ator", .into "ate"), ("alli", .into "al"),
   ("bli", .into "ble"), ("ogi", ⟨"og", some "l"⟩), ("li", ⟨"", some "cdeghkmnrt"⟩)]

def residual : List (String × Rule) :=
  ["ement", "ance", "ence", "able", "ible", "ment", "ant", "ent", "ism", "ate", "iti", "ous", "ive",
   "ize", "al", "er", "ic"].map (·, .into "") ++ [("ion", ⟨"", some "st"⟩)]

def replaceFrom (region : Nat) (rules : List (String × Rule)) (word : List Char) : List Char :=
  match match? rules word with
  | some (base, rule) =>
    if region ≤ base.length ∧ rule.holds base then base ++ rule.replacement.toList else word
  | none => word

def dropAdjectival (regions : Regions) (word : List Char) : List Char :=
  match match? [("ational", some "ate"), ("tional", some "tion"), ("alize", some "al"),
    ("icate", some "ic"), ("iciti", some "ic"), ("ative", none), ("ical", some "ic"),
    ("ness", some ""), ("ful", some "")] word with
  | some (base, some replacement) =>
    if regions.first ≤ base.length then base ++ replacement.toList else word
  | some (base, none) =>
    if regions.first ≤ base.length ∧ regions.second ≤ base.length then base else word
  | none => word

def dropFinal (regions : Regions) (word : List Char) : List Char :=
  match word.getLast? with
  | some 'e' =>
    let base := word.dropLast
    if regions.second ≤ base.length ∨ (regions.first ≤ base.length ∧ !endsShort base) then base
    else word
  | some 'l' =>
    let base := word.dropLast
    if regions.second ≤ base.length ∧ base.getLast? = some 'l' then base else word
  | _ => word

def irregular : List (String × String) :=
  [("skis", "ski"), ("skies", "sky"), ("dying", "die"), ("lying", "lie"), ("tying", "tie"),
   ("idly", "idl"), ("gently", "gentl"), ("ugly", "ugli"), ("early", "earli"), ("only", "onli"),
   ("singly", "singl"), ("sky", "sky"), ("news", "news"), ("howe", "howe"), ("atlas", "atlas"),
   ("cosmos", "cosmos"), ("bias", "bias"), ("andes", "andes")]

def fixed : List String :=
  ["inning", "outing", "canning", "herring", "earring", "proceed", "exceed", "succeed"]

def dropSuffixes (regions : Regions) (word : List Char) : List Char :=
  let word := dropPlural (dropPossessive word)
  if fixed.any (·.toList = word) then word
  else
    let word := replaceY (dropParticiple regions word)
    let word := dropAdjectival regions (replaceFrom regions.first derivational word)
    dropFinal regions (replaceFrom regions.second residual word)

def english (s : String) : String :=
  match irregular.lookup s with
  | some stem => stem
  | none =>
    let word := s.toList
    if word.length < 3 then s
    else
      let plain := match word with
        | '\'' :: rest => rest
        | _ => word
      let marked := markY none plain
      let stem := dropSuffixes (Regions.of marked) marked
      String.ofList (if marked = plain then stem else unmarkY stem)

end Corpus.Text.Stem
