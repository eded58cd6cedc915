/-! Patterns for whole texts: a star stands for any run of characters, a question mark for one, and
neither for a line feed.  Every other character stands for itself. -/

namespace Corpus.Text

def isWild (c : Char) : Bool := c = '*' || c = '?'

def standsFor (p c : Char) : Bool := if p = '?' then c ≠ '\n' else p = c

/-- After a star, a tail is matched if one is that can be reached from it without passing a line
feed. -/
def afterStar : List Char → List Bool → List Bool
  | c :: text, m :: tails =>
    let later := afterStar text tails
    (m || (c ≠ '\n' && later.headD false)) :: later
  | _, tails => tails

def afterChar (p : Char) : List Char → List Bool → List Bool
  | c :: text, _ :: tails => (standsFor p c && tails.headD false) :: afterChar p text tails
  | _, _ => [false]

/-- For each tail of the text, from the whole to the empty one, whether the pattern matches it. -/
def matchedTails (pattern text : List Char) : List Bool :=
  pattern.foldr (fun p tails => if p = '*' then afterStar text tails else afterChar p text tails)
    (text.map (fun _ => false) ++ [true])

def globMatches (pattern text : List Char) : Bool := (matchedTails pattern text).headD false

def literalPart (pattern : List Char) : List Char := pattern.takeWhile (! isWild ·)

end Corpus.Text
