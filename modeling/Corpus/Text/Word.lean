import Corpus.Text.Word.Class

/-! Cutting text into words by the default word boundaries of Unicode.  A word is found by an automaton
over the classes of its characters; where a character only joins two others, the automaton remembers
how much was certain before it. -/

namespace Corpus.Text.Word

/-- What the characters read so far still allow.  The three waiting states carry the length of the
word up to the joining character, which stays outside unless the right character follows. -/
inductive State
  | letter | hebrew | numeric | katakana | connector | regional | spaces | quoted | closed
  | awaitLetter (sure : Nat) | awaitHebrew (sure : Nat) | awaitNumeric (sure : Nat)
  deriving DecidableEq

inductive Move
  | on (state : State)
  | stop (length : Nat)

def State.first : Class → State
  | .letter => .letter
  | .hebrewLetter => .hebrew
  | .numeric => .numeric
  | .katakana => .katakana
  | .extendNumLet => .connector
  | .regional => .regional
  | .space => .spaces
  | _ => .closed

def State.afterLetter (taken : Nat) : Class → Move
  | .letter => .on .letter
  | .hebrewLetter => .on .hebrew
  | .numeric => .on .numeric
  | .extendNumLet => .on .connector
  | .midLetter | .midNumLet | .singleQuote => .on (.awaitLetter taken)
  | _ => .stop taken

/-- The move on a character of class `k` after `taken` characters; `marked` tells that marks were
passed over since the word began. -/
def State.move (taken : Nat) (marked : Bool) : State → Class → Move
  | .letter, k => afterLetter taken k
  | .hebrew, .doubleQuote => .on (.awaitHebrew taken)
  | .hebrew, .singleQuote => .on .quoted
  | .hebrew, k => afterLetter taken k
  | .numeric, .numeric => .on .numeric
  | .numeric, .letter => .on .letter
  | .numeric, .hebrewLetter => .on .hebrew
  | .numeric, .extendNumLet => .on .connector
  | .numeric, .midNumLet | .numeric, .midNum | .numeric, .singleQuote => .on (.awaitNumeric taken)
  | .katakana, .katakana => .on .katakana
  | .katakana, .extendNumLet => .on .connector
  | .connector, .extendNumLet => .on .connector
  | .connector, .letter => .on .letter
  | .connector, .hebrewLetter => .on .hebrew
  | .connector, .numeric => .on .numeric
  | .connector, .katakana => .on .katakana
  | .regional, .regional => .on .closed
  | .spaces, .space => if marked then .stop taken else .on .spaces
  | .quoted, .letter => .on .letter
  | .quoted, .hebrewLetter => .on .hebrew
  | .awaitLetter _, .letter => .on .letter
  | .awaitLetter _, .hebrewLetter => .on .hebrew
  | .awaitLetter sure, _ => .stop sure
  | .awaitHebrew _, .hebrewLetter => .on .hebrew
  | .awaitHebrew sure, _ => .stop sure
  | .awaitNumeric _, .numeric => .on .numeric
  | .awaitNumeric sure, _ => .stop sure
  | _, _ => .stop taken

def State.finish (taken : Nat) : State → Nat
  | .awaitLetter sure | .awaitHebrew sure | .awaitNumeric sure => sure
  | _ => taken

/-- The number of characters that follow a word's first one and belong to it.  Marks, formats and
joiners never end a word, and a pictograph right after a joiner belongs to it. -/
def extent (state : State) (joined marked : Bool) (taken : Nat) : List Char → Nat
  | [] => state.finish taken
  | c :: rest =>
    match Class.of c with
    | .extend | .format => extent state false true (taken + 1) rest
    | .zwj => extent state true true (taken + 1) rest
    | k =>
      if joined && isPictograph c then extent .closed false marked (taken + 1) rest
      else match state.move taken marked k with
        | .on next => extent next false marked (taken + 1) rest
        | .stop length => length

def extentAfter (c : Char) (rest : List Char) : Nat :=
  match Class.of c with
  | .cr => if rest.head?.map Class.of = some .lf then 1 else 0
  | .lf | .newline => 0
  | k => extent (.first k) (k = .zwj) false 0 rest

def pieces : List Char → List (List Char)
  | [] => []
  | c :: rest =>
    (c :: rest.take (extentAfter c rest)) :: pieces (rest.drop (extentAfter c rest))
termination_by s => s.length
decreasing_by simp only [List.length_drop, List.length_cons]; omega

def hasAlphanumeric (piece : List Char) : Bool := piece.any isAlphanumeric

end Corpus.Text.Word
