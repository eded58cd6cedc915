import Corpus.Data.Total
import Corpus.Text.Glob

/-! The room that patterns take.  A pattern is used as an automaton over the bytes of a text, built
once for each direction of reading, and either has to fit in the same room. -/

namespace Corpus.Text

inductive Direction
  | forwards | backwards
  deriving DecidableEq

def stateRoom : Nat := 32

namespace Direction

/-- States besides those of the characters: the start, the two ends of the text and the acceptance,
and also the two ends of what is matched when it is read forwards. -/
def frame : Direction → Nat
  | .forwards => 6 * stateRoom
  | .backwards => 4 * stateRoom

/-- The room for any character but a line feed, which has ten forms by ranges of bytes.  Forwards the
forms share states for equal ends, and each of 17 ways on takes 8 bytes.  Backwards each of the 28
bytes in the forms has its own state, and each form takes 4 bytes where all of them meet. -/
def anyRoom : Direction → Nat
  | .forwards => 9 * stateRoom + 17 * 8
  | .backwards => 30 * stateRoom + 10 * 4

def charRoom (d : Direction) (c : Char) : Nat :=
  if c = '*' then d.anyRoom + stateRoom + 2 * 4
  else if c = '?' then d.anyRoom
  else c.utf8Size * stateRoom

def room (d : Direction) (pattern : List Char) : Nat := d.frame + total (pattern.map d.charRoom)

end Direction

def roomLimit : Nat := 10485760

def isOversized (pattern : List Char) : Bool :=
  roomLimit < Direction.forwards.room pattern || roomLimit < Direction.backwards.room pattern

end Corpus.Text
