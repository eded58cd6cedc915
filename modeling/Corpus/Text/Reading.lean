/-! Readers that take their part off the front of a text and give the rest. -/

namespace Corpus.Text

def isSpace (c : Char) : Bool := c = ' ' || c = '\t' || c = '\r' || c = '\n'

def skipSpace (s : List Char) : List Char := s.dropWhile isSpace

def strip? : List Char → List Char → Option (List Char)
  | [], s => some s
  | _ :: _, [] => none
  | w :: word, c :: s => if w = c then strip? word s else none

theorem length_dropWhile_le (p : Char → Bool) (s : List Char) :
    (s.dropWhile p).length ≤ s.length := (List.dropWhile_suffix p).length_le

theorem length_dropWhile_lt {p : Char → Bool} {s : List Char} (h : s.takeWhile p ≠ []) :
    (s.dropWhile p).length < s.length := by
  have := congrArg List.length (List.takeWhile_append_dropWhile (p := p) (l := s))
  have := List.length_pos_iff.2 h
  grind

theorem length_skipSpace_le (s : List Char) : (skipSpace s).length ≤ s.length :=
  length_dropWhile_le isSpace s

theorem length_add_of_strip? {word s rest : List Char} (h : strip? word s = some rest) :
    rest.length + word.length = s.length := by
  fun_induction strip? word s <;> simp_all
  omega

theorem length_lt_of_strip? {word s rest : List Char} (hw : word ≠ [])
    (h : strip? word s = some rest) : rest.length < s.length := by
  have := length_add_of_strip? h
  have := List.length_pos_iff.2 hw
  omega

end Corpus.Text
