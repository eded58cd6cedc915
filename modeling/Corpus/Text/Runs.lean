/-! Sets of characters, given as ascending disjoint runs of code points. -/

namespace Corpus.Text

abbrev Runs := List (Nat × Nat)

namespace Runs

def has : Runs → Nat → Bool
  | [], _ => false
  | (first, last) :: rest, c => first ≤ c && (c ≤ last || has rest c)

end Runs

end Corpus.Text
