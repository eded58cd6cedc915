/-! Sums of counts. -/

namespace Corpus

def total (counts : List Nat) : Nat := counts.foldr (· + ·) 0

end Corpus
