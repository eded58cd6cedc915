import Corpus.Data.DocSet

/-! The index of categories: for each field, the path of every document, and the documents below
every start of such a path. -/

namespace Corpus

abbrev Path := List String

structure FacetIndex where
  below : Dict String (Dict Path DocSet)
  paths : Dict String (Dict Nat Path)
  deriving DecidableEq

namespace FacetIndex

def empty : FacetIndex := ⟨.empty, .empty⟩

def starts (path : Path) : List Path := (List.range (path.length + 1)).map path.take

def insertBelow (doc : Nat) (below : Dict Path DocSet) (start : Path) : Dict Path DocSet :=
  below.alter start fun docs => some ((docs.getD .empty).insert doc)

def eraseBelow (doc : Nat) (below : Dict Path DocSet) (start : Path) : Dict Path DocSet :=
  below.alter start fun docs => docs.bind fun docs =>
    if (docs.erase doc).isEmpty then none else some (docs.erase doc)

def add (x : FacetIndex) (doc : Nat) (field : String) (path : Path) : FacetIndex where
  below := x.below.alter field fun below =>
    some ((starts path).foldl (insertBelow doc) (below.getD .empty))
  paths := x.paths.alter field fun paths => some ((paths.getD .empty).insert doc path)

def pathOf? (x : FacetIndex) (field : String) (doc : Nat) : Option Path :=
  (x.paths.get? field).bind (·.get? doc)

/-- Takes the document's path in the field out again.  The field goes with its last path. -/
def remove (x : FacetIndex) (doc : Nat) (field : String) : FacetIndex :=
  match x.pathOf? field doc with
  | none => x
  | some path =>
    let paths := x.paths.alter field (·.map (·.erase doc))
    match x.below.get? field with
    | none => { x with paths }
    | some below =>
      let below := (starts path).foldl (eraseBelow doc) below
      if below.isEmpty then ⟨x.below.erase field, paths.erase field⟩
      else ⟨x.below.insert field below, paths⟩

def hasField (x : FacetIndex) (field : String) : Bool := x.below.contains field

def docsUnder (x : FacetIndex) (field : String) (path : Path) : DocSet :=
  ((x.below.get? field).bind (·.get? path)).getD .empty

def children (x : FacetIndex) (field : String) (path : Path) (scope : DocSet) :
    List (Nat × String) :=
  ((x.docsUnder field path).inter scope).toList.filterMap fun doc =>
    ((x.pathOf? field doc).bind (·[path.length]?)).map (doc, ·)

end FacetIndex

end Corpus
