import Corpus.Service.Request

/-! Gates decide which user may do what.  The service behind a gate knows no users. -/

namespace Corpus

abbrev Gate := String → Permission → Bool

abbrev Grants := Dict String (List Permission)

namespace Grants

def grant (g : Grants) (user : String) (permissions : List Permission) : Grants :=
  g.alter user fun old => some (old.getD [] ++ permissions)

def gives (g : Grants) (user : String) (permission : Permission) : Bool :=
  (g.get? user).any (·.contains permission)

end Grants

namespace Gate

def everyone : Gate := fun _ _ => true

def ofGrants (grants : List (String × List Permission)) : Gate :=
  Grants.gives (grants.foldl (fun g (user, permissions) => Grants.grant g user permissions) .empty)

def run (gate : Gate) (user : String) (r : Request) : Action Response :=
  if gate user r.permission then r.run else throw (.denied user r.permission)

end Gate

end Corpus
