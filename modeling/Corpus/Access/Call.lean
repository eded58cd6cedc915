import Corpus.Access.Gate

/-! All that is asked of a service, behind a gate or without one.  Only requests are made in the name of a
user; the other calls need no permission. -/

namespace Corpus

inductive Call
  | request (r : Request)
  | read (g : RecordGroup)
  | windows
  | wait
  | stats
  | destroy

inductive Reply
  | done
  | response (r : Response)
  | records (records : List Record)
  | flag (b : Bool)
  | stats (s : Service.Stats)

def Call.run : Call → Action Reply
  | .request r => .response <$> r.run
  | .read g => .records <$> Service.read g
  | .windows => do return .flag (← get).store.windows
  | .wait => do Service.wait; return .done
  | .stats => .stats <$> Service.stats
  | .destroy => do Service.destroy; return .done

namespace Gate

def permits (gate : Gate) (user : String) : Call → Bool
  | .request r => gate user r.permission
  | _ => true

/-- A group is read for anyone who has it. -/
def call (gate : Gate) (user : String) : Call → Action Reply
  | .request r => .response <$> gate.run user r
  | c => c.run

end Gate

/-- What happens to a service: calls, and between them the work of the indexer. -/
inductive Turn (κ : Type)
  | call (c : κ)
  | work (limit shard : Nat)

def Service.serve {κ : Type} (run : κ → Action Reply) (s : Service) :
    List (Turn κ) → List (κ × Except Error Reply) × Service
  | [] => ([], s)
  | .work limit shard :: rest =>
    Service.serve run { s with indexer := s.indexer.step s.analyzers limit shard } rest
  | .call c :: rest =>
    let (answer, s) := Id.run ((run c).run.run s)
    let (answers, s) := Service.serve run s rest
    ((c, answer) :: answers, s)

end Corpus
