import Corpus.Error

/-! The settings of a service. -/

namespace Corpus

structure Config where
  indexShards : Nat
  queueCapacity : Nat
  batchSize : Nat
  retryBudget : Nat
  analysisThreshold : Nat
  storePartitions : Nat
  cacheSize : Nat
  defaultAnalyzer : String
  deriving DecidableEq

namespace Config

def standard : Config := ⟨8, 10000, 256, 3, 64, 16, 512, "standard"⟩

inductive Setting
  | count (name : String) (get : Config → Nat) (set : Nat → Config → Config)
  | text (name : String) (get : Config → String) (set : String → Config → Config)

def Setting.name : Setting → String
  | .count name .. | .text name .. => name

def settings : List Setting :=
  [.count "index_shards" indexShards fun n c => { c with indexShards := n },
   .count "index_queue_capacity" queueCapacity fun n c => { c with queueCapacity := n },
   .count "index_batch_size" batchSize fun n c => { c with batchSize := n },
   .count "index_retry_budget" retryBudget fun n c => { c with retryBudget := n },
   .count "parallel_analysis_threshold" analysisThreshold fun n c =>
     { c with analysisThreshold := n },
   .count "store_partitions" storePartitions fun n c => { c with storePartitions := n },
   .count "query_cache_size" cacheSize fun n c => { c with cacheSize := n },
   .text "default_analyzer" defaultAnalyzer fun s c => { c with defaultAnalyzer := s }]

/-- Settings that may be zero: no threshold, and no cache. -/
def mayBeZero (name : String) : Bool :=
  name = "parallel_analysis_threshold" || name = "query_cache_size"

def zeroSetting? (c : Config) : Option String :=
  settings.findSome? fun s =>
    match s with
    | .count name get _ => if get c = 0 && !mayBeZero name then some name else none
    | .text .. => none

def validate (c : Config) : Except Error Unit :=
  match c.zeroSetting? with
  | some name => .error (.zeroSetting name)
  | none => .ok ()

end Config

end Corpus
