import Corpus.Service.Basic

/-! Requests, what each of them needs to be permitted, and what they are answered with. -/

namespace Corpus

open Number

inductive Request
  | createTable (table : String)
  | dropTable (table : String)
  | tableExists (table : String)
  | tables
  | getSchema (table : String)
  | setSchema (table : String) (schema : Schema)
  | put (records : List Record)
  | planTimes (table : String) (hint : Nat) (columns : Option (List String)) (lower upper : Int)
    (offset : Nat) (limit : Option Nat)
  | planIds (table : String) (hint : Nat) (columns : Option (List String)) (ids : List String)
  | count (table : String) (lower upper : Int)
  | deleteTimes (table : String) (lower upper : Int)
  | deleteIds (table : String) (ids : List String)
  | search (table query : String) (start limit : Nat)
  | searchCount (table query : String)
  | drillSearch (r : Drilldown)
  | drillCount (r : Drilldown)
  | drillRanges (r : Drilldown)
  | drillCategories (r : CategoryDrilldown)
  | clearIndex (table : String)

inductive Response
  | done
  | flag (b : Bool)
  | number (n : Nat)
  | names (names : List String)
  | schema (s : Schema)
  | groups (groups : List RecordGroup)
  | hits (hits : List Hit)
  | ranges (ranges : List (Bucket × Binary64))
  | categories (level : CategoryLevel)

namespace Request

def permission : Request → Permission
  | .createTable _ => .createTable
  | .dropTable _ => .dropTable
  | .tableExists _ | .tables => .listTables
  | .getSchema _ => .getSchema
  | .setSchema .. => .setSchema
  | .put _ => .putRecord
  | .planTimes .. | .planIds .. | .count .. => .getRecord
  | .deleteTimes .. | .deleteIds .. => .deleteRecord
  | .search .. | .searchCount .. => .search
  | .drillSearch _ | .drillCount _ | .drillRanges _ | .drillCategories _ => .search
  | .clearIndex _ => .clearIndex

def run : Request → Action Response
  | .createTable table => do Service.createTable table; return .done
  | .dropTable table => do Service.dropTable table; return .done
  | .tableExists table => .flag <$> Service.tableExists table
  | .tables => .names <$> Service.tables
  | .getSchema table => .schema <$> Service.getSchema table
  | .setSchema table schema => do Service.setSchema table schema; return .done
  | .put records => .names <$> Service.put records
  | .planTimes table hint columns lower upper offset limit =>
    .groups <$> Service.planTimes table hint columns lower upper offset limit
  | .planIds table hint columns ids => .groups <$> Service.planIds table hint columns ids
  | .count table lower upper => .number <$> Service.count table lower upper
  | .deleteTimes table lower upper => do Service.deleteTimes table lower upper; return .done
  | .deleteIds table ids => do Service.deleteIds table ids; return .done
  | .search table query start limit => .hits <$> Service.search table query start limit
  | .searchCount table query => .number <$> Service.searchCount table query
  | .drillSearch r => .hits <$> Service.drillSearch r
  | .drillCount r => .number <$> Service.drillCount r
  | .drillRanges r => .ranges <$> Service.drillRanges r
  | .drillCategories r => .categories <$> Service.drillCategories r
  | .clearIndex table => do Service.clearIndex table; return .done

end Request

end Corpus
