import TreebankSearch.Corpus.Basic

/-!
# Query engines

The service that runs a pattern over one shard and answers with a bounded slice of the matches. An
engine is given by how it answers a query in a state of its own, which the answer may change.

There are two engines for use without such a service. One holds a fixed list of rows in memory for each
component. It does not look at the pattern: every query over a component gets its slice of the same
list. The other one has its answers laid down beforehand, one for each query, whatever the query asks,
and finds nothing when they have run out.
-/

namespace TreebankSearch

structure ShardQuery where
  pattern : String
  shard : Shard
  offset : Nat
  limit : Nat
  context : Bool
  deriving Repr, DecidableEq

structure Row where
  id : String
  sentence : String := ""
  nodeIds : String := ""
  begins : String := ""
  tree : String := ""
  metadata : String := ""
  bindings : String := ""
  deriving Repr, DecidableEq

inductive EngineError where
  | query (shard message : String)
  | unavailable (message : String)
  deriving Repr, DecidableEq

def EngineError.message : EngineError → String
  | .query shard message => "Query on shard " ++ shard ++ " failed: " ++ message
  | .unavailable message => "Query engine unavailable: " ++ message

abbrev Reply := Except EngineError (List Row)

structure Engine (σ : Type) where
  answer : ShardQuery → σ → Reply × σ

structure MemoryEngine where
  rows : Table (List Row)
  failing : List String
  switchedOff : Bool
  received : List ShardQuery
  deriving Repr, DecidableEq

namespace MemoryEngine

def rowsOf (m : MemoryEngine) (component : String) : List Row := (m.rows.get? component).getD []

def answer (query : ShardQuery) (m : MemoryEngine) : Reply × MemoryEngine :=
  if m.switchedOff then (.error (.unavailable "memory engine switched off"), m)
  else
    let component := query.shard.component
    let reply :=
      if component ∈ m.failing then .error (.query component "shard failure")
      else .ok (((m.rowsOf component).drop query.offset).take query.limit)
    (reply, { m with received := query :: m.received })

def engine : Engine MemoryEngine := ⟨answer⟩

def queries (m : MemoryEngine) : List ShardQuery := m.received.reverse

end MemoryEngine

inductive ScriptedReply where
  | rows (rows : List Row)
  | failure (message : String)
  | unavailable (message : String)
  deriving Repr, DecidableEq

structure ScriptEngine where
  replies : List ScriptedReply
  received : List ShardQuery
  deriving Repr, DecidableEq

namespace ScriptEngine

def reply (query : ShardQuery) : ScriptedReply → Reply
  | .rows rows => .ok rows
  | .failure message => .error (.query query.shard.component message)
  | .unavailable message => .error (.unavailable message)

def answer (query : ShardQuery) (e : ScriptEngine) : Reply × ScriptEngine :=
  match e.replies with
  | [] => (.ok [], { e with received := query :: e.received })
  | first :: rest => (reply query first, ⟨rest, query :: e.received⟩)

def engine : Engine ScriptEngine := ⟨answer⟩

def queries (e : ScriptEngine) : List ShardQuery := e.received.reverse

end ScriptEngine
end TreebankSearch
