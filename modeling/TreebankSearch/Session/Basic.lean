import TreebankSearch.Corpus.Plan
import TreebankSearch.Engine.Basic

/-!
# Search sessions

A session works through a queue of shards, one bounded query at a time. All its progress is in one
value, from which the search can be taken up again later: the place in the queue, the offset in the
current shard, and the hits that have been delivered.
-/

namespace TreebankSearch

inductive Phase where
  | querying
  | exhausted
  deriving Repr, DecidableEq

structure Session where
  corpus : String
  pattern : String
  originalPattern : String
  queue : List Shard
  position : Nat
  offset : Nat
  already : List String
  axis : Axis
  /-- The shards of the second pass, as long as it has not started. -/
  fallback : List Shard
  mode : Mode
  limit : Nat
  delivered : Nat
  context : Bool
  phase : Phase
  deriving Repr, DecidableEq

namespace Session

def start (corpus pattern originalPattern : String) (plan : Plan) (limit : Nat) (mode : Mode)
    (context : Bool) : Session where
  corpus := corpus
  pattern := pattern
  originalPattern := originalPattern
  queue := plan.shards
  position := 0
  offset := 0
  already := []
  axis := plan.axis
  fallback := plan.fallback
  mode := mode
  limit := limit
  delivered := 0
  context := context
  phase := .querying

def current? (s : Session) : Option Shard := s.queue[s.position]?

def queryPattern (s : Session) : String := s.axis.place s.pattern

def fallbackPending (s : Session) : Bool := s.axis = .root && !s.fallback.isEmpty

def ahead (s : Session) : List Shard :=
  s.queue.drop s.position ++ (if s.fallbackPending then s.fallback else [])

def advance (s : Session) : Session := { s with position := s.position + 1, offset := 0 }

def fallBack (s : Session) : Session :=
  { s with axis := .anywhere, queue := s.fallback, fallback := [], position := 0, offset := 0 }

/-- Starts the second pass if the first one is through. -/
def enter (s : Session) : Session :=
  if s.current?.isNone && s.fallbackPending then s.fallBack else s

def exhaust (s : Session) : Session := { s with phase := .exhausted }

def isDone (s : Session) : Bool :=
  s.limit ≤ s.delivered || s.current?.isNone && !s.fallbackPending

def settle (s : Session) : Session := if s.isDone then s.exhaust else s

end Session
end TreebankSearch
