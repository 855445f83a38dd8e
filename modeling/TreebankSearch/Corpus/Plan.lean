import TreebankSearch.Corpus.Catalog
import TreebankSearch.Pattern.Normal

/-!
# Choosing shards

Which shards a search visits. A selection names components and groups; an empty one means the whole
corpus. Where the shape index lists some of the selected components for the signature of the
pattern, these are searched first, at the root of the documents; all selected shards, searched
anywhere in the documents, are kept as a fallback.
-/

namespace TreebankSearch

inductive SelectionError where
  | unknownCorpus (id : String)
  | unknownComponent (corpus component : String)
  | exclusiveComponents (corpus : String) (count : Nat)
  deriving Repr, DecidableEq

def SelectionError.message : SelectionError → String
  | .unknownCorpus id => "Unknown corpus: " ++ id
  | .unknownComponent corpus component =>
    "Unknown component " ++ component ++ " in corpus " ++ corpus
  | .exclusiveComponents corpus count =>
    "Corpus " ++ corpus ++ " allows one component at a time, " ++ toString count ++ " selected"

structure Plan where
  axis : Axis
  shards : List Shard
  /-- The shards of the second pass, anywhere in the documents, if the first pass is pruned. -/
  fallback : List Shard
  deriving Repr, DecidableEq

def Plan.full (shards : List Shard) : Plan := ⟨.anywhere, shards, []⟩

namespace Corpus

def selected (corpus : Corpus) (id : String) : Except SelectionError (List String) :=
  match corpus.group? id, corpus.shard? id with
  | some group, _ => .ok group.components
  | none, some _ => .ok [id]
  | none, none => .error (.unknownComponent corpus.id id)

/-- The components that a selection stands for, each at its first place. -/
def expand (corpus : Corpus) (selection : List String) : Except SelectionError (List String) :=
  (selection.mapM corpus.selected).map fun components => components.flatten.eraseDups

def allows (components : List String) (component : String) : Bool :=
  components.isEmpty || components.contains component

def indexed (corpus : Corpus) (index : ShapeIndex) (signature : Option Signature)
    (components : List String) : List Shard :=
  (((signature.bind index.components?).getD []).filter (allows components)).filterMap corpus.shard?

def planFor (corpus : Corpus) (signature : Option Signature) (components : List String) : Plan :=
  match corpus.index with
  | none =>
    .full (if components.isEmpty then corpus.shards else components.filterMap corpus.shard?)
  | some index =>
    let all := corpus.shards.filter fun shard => allows components shard.component
    match corpus.indexed index signature components with
    | [] => .full all
    | shard :: shards => ⟨.root, shard :: shards, all⟩

def plan (corpus : Corpus) (signature : Option Signature) (selection : List String) :
    Except SelectionError Plan := do
  let components ← corpus.expand selection
  if !corpus.multiple && 1 < components.length then
    .error (.exclusiveComponents corpus.id components.length)
  else .ok (corpus.planFor signature components)

end Corpus

def Catalog.corpus (catalog : Catalog) (id : String) : Except SelectionError Corpus :=
  match catalog.corpus? id with
  | some corpus => .ok corpus
  | none => .error (.unknownCorpus id)

end TreebankSearch
