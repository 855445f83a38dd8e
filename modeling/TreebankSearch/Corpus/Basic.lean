import TreebankSearch.Pattern.Signature
import TreebankSearch.Table

/-!
# Corpora

A corpus is split into shards, each of which holds one component and can be queried on its own. It
may name groups of components, declare metadata, and have a shape index, which lists for a signature
the components that hold trees of that shape.
-/

namespace TreebankSearch

inductive FieldKind where
  | text
  | int
  | date
  deriving Repr, DecidableEq

inductive RangeKind where
  | int
  | date
  deriving Repr, DecidableEq

def FieldKind.rangeKind : FieldKind → RangeKind
  | .date => .date
  | .text => .int
  | .int => .int

inductive Facet where
  | checkbox
  | slider
  | range
  | dropdown
  deriving Repr, DecidableEq

structure MetadataField where
  name : String
  kind : FieldKind
  facet : Facet
  deriving Repr, DecidableEq

abbrev MetadataSchema := List MetadataField

def MetadataSchema.field? (schema : MetadataSchema) (name : String) : Option MetadataField :=
  schema.find? (·.name = name)

structure Shard where
  machine : String
  port : UInt16
  component : String
  sentenceCount : Option Nat
  deriving Repr, DecidableEq

def Shard.address (shard : Shard) : String :=
  shard.component ++ "@" ++ shard.machine ++ ":" ++ toString shard.port.toNat

structure ComponentGroup where
  id : String
  description : String
  components : List String
  deriving Repr, DecidableEq

/-- For a signature, the components that hold trees of its shape, in the order of the search. -/
abbrev ShapeIndex := Table (List String)

def ShapeIndex.components? (index : ShapeIndex) (signature : Signature) : Option (List String) :=
  index.get? signature.text

def ShapeIndex.signatures (index : ShapeIndex) : List String :=
  index.keys.mergeSort fun a b => a ≤ b

structure Corpus where
  id : String
  shards : List Shard
  groups : List ComponentGroup
  multiple : Bool
  metadata : MetadataSchema
  index : Option ShapeIndex
  deriving Repr, DecidableEq

namespace Corpus

def ofShards (id : String) (shards : List Shard) : Corpus := ⟨id, shards, [], true, [], none⟩

def components (corpus : Corpus) : List String := corpus.shards.map (·.component)

def shard? (corpus : Corpus) (component : String) : Option Shard :=
  corpus.shards.find? (·.component = component)

def group? (corpus : Corpus) (id : String) : Option ComponentGroup :=
  corpus.groups.find? (·.id = id)

end Corpus
end TreebankSearch
