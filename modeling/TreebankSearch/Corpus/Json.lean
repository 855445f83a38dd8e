import TreebankSearch.Corpus.Catalog
import TreebankSearch.Json.Basic
import TreebankSearch.Json.Reader

/-!
# Corpora and catalogs in documents

The JSON form of a catalog and of its parts. Fields that may be left out have the value that an
unconfigured corpus or limit has.
-/

namespace TreebankSearch

/-- The largest number of 64 bits, which bounds the counters in documents. -/
def maxNumber : Nat := UInt64.size - 1

namespace Shard

def toJson (shard : Shard) : Json :=
  .record
    ([("machine", .ofText shard.machine), ("port", .ofNat shard.port.toNat),
      ("component", .ofText shard.component)] ++
      (shard.sentenceCount.map fun n => ("sentence_count", Json.ofNat n)).toList)

def ofJson? (value : Json) : Option Shard := do
  let field ← value.fields? ["machine", "port", "component", "sentence_count"]
  return {
    machine := ← (field "machine").bind Json.text?
    port := UInt16.ofNat (← (field "port").bind (Json.nat? 65535))
    component := ← (field "component").bind Json.text?
    sentenceCount :=
      ← Json.defaulted? none (Json.nullable? (Json.nat? maxNumber)) (field "sentence_count") }

end Shard

namespace ComponentGroup

def toJson (group : ComponentGroup) : Json :=
  .record [("id", .ofText group.id), ("description", .ofText group.description),
    ("components", .ofList .ofText group.components)]

def ofJson? (value : Json) : Option ComponentGroup := do
  let field ← value.fields? ["id", "description", "components"]
  return {
    id := ← (field "id").bind Json.text?
    description := ← Json.defaulted? "" Json.text? (field "description")
    components := ← (field "components").bind (Json.list? Json.text?) }

end ComponentGroup

def FieldKind.names : List (String × FieldKind) := [("text", .text), ("int", .int), ("date", .date)]

def FieldKind.toJson : FieldKind → Json
  | .text => .ofText "text"
  | .int => .ofText "int"
  | .date => .ofText "date"

def Facet.names : List (String × Facet) :=
  [("checkbox", .checkbox), ("slider", .slider), ("range", .range), ("dropdown", .dropdown)]

def Facet.toJson : Facet → Json
  | .checkbox => .ofText "checkbox"
  | .slider => .ofText "slider"
  | .range => .ofText "range"
  | .dropdown => .ofText "dropdown"

namespace MetadataField

def toJson (field : MetadataField) : Json :=
  .record [("field", .ofText field.name), ("type", field.kind.toJson), ("facet", field.facet.toJson)]

def ofJson? (value : Json) : Option MetadataField := do
  let field ← value.fields? ["field", "type", "facet"]
  return {
    name := ← (field "field").bind Json.text?
    kind := ← (field "type").bind (Json.choice? FieldKind.names)
    facet := ← (field "facet").bind (Json.choice? Facet.names) }

end MetadataField

def MetadataSchema.toJson (schema : MetadataSchema) : Json := .ofList MetadataField.toJson schema

def MetadataSchema.ofJson? (value : Json) : Option MetadataSchema :=
  value.list? MetadataField.ofJson?

def ShapeIndex.toJson (index : ShapeIndex) : Json :=
  .record (index.entries.map fun (signature, components) => (signature, .ofList .ofText components))

def ShapeIndex.ofJson? (value : Json) : Option ShapeIndex :=
  (value.table? (Json.list? Json.text?)).map Table.ofList

namespace Corpus

def toJson (corpus : Corpus) : Json :=
  .record
    ([("id", .ofText corpus.id), ("shards", .ofList Shard.toJson corpus.shards),
      ("component_groups", .ofList ComponentGroup.toJson corpus.groups),
      ("multi_option", .bool corpus.multiple), ("metadata", corpus.metadata.toJson)] ++
      (corpus.index.map fun index => ("shape_index", index.toJson)).toList)

def ofJson? (value : Json) : Option Corpus := do
  let field ← value.fields?
    ["id", "shards", "component_groups", "multi_option", "metadata", "shape_index"]
  return {
    id := ← (field "id").bind Json.text?
    shards := ← (field "shards").bind (Json.list? Shard.ofJson?)
    groups := ← Json.defaulted? [] (Json.list? ComponentGroup.ofJson?) (field "component_groups")
    multiple := ← Json.defaulted? true Json.bool? (field "multi_option")
    metadata := ← Json.defaulted? [] MetadataSchema.ofJson? (field "metadata")
    index := ← Json.defaulted? none (Json.nullable? ShapeIndex.ofJson?) (field "shape_index") }

end Corpus

namespace Limits

def toJson (limits : Limits) : Json :=
  .record [("flush", .ofNat limits.flush), ("results", .ofNat limits.results),
    ("analysis", .ofNat limits.analysis)]

def ofJson? (value : Json) : Option Limits := do
  let field ← value.fields? ["flush", "results", "analysis"]
  let default : Limits := {}
  return {
    flush := ← Json.defaulted? default.flush (Json.nat? maxNumber) (field "flush")
    results := ← Json.defaulted? default.results (Json.nat? maxNumber) (field "results")
    analysis := ← Json.defaulted? default.analysis (Json.nat? maxNumber) (field "analysis") }

end Limits

def Mode.names : List (String × Mode) := [("normal", .normal), ("analysis", .analysis)]

def Mode.toJson : Mode → Json
  | .normal => .ofText "normal"
  | .analysis => .ofText "analysis"

namespace Catalog

def partsOfJson? (value : Json) : Option (Limits × List Corpus) := do
  let field ← value.fields? ["limits", "corpora"]
  return (← Json.defaulted? {} Limits.ofJson? (field "limits"),
    ← (field "corpora").bind (Json.list? Corpus.ofJson?))

def ofJson (value : Json) : Except CatalogError Catalog :=
  match partsOfJson? value with
  | some (limits, corpora) => build limits corpora
  | none => .error .malformed

def ofText (document : String) : Except CatalogError Catalog :=
  match Json.read? document with
  | some value => ofJson value
  | none => .error .malformed

end Catalog
end TreebankSearch
