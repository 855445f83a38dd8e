import TreebankSearch.Corpus.Basic
import TreebankSearch.Json.Basic

/-!
# Metadata filters

A filter restricts a search to the documents whose metadata satisfy it. It is written as one bracket
behind the pattern. The values of fields stand in that bracket as quoted literals, in which the
ampersand and the double quote are escaped.

In a document a filter is an object whose member `type` names its kind, at any place among the fields
of that kind, or the array of the kind and all the fields. Since the kind may come last, a filter is
held whole before it is read, so that everything in it has to be plain, unknown members included.
-/

namespace TreebankSearch

inductive Filter where
  | single (field value : String)
  | range (field min max : String) (kind : RangeKind)
  | multiple (field : String) (values : List String)
  | raw (predicate : String)
  deriving Repr, DecidableEq

namespace Filter

def field? : Filter → Option String
  | .single field _ => some field
  | .range field _ _ _ => some field
  | .multiple field _ => some field
  | .raw _ => none

def escapeChar : Char → List Char
  | '&' => ['&', 'a', 'm', 'p', ';']
  | '"' => ['&', 'q', 'u', 'o', 't', ';']
  | c => [c]

def escape (text : String) : String := String.ofList (text.toList.flatMap escapeChar)

def dateDigits (text : String) : String := String.ofList (text.toList.filter Char.isDigit)

def entries : String := "ancestor::alpino_ds/metadata/meta"

def entryClause (field condition : String) : String :=
  "[" ++ entries ++ "[@name=\"" ++ escape field ++ "\" and " ++ condition ++ "]]"

def valueTest (value : String) : String := "@value=\"" ++ escape value ++ "\""

def boundsTest (expression min max : String) : String :=
  expression ++ ">=" ++ min ++ " and " ++ expression ++ "<=" ++ max

def rangeTest (min max : String) : RangeKind → String
  | .date => boundsTest "number(translate(@value,'-',''))" (dateDigits min) (dateDigits max)
  | .int => boundsTest "@value" (escape min) (escape max)

def clause : Filter → String
  | .single field value => entryClause field (valueTest value)
  | .range field min max kind => entryClause field (rangeTest min max kind)
  | .multiple field values =>
    entryClause field ("(" ++ " or ".intercalate (values.map valueTest) ++ ")")
  | .raw predicate => "[" ++ predicate ++ "]"

def clauses (filters : List Filter) : String := String.join (filters.map clause)

def attach (pattern : String) (filters : List Filter) : String := pattern ++ clauses filters

def isDeclared (schema : MetadataSchema) (filter : Filter) : Bool :=
  match filter.field? with
  | some field => (schema.field? field).isSome
  | none => true

def declared (schema : MetadataSchema) (filters : List Filter) : List Filter :=
  filters.filter (isDeclared schema)

def ofParameter? (schema : MetadataSchema) (field value : String) : Option Filter :=
  (schema.field? field).map fun declaration =>
    match value.toList.dropWhile (· ≠ '*') with
    | [] => .single field value
    | _ :: max =>
      .range field (String.ofList (value.toList.takeWhile (· ≠ '*'))) (String.ofList max)
        declaration.kind.rangeKind

end Filter

def RangeKind.names : List (String × RangeKind) := [("int", .int), ("date", .date)]

def RangeKind.toJson : RangeKind → Json
  | .int => .ofText "int"
  | .date => .ofText "date"

def RangeKind.ofJson? : Json → Option RangeKind
  | .object [(some name, .object [])] => names.lookup name
  | value => value.choice? names

namespace Filter

def toJson : Filter → Json
  | .single field value =>
    .record [("type", .ofText "single"), ("field", .ofText field), ("value", .ofText value)]
  | .range field min max kind =>
    .record [("type", .ofText "range"), ("field", .ofText field), ("min", .ofText min),
      ("max", .ofText max), ("kind", kind.toJson)]
  | .multiple field values =>
    .record [("type", .ofText "multiple"), ("field", .ofText field),
      ("values", .ofList .ofText values)]
  | .raw predicate =>
    .record [("type", .ofText "raw_predicate"), ("predicate", .ofText predicate)]

def fieldNames? : String → Option (List String)
  | "single" => some ["field", "value"]
  | "range" => some ["field", "min", "max", "kind"]
  | "multiple" => some ["field", "values"]
  | "raw_predicate" => some ["predicate"]
  | _ => none

def ofFields? (kind : String) (field : String → Option Json) : Option Filter :=
  match kind with
  | "single" => do
    return .single (← (field "field").bind Json.text?) (← (field "value").bind Json.text?)
  | "range" => do
    return .range (← (field "field").bind Json.text?) (← (field "min").bind Json.text?)
      (← (field "max").bind Json.text?) (← (field "kind").bind RangeKind.ofJson?)
  | "multiple" => do
    return .multiple (← (field "field").bind Json.text?)
      (← (field "values").bind (Json.list? Json.text?))
  | "raw_predicate" => do return .raw (← (field "predicate").bind Json.text?)
  | _ => none

def kindAndFields? : Json → Option (String × Json)
  | .object members => do
    let field ← (Json.object members).fields? ["type"]
    return (← (field "type").bind Json.text?,
      .object (members.filter fun member => member.1 ≠ some "type"))
  | .array (kind :: items) => do return (← kind.text?, .array items)
  | _ => none

def ofJson? (depth : Nat) (value : Json) : Option Filter :=
  if value.isPlain (Json.maxDepth - depth) then do
    let (kind, content) ← kindAndFields? value
    let field ← content.fields? (← fieldNames? kind)
    ofFields? kind field
  else none

def listOfJson? (value : Json) : Option (List Filter) := value.list? (ofJson? 1)

end Filter
end TreebankSearch
