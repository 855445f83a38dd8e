import TreebankSearch.Engine.Basic
import TreebankSearch.Hit.Markup
import TreebankSearch.Json.Basic
import TreebankSearch.Text.Basic
import TreebankSearch.Text.LetterCase

/-!
# Hits

A row of an engine made ready for display: its lists of numbers read, its metadata and variables in
tables, and the matched words of its sentence highlighted.

In a list of numbers the items have dashes between them. An item, blanks around it left out, counts
if it starts with digits or a plus sign; what follows the digits is passed over. An item whose number
needs more than 64 bits does not count.

The words of a sentence are what stands between single blanks, and each run of matched words gets one
pair of tags. In a sentence with context, only the part between the marks `<em>` and `</em>` has words
of its own.
-/

namespace TreebankSearch.IdList

def maxId : Nat := UInt64.size - 1

/-- The number of an item. A plus sign may stand alone and is zero then. -/
def number? (item : List Char) : Option Nat :=
  let (signed, rest) :=
    match item with
    | '+' :: rest => (true, rest)
    | rest => (false, rest)
  let digits := rest.takeWhile Char.isDigit
  let n := Nat.ofDigitChars 10 digits 0
  if (signed || !digits.isEmpty) && n ≤ maxId then some n else none

def read (list : String) : List Nat :=
  (list.toList.splitOn '-').filterMap fun item => number? (Text.trim item)

end TreebankSearch.IdList

namespace TreebankSearch.Highlight

def contextOpen : List Char := ['<', 'e', 'm', '>']

def contextClose : List Char := ['<', '/', 'e', 'm', '>']

def splitBefore? (w : List Char) : List Char → Option (List Char × List Char)
  | [] => if w.isEmpty then some ([], []) else none
  | c :: s =>
    if (Text.after? w (c :: s)).isSome then some ([], c :: s)
    else (splitBefore? w s).map fun (before, rest) => (c :: before, rest)

/-- The three parts of a sentence with context: up to the last opening mark that has a closing one
after it, up to the next closing mark, and from there on. -/
def splitContext? : List Char → Option (List Char × List Char × List Char)
  | [] => none
  | c :: s =>
    match splitContext? s with
    | some (before, body, rest) => some (c :: before, body, rest)
    | none => do
      let after ← Text.after? contextOpen (c :: s)
      let (body, rest) ← splitBefore? contextClose after
      return (contextOpen, body, rest)

def openTag (tag : List Char) : List Char := '<' :: (tag ++ ['>'])

def closeTag (tag : List Char) : List Char := '<' :: '/' :: (tag ++ ['>'])

def markWord (starts : List Nat) (tag : List Char) (i : Nat) (word : List Char) : List Char :=
  if starts.contains i then
    (if 0 < i && starts.contains (i - 1) then [] else openTag tag) ++ word ++
      (if starts.contains (i + 1) then [] else closeTag tag)
  else word

def markWords (starts : List Nat) (tag s : List Char) : List Char :=
  [' '].intercalate ((s.splitOn ' ').mapIdx (markWord starts tag))

def sentence (sentence : String) (starts : List Nat) (tag : String) : String :=
  String.ofList <|
    match splitContext? sentence.toList with
    | some (before, body, rest) =>
      before ++ ' ' :: (markWords starts tag.toList body ++ ' ' :: rest)
    | none => markWords starts tag.toList sentence.toList

end TreebankSearch.Highlight

namespace TreebankSearch

structure Hit where
  id : String
  shard : String
  sentenceId : String
  component : String
  sentence : String
  highlighted : String
  nodeIds : List Nat
  nodeStarts : List Nat
  tree : String
  metadata : Table String
  bindings : Table (Table String)
  deriving Repr, DecidableEq

namespace Hit

def highlightTag : String := "strong"

def afterEnd? (s : List Char) : Option (List Char) :=
  match s.takeWhile Text.isDecimalDigit with
  | [] => Text.after? ['a', 'l', 'l'] s
  | _ :: _ => some (s.dropWhile Text.isDecimalDigit)

def isPlace (s : List Char) : Bool :=
  let number := do
    let ending ← Text.after? "-endPos=".toList s
    Text.after? "+match=".toList (← afterEnd? ending)
  match number with
  | some digits => !digits.isEmpty && digits.all Text.isDecimalDigit
  | none => false

def dropPlace : List Char → List Char
  | [] => []
  | c :: s => if isPlace (c :: s) then [] else c :: dropPlace s

def componentOf (id : List Char) : List Char := Text.upper (id.takeWhile (· ≠ '-'))

def ofRow (shard : String) (row : Row) : Hit :=
  let starts := IdList.read row.begins
  { id := row.id
    shard := shard
    sentenceId := String.ofList (dropPlace row.id.toList)
    component := String.ofList (componentOf row.id.toList)
    sentence := row.sentence
    highlighted := Highlight.sentence row.sentence starts highlightTag
    nodeIds := IdList.read row.nodeIds
    nodeStarts := starts
    tree := row.tree
    metadata := Markup.metadata row.metadata
    bindings := Markup.bindings row.bindings }

def countValue (counts : Table (Table Nat)) (field value : String) : Table (Table Nat) :=
  counts.alter field fun values => (values.getD .empty).alter value fun count => count.getD 0 + 1

def metadataCounts (hits : List Hit) : Table (Table Nat) :=
  (hits.flatMap (·.metadata.entries)).foldl
    (fun counts (field, value) => countValue counts field value) .empty

end Hit

def Table.toJson {α : Type} (f : α → Json) (table : Table α) : Json :=
  .record (table.entries.map fun (key, value) => (key, f value))

def Hit.toJson (hit : Hit) : Json :=
  .record [("id", .ofText hit.id), ("shard_id", .ofText hit.shard),
    ("file_id", .ofText hit.sentenceId), ("component", .ofText hit.component),
    ("sentence", .ofText hit.sentence), ("highlighted_sentence", .ofText hit.highlighted),
    ("node_ids", .ofList .ofNat hit.nodeIds), ("node_starts", .ofList .ofNat hit.nodeStarts),
    ("tree_xml", .ofText hit.tree), ("meta_values", hit.metadata.toJson .ofText),
    ("variable_values", hit.bindings.toJson fun attributes => attributes.toJson .ofText)]

end TreebankSearch
