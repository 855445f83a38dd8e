import TreebankSearch.Corpus.Json
import TreebankSearch.Encoding
import TreebankSearch.Json.Basic
import TreebankSearch.Session.Basic
import TreebankSearch.Text.Basic

/-!
# Resume tokens

A token is a whole session in one word: the compact JSON form of the session as UTF-8, in unpadded
base64. A token that comes from outside is taken only for the corpus it names, and only if each of
its shards is the one that the corpus has for that component.
-/

namespace TreebankSearch

def Phase.names : List (String × Phase) := [("querying", .querying), ("exhausted", .exhausted)]

def Phase.toJson : Phase → Json
  | .querying => .ofText "querying"
  | .exhausted => .ofText "exhausted"

def Axis.toJson (axis : Axis) : Json := .bool (axis = .anywhere)

def Axis.ofJson? (value : Json) : Option Axis :=
  value.bool?.map fun anywhere => if anywhere then .anywhere else .root

namespace Session

def toJson (s : Session) : Json :=
  .record [("corpus", .ofText s.corpus), ("pattern", .ofText s.pattern),
    ("original_pattern", .ofText s.originalPattern),
    ("shard_queue", .ofList Shard.toJson s.queue), ("current_shard", .ofNat s.position),
    ("resume_offset", .ofNat s.offset), ("already", .ofList .ofText s.already),
    ("fallback_mode", s.axis.toJson), ("fallback_shards", .ofList Shard.toJson s.fallback),
    ("mode", s.mode.toJson), ("limit", .ofNat s.limit), ("delivered", .ofNat s.delivered),
    ("context", .bool s.context), ("phase", s.phase.toJson)]

def ofJson? (value : Json) : Option Session := do
  let field ← value.fields?
    ["corpus", "pattern", "original_pattern", "shard_queue", "current_shard", "resume_offset",
      "already", "fallback_mode", "fallback_shards", "mode", "limit", "delivered", "context",
      "phase"]
  return {
    corpus := ← (field "corpus").bind Json.text?
    pattern := ← (field "pattern").bind Json.text?
    originalPattern := ← (field "original_pattern").bind Json.text?
    queue := ← (field "shard_queue").bind (Json.list? Shard.ofJson?)
    position := ← (field "current_shard").bind (Json.nat? maxNumber)
    offset := ← (field "resume_offset").bind (Json.nat? maxNumber)
    already := (← (field "already").bind (Json.list? Json.text?)).eraseDups
    axis := ← (field "fallback_mode").bind Axis.ofJson?
    fallback := ← (field "fallback_shards").bind (Json.list? Shard.ofJson?)
    mode := ← Json.defaulted? .normal (Json.choice? Mode.names) (field "mode")
    limit := ← (field "limit").bind (Json.nat? maxNumber)
    delivered := ← (field "delivered").bind (Json.nat? maxNumber)
    context := ← (field "context").bind Json.bool?
    phase := ← (field "phase").bind (Json.choice? Phase.names) }

end Session

inductive TokenError where
  | encoding
  | state
  | wrongCorpus (expected found : String)
  | unknownShard (shard : Shard)
  deriving Repr, DecidableEq

def TokenError.message : TokenError → String
  | .encoding => "not valid base64"
  | .state => "malformed state"
  | .wrongCorpus expected found => "token belongs to corpus " ++ found ++ ", not " ++ expected
  | .unknownShard shard => "shard " ++ shard.address ++ " is not part of the corpus"

namespace Token

def encode (s : Session) : String :=
  String.ofList (Base64Url.encode (Utf8.encode (Json.writeChars s.toJson)))

def decode (token : String) : Except TokenError Session :=
  match Base64Url.decode? (Text.trim token.toList) with
  | none => .error .encoding
  | some bytes =>
    match (Json.readMarked? (Utf8.decode bytes)).bind Session.ofJson? with
    | some session => .ok session
    | none => .error .state

def foreignShard? (corpus : Corpus) (s : Session) : Option Shard :=
  (s.queue ++ s.fallback).find? fun shard => corpus.shard? shard.component ≠ some shard

def decodeFor (corpus : Corpus) (token : String) : Except TokenError Session := do
  let session ← decode token
  if session.corpus ≠ corpus.id then .error (.wrongCorpus corpus.id session.corpus)
  else
    match foreignShard? corpus session with
    | some shard => .error (.unknownShard shard)
    | none => .ok session

end Token
end TreebankSearch
