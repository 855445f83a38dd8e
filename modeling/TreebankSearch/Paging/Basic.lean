import TreebankSearch.Corpus.Json
import TreebankSearch.Filter.Basic
import TreebankSearch.Hit.Basic
import TreebankSearch.Pattern.Normal
import TreebankSearch.Session.Search
import TreebankSearch.Session.Token

/-!
# Paged search

One request fetches one page of hits. A first request starts a session: it chooses the shards,
attaches the filters and normalizes the pattern. A request with a token goes on with the session of
the token, within the limit that the catalog sets now. A page has a token for the next page unless
the session is exhausted.
-/

namespace TreebankSearch

structure Request where
  corpus : String
  components : List String := []
  pattern : String
  filters : List Filter := []
  mode : Mode := .normal
  context : Bool := false
  /-- The token of the page before. All of the request but the corpus then comes from the token. -/
  token : Option String := none
  deriving Repr, DecidableEq

def Request.resumed (request : Request) (token : String) : Request :=
  { request with token := some token }

inductive SearchError where
  | selection (cause : SelectionError)
  | modeDisabled (mode : Mode)
  | token (cause : TokenError)
  | interrupted (cause : Interruption)
  deriving Repr, DecidableEq

def Mode.label : Mode → String
  | .normal => "Normal"
  | .analysis => "Analysis"

def Interruption.message : Interruption → String
  | .engineUnavailable message => "Query engine unavailable: " ++ message
  | .outOfPatience => "Query engine keeps the session from moving on"

def SearchError.message : SearchError → String
  | .selection cause => cause.message
  | .modeDisabled mode => "Search mode " ++ mode.label ++ " is disabled"
  | .token cause => "Invalid resume token: " ++ cause.message
  | .interrupted cause => cause.message

structure Page where
  hits : List Hit
  token : Option String
  exhausted : Bool
  deriving Repr, DecidableEq

namespace Batch

def hits (batch : Batch) : List Hit := batch.rows.map (Hit.ofRow batch.component)

end Batch

namespace Catalog

def cap (catalog : Catalog) (mode : Mode) : Except SearchError Nat :=
  match catalog.limits.cap? mode with
  | some cap => .ok cap
  | none => .error (.modeDisabled mode)

def start (catalog : Catalog) (request : Request) : Except SearchError Session := do
  let corpus ← (catalog.corpus request.corpus).mapError .selection
  let limit ← catalog.cap request.mode
  let plan ← (corpus.plan (Signature.derive? request.pattern) request.components).mapError .selection
  let filtered := Filter.attach request.pattern (Filter.declared corpus.metadata request.filters)
  return .start corpus.id (Pattern.normalize plan.axis filtered)
    (Pattern.normalize plan.axis request.pattern) plan limit request.mode request.context

/-- The session of a token, with the limit of its mode. -/
def resume (catalog : Catalog) (id token : String) : Except SearchError Session := do
  let corpus ← (catalog.corpus id).mapError .selection
  let session ← (Token.decodeFor corpus token).mapError .token
  let limit ← catalog.cap session.mode
  return { session with limit := limit }

def session (catalog : Catalog) (request : Request) : Except SearchError Session :=
  match request.token with
  | some token => catalog.resume request.corpus token
  | none => catalog.start request

def pageOf (batch : Option Batch) (s : Session) : Page :=
  let exhausted : Bool := s.phase = .exhausted
  { hits := (batch.map Batch.hits).getD []
    token := if exhausted then none else some (Token.encode s)
    exhausted := exhausted }

def page {σ : Type} (catalog : Catalog) (engine : Engine σ) (request : Request) (world : σ) :
    Except SearchError Page × σ :=
  match catalog.session request with
  | .error error => (.error error, world)
  | .ok session =>
    match session.nextBatch engine catalog.limits.flush world with
    | (.ok batch, session, world) => (.ok (pageOf batch session), world)
    | (.error interruption, _, world) => (.error (.interrupted interruption), world)

def collect {σ : Type} (catalog : Catalog) (engine : Engine σ) (request : Request) (world : σ) :
    Except SearchError (List Hit) × σ :=
  match catalog.session request with
  | .error error => (.error error, world)
  | .ok session =>
    match session.drain engine catalog.limits.flush world with
    | (.ok batches, _, world) => (.ok (batches.flatMap Batch.hits), world)
    | (.error interruption, _, world) => (.error (.interrupted interruption), world)

end Catalog

namespace Request

def toJson (request : Request) : Json :=
  .record
    ([("corpus", .ofText request.corpus), ("components", .ofList .ofText request.components),
      ("pattern", .ofText request.pattern), ("filters", .ofList Filter.toJson request.filters),
      ("mode", request.mode.toJson), ("context", .bool request.context)] ++
      (request.token.map fun token => ("resume_token", Json.ofText token)).toList)

def ofJson? (value : Json) : Option Request := do
  let field ← value.fields?
    ["corpus", "components", "pattern", "filters", "mode", "context", "resume_token"]
  return {
    corpus := ← (field "corpus").bind Json.text?
    components := ← Json.defaulted? [] (Json.list? Json.text?) (field "components")
    pattern := ← (field "pattern").bind Json.text?
    filters := ← Json.defaulted? [] (Json.list? (Filter.ofJson? 2)) (field "filters")
    mode := ← Json.defaulted? .normal (Json.choice? Mode.names) (field "mode")
    context := ← Json.defaulted? false Json.bool? (field "context")
    token := ← Json.defaulted? none (Json.nullable? Json.text?) (field "resume_token") }

end Request
end TreebankSearch
