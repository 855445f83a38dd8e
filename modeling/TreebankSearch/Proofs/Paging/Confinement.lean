import TreebankSearch.Proofs.Paging.Browse
import TreebankSearch.Proofs.Session.Confinement

/-!
# Requests confined to a corpus

A token comes back from outside and may have been made up: its session may stand anywhere and may
claim any limit. What is checked once, when the request comes in, holds for all queries that follow.
They go to shards of the corpus that the request names, and neither a page nor a collection
exceeds what the catalog allows.
-/

namespace TreebankSearch.Catalog

variable {σ : Type} {catalog : Catalog} {engine : Engine σ} {request : Request} {world : σ}
variable {limits : Limits} {corpora : List Corpus} {s : Session}

def PageSends (catalog : Catalog) (engine : Engine σ) (request : Request) (world : σ)
    (query : ShardQuery) : Prop :=
  ∃ s before, catalog.session request = .ok s ∧
    Session.Sends engine catalog.limits.flush s world before query

def CollectSends (catalog : Catalog) (engine : Engine σ) (request : Request) (world : σ)
    (query : ShardQuery) : Prop :=
  ∃ s turns t between before, catalog.session request = .ok s ∧
    Session.Run engine catalog.limits.flush s world turns t between ∧
    (∀ turn ∈ turns, ∃ batch, turn.result = .ok (some batch)) ∧
    Session.Sends engine catalog.limits.flush t between before query

theorem resume_eq_ok_iff {id token : String} : catalog.resume id token = .ok s ↔
    ∃ corpus decoded limit, catalog.corpus? id = some corpus ∧
      Token.decodeFor corpus token = .ok decoded ∧
      catalog.limits.cap? decoded.mode = some limit ∧ s = { decoded with limit := limit } := by
  unfold resume
  cases hc : catalog.corpus? id with
  | none => simp [Catalog.corpus, hc, Except.mapError, bind, Except.bind]
  | some corpus =>
    cases hd : Token.decodeFor corpus token with
    | error e => simp [Catalog.corpus, hc, hd, Except.mapError, bind, Except.bind]
    | ok decoded =>
      cases hl : catalog.limits.cap? decoded.mode with
      | none => simp [Catalog.corpus, hc, hd, cap, hl, Except.mapError, bind, Except.bind]
      | some limit =>
        simp [Catalog.corpus, hc, hd, cap, hl, Except.mapError, bind, Except.bind, pure, Except.pure,
          eq_comm]

theorem session_of_token {token : String} (h : request.token = some token) :
    catalog.session request = catalog.resume request.corpus token := by
  rw [session, h]

theorem flush_of_build (hb : build limits corpora = .ok catalog) : 1 ≤ catalog.limits.flush := by
  unfold build at hb
  split at hb
  · cases hb
  split at hb
  · cases hb
  · next hf _ _ =>
    cases hb
    exact Nat.pos_of_ne_zero hf

theorem confined_session (hb : build limits corpora = .ok catalog)
    (h : catalog.session request = .ok s) :
    ∃ corpus, catalog.corpus? request.corpus = some corpus ∧ s.Confined corpus := by
  unfold session at h
  split at h
  · obtain ⟨corpus, decoded, limit, hc, hd, _, rfl⟩ := resume_eq_ok_iff.1 h
    refine ⟨corpus, hc, ?_⟩
    intro shard hm
    exact (Corpus.shard?_eq_some ((Token.decodeFor_eq_ok_iff.1 hd).2.2 shard hm)).1
  · obtain ⟨corpus, limit, plan, pattern, original, hc, _, hp, rfl⟩ := start_eq_ok h
    obtain ⟨components, _, rfl⟩ := Corpus.plan_eq_ok hp
    refine ⟨corpus, hc, ?_⟩
    intro shard hm
    exact Corpus.mem_planFor (components_nodup hb corpus (List.mem_of_find?_eq_some hc)) hm

theorem permits_of_sends (hb : build limits corpora = .ok catalog) {query : ShardQuery}
    (h : catalog.PageSends engine request world query ∨
      catalog.CollectSends engine request world query) :
    ∃ corpus, catalog.corpus? request.corpus = some corpus ∧
      Session.Permits corpus catalog.limits.flush query := by
  rcases h with ⟨s, before, hs, hq⟩ | ⟨s, turns, t, between, before, hs, hr, hturns, hq⟩
  · obtain ⟨corpus, hc, hconf⟩ := confined_session hb hs
    exact ⟨corpus, hc, hconf.sends hq⟩
  · obtain ⟨corpus, hc, hconf⟩ := confined_session hb hs
    exact ⟨corpus, hc, (hconf.run hr hturns).sends hq⟩

theorem no_sends_of_error {error : SearchError} (h : catalog.session request = .error error)
    (query : ShardQuery) : ¬ catalog.PageSends engine request world query ∧
      ¬ catalog.CollectSends engine request world query := by
  constructor
  · rintro ⟨s, _, hs, _⟩
    rw [h] at hs
    cases hs
  · rintro ⟨s, _, _, _, _, hs, _⟩
    rw [h] at hs
    cases hs

theorem length_hits (batch : Batch) : batch.hits.length = batch.rows.length := List.length_map _

theorem length_page_le {page : Page} {after : σ}
    (h : catalog.page engine request world = (.ok page, after)) :
    page.hits.length ≤ max catalog.limits.flush 1 := by
  unfold Catalog.page at h
  split at h
  · cases h
  · next s hs =>
    split at h
    · next batch t _ hn =>
      cases h
      cases batch with
      | none => exact Nat.zero_le _
      | some batch =>
        obtain ⟨_, hc⟩ := Session.search_eq_some_iff.1 (Session.search_of_nextBatch hn)
        have hl := hc.room.1
        rwa [← length_hits] at hl
    · cases h

theorem length_collect_le {hits : List Hit} {after : σ}
    (h : catalog.collect engine request world = (.ok hits, after)) :
    ∃ s, catalog.session request = .ok s ∧ hits.length ≤ s.room := by
  unfold collect at h
  split at h
  · cases h
  · next s hs =>
    split at h
    · next batches _ _ hd =>
      cases h
      refine ⟨s, hs, ?_⟩
      have hl := Session.length_drain_le _ rfl hd
      rw [List.length_flatMap] at hl ⊢
      rwa [funext length_hits]
    · cases h

/-- Nothing depends on what an engine answers to any other query: engines that agree on the permitted
ones give the same pages and the same collections. -/
theorem page_agree (hb : build limits corpora = .ok catalog) {other : Engine σ}
    (ha : ∀ corpus query world, catalog.corpus? request.corpus = some corpus →
      Session.Permits corpus catalog.limits.flush query →
      other.answer query world = engine.answer query world) :
    catalog.page other request world = catalog.page engine request world ∧
      catalog.collect other request world = catalog.collect engine request world := by
  cases hs : catalog.session request with
  | error error => simp only [page, collect, hs, and_self]
  | ok s =>
    obtain ⟨corpus, hc, hconf⟩ := confined_session hb hs
    have hnext := hconf.nextBatch_agree (fun query world => ha corpus query world hc) world
    have hdrain := hconf.drain_agree (fun query world => ha corpus query world hc) _ world rfl
    simp only [page, collect, hs, hnext, hdrain, and_self]

/-- No token steers queries out of the corpus or lifts a limit. Every query goes to a shard of the
corpus that the request names, and asks for at least one row and for no more than `flush`; a request
that is refused sends no query; a page has no more than `flush` hits; and a collection has no more
than the catalog allows in the mode of the token, whatever else the token says. -/
theorem queries_confined (hb : build limits corpora = .ok catalog) (engine : Engine σ)
    (request : Request) (world : σ) :
    (∀ query, catalog.PageSends engine request world query ∨
        catalog.CollectSends engine request world query →
      ∃ corpus, catalog.corpus? request.corpus = some corpus ∧ query.shard ∈ corpus.shards ∧
        1 ≤ query.limit ∧ query.limit ≤ catalog.limits.flush) ∧
    (∀ token error, request.token = some token →
      catalog.resume request.corpus token = .error error →
      catalog.page engine request world = (.error error, world) ∧
        catalog.collect engine request world = (.error error, world) ∧
        ∀ query, ¬ catalog.PageSends engine request world query ∧
          ¬ catalog.CollectSends engine request world query) ∧
    (∀ page after, catalog.page engine request world = (.ok page, after) →
      page.hits.length ≤ catalog.limits.flush) ∧
    ∀ token hits after, request.token = some token →
      catalog.collect engine request world = (.ok hits, after) →
      ∃ session cap, Token.decode token = .ok session ∧
        catalog.limits.cap? session.mode = some cap ∧
        (session.mode = .normal → cap = catalog.limits.results) ∧
        (session.mode = .analysis → cap = catalog.limits.analysis) ∧ hits.length ≤ cap := by
  have hmax : max catalog.limits.flush 1 = catalog.limits.flush :=
    Nat.max_eq_left (flush_of_build hb)
  refine ⟨?_, ?_, ?_, ?_⟩
  · intro query hq
    obtain ⟨corpus, hc, hpermit⟩ := permits_of_sends hb hq
    exact ⟨corpus, hc, hpermit.shard, hpermit.positive, hmax ▸ hpermit.bounded⟩
  · intro token error ht he
    have hs : catalog.session request = .error error := (session_of_token ht).trans he
    exact ⟨by rw [page, hs], by rw [collect, hs], no_sends_of_error hs⟩
  · intro page after hp
    exact hmax ▸ length_page_le hp
  · intro token hits after ht hcol
    obtain ⟨s, hs, hl⟩ := length_collect_le hcol
    rw [session_of_token ht] at hs
    obtain ⟨corpus, decoded, cap, _, hd, hcap, rfl⟩ := resume_eq_ok_iff.1 hs
    obtain ⟨hnormal, hanalysis⟩ := eq_of_cap? hcap
    exact ⟨decoded, cap, (Token.decodeFor_eq_ok_iff.1 hd).1, hcap, hnormal, hanalysis,
      Nat.le_trans hl (Nat.sub_le _ _)⟩

def forgedSession : Session where
  corpus := "c"
  pattern := "node[@cat]"
  originalPattern := ""
  queue := [⟨"db", 2, "B", none⟩, ⟨"db", 1, "A", some 2⟩]
  position := 1
  offset := 7
  already := []
  axis := .root
  fallback := [⟨"db", 1, "C", none⟩, ⟨"db", 1, "C", none⟩]
  mode := .normal
  limit := maxNumber
  delivered := 1
  context := true
  phase := .querying

def forgedRequest : Request :=
  { corpus := "c", pattern := "", token := some (Token.encode forgedSession) }

theorem queries_confined_sample :
    ∃ catalog, build sampleLimits sampleCorpora = .ok catalog ∧
      catalog.PageSends MemoryEngine.engine forgedRequest Session.sampleEngine
        ⟨"/node[@cat]", ⟨"db", 1, "A", some 2⟩, 7, 2, true⟩ ∧
      (∀ query, catalog.PageSends MemoryEngine.engine forgedRequest Session.sampleEngine query ∨
          catalog.CollectSends MemoryEngine.engine forgedRequest Session.sampleEngine query →
        ∃ corpus, catalog.corpus? "c" = some corpus ∧ query.shard ∈ corpus.shards ∧
          1 ≤ query.limit ∧ query.limit ≤ 2) ∧
      ∀ hits after, catalog.collect MemoryEngine.engine forgedRequest Session.sampleEngine =
        (.ok hits, after) → ∃ session cap, Token.decode (Token.encode forgedSession) = .ok session ∧
          catalog.limits.cap? session.mode = some cap ∧
          (session.mode = .normal → cap = catalog.limits.results) ∧
          (session.mode = .analysis → cap = catalog.limits.analysis) ∧ hits.length ≤ cap := by
  have hb : build sampleLimits sampleCorpora = .ok ⟨sampleLimits, sampleCorpora⟩ := rfl
  have hstore : forgedSession.Storable := by
    constructor <;> simp [forgedSession, Shard.Fits, maxNumber]
  have hd : Token.decodeFor (sampleCorpora.head (by decide)) (Token.encode forgedSession) =
    .ok forgedSession := Token.decodeFor_encode hstore rfl (by decide)
  have hs : (⟨sampleLimits, sampleCorpora⟩ : Catalog).session forgedRequest = _ :=
    (session_of_token rfl).trans (resume_eq_ok_iff.2 ⟨_, _, 3, rfl, hd, rfl, rfl⟩)
  obtain ⟨hqueries, _, _, hhits⟩ :=
    queries_confined hb MemoryEngine.engine forgedRequest Session.sampleEngine
  exact ⟨_, hb, ⟨_, [], hs, .first rfl⟩, hqueries, fun hits after h => hhits _ hits after rfl h⟩

end TreebankSearch.Catalog
