import TreebankSearch.Paging.Basic
import TreebankSearch.Proofs.Session.Resume

/-!
# Browsing through pages

Fetching page after page with the token of the page before brings the same hits as collecting them at
once. Each token stands for the session that has been cut there: collecting from it brings the hits of
the pages that follow.
-/

namespace TreebankSearch

namespace Catalog

variable {σ : Type} {engine : Engine σ} {held : Holdings} {worlds : σ → Prop}
variable {catalog : Catalog} {corpus : Corpus} {request : Request} {s : Session}

/-- The pages of a client that sends a request, and then the same request with each token that it is
given, until a page says that it is the last one. -/
inductive Browse (catalog : Catalog) (engine : Engine σ) : Request → σ → List Page → σ → Prop
  | last {request : Request} {world after : σ} {page : Page} :
      catalog.page engine request world = (.ok page, after) → page.exhausted = true →
      Browse catalog engine request world [page] after
  | more {request : Request} {world between after : σ} {page : Page} {token : String}
      {pages : List Page} :
      catalog.page engine request world = (.ok page, between) → page.exhausted = false →
      page.token = some token → Browse catalog engine (request.resumed token) between pages after →
      Browse catalog engine request world (page :: pages) after

/-- The sizes that a search meets are numbers of 64 bits. -/
structure Fits (catalog : Catalog) : Prop where
  results : catalog.limits.results ≤ maxNumber
  analysis : catalog.limits.analysis ≤ maxNumber
  counts : ∀ corpus ∈ catalog.corpora, ∀ shard ∈ corpus.shards, shard.Fits
  shards : ∀ corpus ∈ catalog.corpora, corpus.shards.length ≤ maxNumber
  entries : ∀ corpus ∈ catalog.corpora, ∀ index ∈ corpus.index, ∀ entry ∈ index.entries,
    entry.2.length ≤ maxNumber

def hitOf (row : Sourced) : Hit := Hit.ofRow row.1 row.2

theorem hits_eq (batch : Batch) : batch.hits = batch.sourced.map hitOf := by
  rw [Batch.hits, Batch.sourced, List.map_map]
  rfl

theorem eq_of_cap? {limits : Limits} {mode : Mode} {cap : Nat} (h : limits.cap? mode = some cap) :
    (mode = .normal → cap = limits.results) ∧ (mode = .analysis → cap = limits.analysis) := by
  cases mode with
  | normal =>
    simp only [Limits.cap?, Option.ite_none_right_eq_some, Option.some.injEq] at h
    exact ⟨fun _ => h.2.symm, nofun⟩
  | analysis =>
    simp only [Limits.cap?, Option.ite_none_right_eq_some, Option.some.injEq] at h
    exact ⟨nofun, fun _ => h.2.symm⟩

theorem cap?_le (hf : catalog.Fits) {mode : Mode} {cap : Nat}
    (h : catalog.limits.cap? mode = some cap) : cap ≤ maxNumber := by
  obtain ⟨hnormal, hanalysis⟩ := eq_of_cap? h
  cases mode with
  | normal => exact hnormal rfl ▸ hf.results
  | analysis => exact hanalysis rfl ▸ hf.analysis

def filteredText (corpus : Corpus) (request : Request) : String :=
  Filter.attach request.pattern (Filter.declared corpus.metadata request.filters)

theorem start_eq_ok_iff : catalog.start request = .ok s ↔
    ∃ corpus limit plan, catalog.corpus? request.corpus = some corpus ∧
      catalog.limits.cap? request.mode = some limit ∧
      corpus.plan (Signature.derive? request.pattern) request.components = .ok plan ∧
      s = .start corpus.id (Pattern.normalize plan.axis (filteredText corpus request))
        (Pattern.normalize plan.axis request.pattern) plan limit request.mode request.context := by
  unfold start
  cases hc : catalog.corpus? request.corpus with
  | none => simp [Catalog.corpus, hc, Except.mapError, bind, Except.bind]
  | some corpus =>
    cases hl : catalog.limits.cap? request.mode with
    | none => simp [Catalog.corpus, hc, cap, hl, Except.mapError, bind, Except.bind]
    | some limit =>
      cases hp : corpus.plan (Signature.derive? request.pattern) request.components with
      | error e =>
        simp [Catalog.corpus, hc, cap, hl, hp, Except.mapError, bind, Except.bind]
      | ok plan =>
        simp [Catalog.corpus, hc, cap, hl, hp, Except.mapError, bind, Except.bind, pure, Except.pure,
          filteredText, eq_comm]

theorem start_eq_ok (h : catalog.start request = .ok s) :
    ∃ corpus limit plan pattern original, catalog.corpus? request.corpus = some corpus ∧
      catalog.limits.cap? request.mode = some limit ∧
      corpus.plan (Signature.derive? request.pattern) request.components = .ok plan ∧
      s = .start corpus.id pattern original plan limit request.mode request.context := by
  obtain ⟨corpus, limit, plan, hc, hl, hp, rfl⟩ := start_eq_ok_iff.1 h
  exact ⟨corpus, limit, plan, _, _, hc, hl, hp, rfl⟩

theorem resumable_start {limits : Limits} {corpora : List Corpus}
    (hb : build limits corpora = .ok catalog) (hf : catalog.Fits)
    (h : catalog.start request = .ok s) :
    ∃ corpus, catalog.corpus? request.corpus = some corpus ∧
      s.Resumable catalog.limits corpus ∧ s.Settled := by
  obtain ⟨corpus, limit, plan, pattern, original, hc, hl, hp, rfl⟩ := start_eq_ok h
  have hm : corpus ∈ catalog.corpora := List.mem_of_find?_eq_some hc
  have hn := components_nodup hb corpus hm
  obtain ⟨components, he, rfl⟩ := Corpus.plan_eq_ok hp
  refine ⟨corpus, hc, ?_, fun h => by cases h⟩
  exact {
    home := rfl
    cap := hl
    bounded := cap?_le hf hl
    known := fun shard hs =>
      have hs := Corpus.mem_planFor hn hs
      ⟨Corpus.shard?_of_mem hn hs, hf.counts corpus hm shard hs⟩
    lengths := Corpus.length_planFor_le _ (Corpus.expand_nodup he) (hf.shards corpus hm) (hf.entries corpus hm)
    position := Nat.zero_le _
    offset := Nat.zero_le _
    already := List.nodup_nil
    delivered := Nat.zero_le _ }

theorem session_resumed (hc : catalog.corpus? request.corpus = some corpus)
    (h : s.Resumable catalog.limits corpus) :
    catalog.session (request.resumed (Token.encode s)) = .ok s := by
  have hd := Token.decodeFor_encode h.storable h.home fun shard hs => (h.known shard hs).1
  simp only [session, Request.resumed, resume, Catalog.corpus, hc, Except.mapError, bind, Except.bind, hd,
    cap, h.cap]
  rfl

theorem collect_of_session (he : engine.Holds held worlds) {world : σ} (hw : worlds world)
    (hs : s.Settled) (h : catalog.session request = .ok s) :
    (catalog.collect engine request world).1 = .ok ((s.outstanding held).map hitOf) := by
  obtain ⟨batches, t, after, hd, _, _, ho⟩ :=
    Session.drain_accounts he catalog.limits.flush _ hw hs rfl
  have hh : batches.flatMap Batch.hits = (batches.flatMap Batch.sourced).map hitOf := by
    rw [List.map_flatMap, funext hits_eq]
  simp only [collect, h, hd, hh, ho]

/-- A page takes its hits from the front of those that are outstanding. Either it is the last one and
nothing is left, or its token stands for a session with less room. -/
theorem page_of_session (he : engine.Holds held worlds)
    (hb : ∀ pattern component rows, held pattern component = some rows → rows.length ≤ maxNumber)
    {world : σ} (hw : worlds world) (hr : s.Resumable catalog.limits corpus) (hs : s.Settled)
    (h : catalog.session request = .ok s) :
    ∃ page t after, catalog.page engine request world = (.ok page, after) ∧ worlds after ∧
      t.Resumable catalog.limits corpus ∧ t.Settled ∧
      (s.outstanding held).map hitOf = page.hits ++ (t.outstanding held).map hitOf ∧
      (page.exhausted = true ∧ page.token = none ∧ t.outstanding held = [] ∨
        page.exhausted = false ∧ page.token = some (Token.encode t) ∧ t.room < s.room) := by
  obtain ⟨batch, t, after, hn, hwa, hts, hacc⟩ :=
    Session.nextBatch_accounts he catalog.limits.flush hw hs
  have ht := Session.resumable_of_search he hb hw hr (Session.search_of_nextBatch hn)
  refine ⟨pageOf batch t, t, after, by simp only [page, h, hn], hwa, ht, hts, ?_, ?_⟩
  · cases batch with
    | none =>
      have ho := Session.outstanding_of_isDone held (hts hacc.2)
      rw [hacc.1, ho]
      rfl
    | some batch =>
      rw [Session.Accounts] at hacc
      rw [hacc, List.map_append, ← hits_eq]
      rfl
  · by_cases hp : t.phase = .exhausted
    · have ho := Session.outstanding_of_isDone held (hts hp)
      exact .inl ⟨by simp [pageOf, hp], by simp [pageOf, hp], ho⟩
    · cases batch with
      | none => exact absurd hacc.2 hp
      | some batch =>
        have hl := Session.room_of_search (Session.search_of_nextBatch hn) rfl
        exact .inr ⟨by simp [pageOf, hp], by simp [pageOf, hp], hl⟩

structure Covers (catalog : Catalog) (engine : Engine σ) (worlds : σ → Prop) (request : Request)
    (hits : List Hit) (pages : List Page) : Prop where
  hits : pages.flatMap Page.hits = hits
  tokens : ∀ page ∈ pages, page.token.isSome = !page.exhausted
  cuts : ∀ {before later : List Page} {page : Page} {token : String} {world : σ},
    pages = before ++ page :: later → page.token = some token → worlds world →
    (catalog.collect engine (request.resumed token) world).1 = .ok (later.flatMap Page.hits)

theorem browse_of_session (he : engine.Holds held worlds)
    (hb : ∀ pattern component rows, held pattern component = some rows → rows.length ≤ maxNumber)
    (hc : catalog.corpus? request.corpus = some corpus) (n : Nat) {world : σ} (hw : worlds world)
    (hr : s.Resumable catalog.limits corpus) (hs : s.Settled) (h : catalog.session request = .ok s)
    (hn : s.room = n) :
    ∃ pages after, Browse catalog engine request world pages after ∧
      Covers catalog engine worlds request ((s.outstanding held).map hitOf) pages := by
  -- on the room: a page with a token has hits, and its token stands for a session with less room
  induction n using Nat.strongRecOn generalizing request s world with
  | ind n ih =>
    obtain ⟨page, t, after, hp, hwa, htr, hts, ho, ⟨hx, htok, hnil⟩ | ⟨hx, htok, hl⟩⟩ :=
      page_of_session he hb hw hr hs h
    · refine ⟨[page], after, .last hp hx, ?_⟩
      rw [ho, hnil, List.map_nil, List.append_nil]
      refine ⟨List.flatMap_singleton _ _, ?_, ?_⟩
      · intro other hm
        rw [List.mem_singleton.1 hm, htok, hx]
        rfl
      · intro before later other token world hcut hto _
        have hm : other ∈ [page] := hcut ▸ List.mem_append_right _ List.mem_cons_self
        rw [List.mem_singleton.1 hm, htok] at hto
        cases hto
    · have hres := session_resumed hc htr
      have hc' : catalog.corpus? (request.resumed (Token.encode t)).corpus = some corpus := hc
      obtain ⟨pages, last, hbr, hcov⟩ := ih _ (hn ▸ hl) hc' hwa htr hts hres rfl
      refine ⟨page :: pages, last, .more hp hx htok hbr, ?_⟩
      rw [ho]
      refine ⟨by rw [List.flatMap_cons, hcov.hits], ?_, ?_⟩
      · refine List.forall_mem_cons.2 ⟨by rw [htok, hx]; rfl, hcov.tokens⟩
      · intro before later other token world hcut hto hwo
        cases before with
        | nil =>
          cases hcut
          rw [htok] at hto
          cases hto
          rw [collect_of_session he hwo hts hres, hcov.hits]
        | cons first before =>
          cases hcut
          exact hcov.cuts rfl hto hwo

/-- Paging with tokens is collecting at once: pages come to an end without an error, their hits are
those of a single collection, only the last one has no token, and a token brings what follows it. -/
theorem browse_eq_collect {limits : Limits} {corpora : List Corpus} {catalog : Catalog}
    (hb : build limits corpora = .ok catalog) (hf : catalog.Fits) {m : MemoryEngine}
    (hm : m.switchedOff = false) (hl : m.Fits) {request : Request} (ht : request.token = none)
    {s : Session} (hs : catalog.start request = .ok s) :
    ∃ pages after, Browse catalog MemoryEngine.engine request m pages after ∧
      (∀ n, m.Like n → (catalog.collect MemoryEngine.engine request n).1 =
        .ok (pages.flatMap Page.hits)) ∧
      (∀ page ∈ pages, page.token.isSome = !page.exhausted) ∧
      ∀ before page later token, pages = before ++ page :: later → page.token = some token →
        ∀ n, m.Like n → (catalog.collect MemoryEngine.engine (request.resumed token) n).1 =
          .ok (later.flatMap Page.hits) := by
  obtain ⟨corpus, hc, hr, hset⟩ := resumable_start hb hf hs
  have hses : catalog.session request = .ok s := by rw [session, ht, hs]
  have he := m.engine_holds
  obtain ⟨pages, after, hbr, hcov⟩ := browse_of_session he (MemoryEngine.length_holdings_le hl) hc _
    (MemoryEngine.like_refl hm) hr hset hses rfl
  refine ⟨pages, after, hbr, fun n hn => ?_, hcov.tokens,
    fun before page later token hcut hto n hn => hcov.cuts hcut hto hn⟩
  rw [collect_of_session he hn hset hses, hcov.hits]

def sampleLimits : Limits := { flush := 2, results := 3 }

def sampleCorpora : List Corpus :=
  [.ofShards "c" [⟨"db", 1, "C", none⟩, ⟨"db", 1, "A", some 2⟩, ⟨"db", 2, "B", none⟩]]

def sampleRequest : Request := { corpus := "c", pattern := "//node" }

theorem browse_eq_collect_sample :
    ∃ catalog s pages after, build sampleLimits sampleCorpora = .ok catalog ∧ catalog.Fits ∧
      Session.sampleEngine.switchedOff = false ∧ Session.sampleEngine.Fits ∧
      sampleRequest.token = none ∧ catalog.start sampleRequest = .ok s ∧
      Browse catalog MemoryEngine.engine sampleRequest Session.sampleEngine pages after ∧
      (∀ n, Session.sampleEngine.Like n →
        (catalog.collect MemoryEngine.engine sampleRequest n).1 = .ok (pages.flatMap Page.hits)) ∧
      (∀ page ∈ pages, page.token.isSome = !page.exhausted) ∧
      ∀ before page later token, pages = before ++ page :: later → page.token = some token →
        ∀ n, Session.sampleEngine.Like n →
          (catalog.collect MemoryEngine.engine (sampleRequest.resumed token) n).1 =
            .ok (later.flatMap Page.hits) := by
  have hb : build sampleLimits sampleCorpora = .ok ⟨sampleLimits, sampleCorpora⟩ := rfl
  have hf : (⟨sampleLimits, sampleCorpora⟩ : Catalog).Fits := by
    constructor <;> simp [sampleLimits, sampleCorpora, Corpus.ofShards, Shard.Fits, maxNumber]
  have hl : Session.sampleEngine.Fits := by
    simp [MemoryEngine.Fits, Session.sampleEngine, maxNumber]
  have hs : (⟨sampleLimits, sampleCorpora⟩ : Catalog).start sampleRequest = .ok _ := rfl
  obtain ⟨pages, after, h⟩ := browse_eq_collect hb hf rfl hl rfl hs
  exact ⟨_, _, pages, after, hb, hf, rfl, hl, rfl, hs, h⟩

end Catalog
end TreebankSearch
