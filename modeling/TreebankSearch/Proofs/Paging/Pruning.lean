import TreebankSearch.Proofs.Paging.Browse

/-!
# Pruning by shape

Without its shape index a corpus is searched shard by shard, as they are selected. With it, the shards
that the index lists for the pattern come first, and all selected shards after them. Either way the
search visits every selected shard and no other one, so that against an engine in memory it brings
as many hits, and with room for all ids the same ones: the index decides about their order only.
-/

namespace TreebankSearch

namespace MemoryEngine

variable {m : MemoryEngine}

def idsOf (m : MemoryEngine) (shards : List Shard) : List String :=
  ((shards.filter (·.component ∉ m.failing)).flatMap fun shard =>
    (m.rowsOf shard.component).map (·.id)).eraseDups

theorem mem_idsOf {shards : List Shard} {id : String} :
    id ∈ m.idsOf shards ↔ ∃ shard ∈ shards, shard.component ∉ m.failing ∧
      ∃ row ∈ m.rowsOf shard.component, row.id = id := by
  simp [idsOf, and_assoc]

theorem mem_ids_listing {pattern : String} {shards : List Shard} {id : String} :
    id ∈ (TreebankSearch.listing m.holdings pattern shards).map (·.2.id) ↔ id ∈ m.idsOf shards := by
  have hrows : ∀ (shard : Shard) (row : Row), row ∈ (m.holdings pattern shard.component).getD [] ↔
      shard.component ∉ m.failing ∧ row ∈ m.rowsOf shard.component := by
    intro shard row
    unfold holdings
    by_cases hf : shard.component ∈ m.failing <;> simp [hf]
  rw [mem_idsOf]
  simp only [listing, List.mem_map, List.mem_flatMap, hrows]
  constructor
  · rintro ⟨_, ⟨shard, hs, row, ⟨hf, hr⟩, rfl⟩, rfl⟩
    exact ⟨shard, hs, hf, row, hr, rfl⟩
  · rintro ⟨shard, hs, hf, row, hr, rfl⟩
    exact ⟨_, ⟨shard, hs, row, ⟨hf, hr⟩, rfl⟩, rfl⟩

theorem listing_eq (m : MemoryEngine) (plan : Plan) (pattern : String) :
    plan.listing m.holdings pattern = TreebankSearch.listing m.holdings pattern plan.visits := by
  obtain ⟨axis, shards, fallback⟩ := plan
  cases axis with
  | anywhere =>
    rw [Plan.visits, List.append_nil]
    rfl
  | root =>
    rw [Plan.visits, TreebankSearch.listing, List.flatMap_append]
    rfl

end MemoryEngine

namespace Corpus

variable {corpus : Corpus} {components : List String}

def unindexed (corpus : Corpus) : Corpus := { corpus with index := none }

def unindexedAt (id : String) (corpus : Corpus) : Corpus :=
  if corpus.id = id then corpus.unindexed else corpus

theorem ids_planFor (hn : corpus.components.Nodup) (m : MemoryEngine)
    (signature : Option Signature) (components : List String) (pattern : String) :
    ((Sourced.distinct ((corpus.planFor signature components).listing m.holdings pattern)).map
      (·.2.id)).Perm (m.idsOf (corpus.chosen components)) := by
  apply (List.perm_ext_iff_of_nodup (Sourced.nodup_distinct _) (nodup_eraseDups _)).2
  intro id
  change _ ↔ id ∈ m.idsOf _
  rw [Sourced.mem_ids_distinct, m.listing_eq, MemoryEngine.mem_ids_listing]
  simp only [MemoryEngine.mem_idsOf, mem_visits_planFor hn]

theorem plan_unindexed (corpus : Corpus) (signature : Option Signature) (selection : List String) :
    (∃ error, corpus.plan signature selection = .error error ∧
      corpus.unindexed.plan signature selection = .error error) ∨
    ∃ plan bare, corpus.plan signature selection = .ok plan ∧
      corpus.unindexed.plan signature selection = .ok bare := by
  have he : corpus.unindexed.expand selection = corpus.expand selection := rfl
  unfold Corpus.plan
  rw [he]
  cases corpus.expand selection with
  | error error => exact .inl ⟨error, rfl, rfl⟩
  | ok components =>
    have hx : corpus.unindexed.multiple = corpus.multiple := rfl
    simp only [bind, Except.bind, hx]
    by_cases h : (!corpus.multiple && 1 < components.length) = true
    · rw [if_pos h, if_pos h]
      exact .inl ⟨_, rfl, rfl⟩
    · rw [if_neg h, if_neg h]
      exact .inr ⟨_, _, rfl, rfl⟩

theorem unknownMention?_unindexed (h : corpus.unknownMention? = none) :
    corpus.unindexed.unknownMention? = none := by
  rw [unknownMention?, List.findSome?_eq_none_iff] at h ⊢
  intro mention hm
  rw [mentions, unindexed, Option.getD_none, Table.empty, List.map_nil, List.append_nil] at hm
  exact h mention (List.mem_append_left _ hm)

theorem fault?_unindexed (h : corpus.fault? = none) : corpus.unindexed.fault? = none := by
  unfold fault? at h ⊢
  split at h
  · cases h
  · next hf =>
    rw [Option.map_eq_none_iff] at h
    rw [show firstRepeated? [] corpus.unindexed.components = none from hf]
    exact Option.map_eq_none_iff.2 (unknownMention?_unindexed h)

theorem id_unindexedAt (id : String) (corpus : Corpus) : (corpus.unindexedAt id).id = corpus.id := by
  unfold unindexedAt
  split <;> rfl

theorem fault?_unindexedAt (id : String) (h : corpus.fault? = none) :
    (corpus.unindexedAt id).fault? = none := by
  unfold unindexedAt
  split
  · exact fault?_unindexed h
  · exact h

end Corpus

namespace Catalog

variable {limits : Limits} {corpora : List Corpus} {catalog : Catalog} {corpus : Corpus}
variable {request : Request} {m n : MemoryEngine}

def unindexed (catalog : Catalog) (id : String) : Catalog where
  limits := catalog.limits
  corpora := catalog.corpora.map (Corpus.unindexedAt id)

theorem corpus?_unindexed (catalog : Catalog) (id : String) :
    (catalog.unindexed id).corpus? id = (catalog.corpus? id).map Corpus.unindexed := by
  unfold corpus? unindexed
  induction catalog.corpora with
  | nil => rfl
  | cons corpus corpora ih =>
    rw [List.map_cons, List.find?_cons, List.find?_cons, Corpus.id_unindexedAt]
    by_cases h : corpus.id = id
    · simp [h, Corpus.unindexedAt]
    · simpa [h] using ih

theorem fault?_unindexed (id : String) {seen : List String} (h : fault? seen corpora = none) :
    fault? seen (corpora.map (Corpus.unindexedAt id)) = none := by
  induction corpora generalizing seen with
  | nil => rfl
  | cons corpus corpora ih =>
    have hc := fault?_eq_none h corpus List.mem_cons_self
    simp only [fault?, hc] at h
    rw [List.map_cons]
    simp only [fault?, Corpus.fault?_unindexedAt id hc, Corpus.id_unindexedAt]
    by_cases hs : corpus.id ∈ seen
    · simp [hs] at h
    · rw [if_neg hs] at h ⊢
      exact ih h

theorem build_unindexed (hb : build limits corpora = .ok catalog) (id : String) :
    build limits (catalog.unindexed id).corpora = .ok (catalog.unindexed id) := by
  unfold build at hb ⊢
  by_cases hl : limits.flush = 0
  · rw [if_pos hl] at hb
    cases hb
  · rw [if_neg hl] at hb ⊢
    cases hf : fault? [] corpora with
    | some fault => rw [hf] at hb; cases hb
    | none =>
      rw [hf] at hb
      cases hb
      simp only [unindexed, fault?_unindexed id hf]

theorem start_unindexed (catalog : Catalog) (request : Request) :
    (∃ error, catalog.start request = .error error ∧
      (catalog.unindexed request.corpus).start request = .error error) ∨
    ∃ s t, catalog.start request = .ok s ∧
      (catalog.unindexed request.corpus).start request = .ok t := by
  have hl : (catalog.unindexed request.corpus).cap request.mode = catalog.cap request.mode := rfl
  unfold start
  rw [hl]
  simp only [Catalog.corpus, corpus?_unindexed]
  cases catalog.corpus? request.corpus with
  | none => exact .inl ⟨_, rfl, rfl⟩
  | some corpus =>
    cases catalog.cap request.mode with
    | error error => exact .inl ⟨error, rfl, rfl⟩
    | ok limit =>
      rcases corpus.plan_unindexed (Signature.derive? request.pattern) request.components with
        ⟨error, hp, hp'⟩ | ⟨plan, bare, hp, hp'⟩
      · left
        simp only [Option.map_some, Except.mapError, bind, Except.bind, hp, hp']
        exact ⟨_, rfl, rfl⟩
      · right
        simp only [Option.map_some, Except.mapError, bind, Except.bind, hp, hp']
        exact ⟨_, _, rfl, rfl⟩

/-- What a request collects from an engine in memory, as far as ids go: those held by the selected
shards, up to the limit. -/
theorem collect_chosen (hb : build limits corpora = .ok catalog) (hn : m.Like n)
    (ht : request.token = none) {s : Session} (hs : catalog.start request = .ok s) :
    ∃ corpus limit components hits, catalog.corpus? request.corpus = some corpus ∧
      catalog.limits.cap? request.mode = some limit ∧
      corpus.expand request.components = .ok components ∧
      (catalog.collect MemoryEngine.engine request n).1 = .ok hits ∧
      hits.length = min limit (m.idsOf (corpus.chosen components)).length ∧
      ((m.idsOf (corpus.chosen components)).length ≤ limit →
        ∀ id, id ∈ hits.map (·.id) ↔ id ∈ m.idsOf (corpus.chosen components)) := by
  have hses : catalog.session request = .ok s := by rw [session, ht, hs]
  obtain ⟨corpus, limit, plan, pattern, original, hc, hl, hp, rfl⟩ := start_eq_ok hs
  obtain ⟨components, he, rfl⟩ := Corpus.plan_eq_ok hp
  have hnodup := components_nodup hb corpus (List.mem_of_find?_eq_some hc)
  have hperm := Corpus.ids_planFor hnodup m (Signature.derive? request.pattern) components pattern
  have hlen := hperm.length_eq
  rw [List.length_map] at hlen
  have hcol := collect_of_session m.engine_holds hn (fun h => by cases h) hses
  rw [Session.outstanding_start] at hcol
  refine ⟨corpus, limit, components, _, hc, hl, he, hcol, ?_, fun hroom id => ?_⟩
  · rw [List.length_map, List.length_take, hlen]
  · rw [← hlen] at hroom
    rw [List.take_of_length_le hroom, List.map_map, ← hperm.mem_iff]
    rfl

/-- Taking the shape index of a corpus away changes neither the error of a request nor the number of
its hits, nor, if the limit has room for all ids that the selected shards hold, which ids they have. -/
theorem collect_unindexed (hb : build limits corpora = .ok catalog) (hm : m.switchedOff = false)
    (hn : m.Like n) (ht : request.token = none) :
    (∃ error, (catalog.collect MemoryEngine.engine request m).1 = .error error ∧
      ((catalog.unindexed request.corpus).collect MemoryEngine.engine request n).1 =
        .error error) ∨
    ∃ corpus limit components hits plain, catalog.corpus? request.corpus = some corpus ∧
      catalog.limits.cap? request.mode = some limit ∧
      corpus.expand request.components = .ok components ∧
      (catalog.collect MemoryEngine.engine request m).1 = .ok hits ∧
      ((catalog.unindexed request.corpus).collect MemoryEngine.engine request n).1 = .ok plain ∧
      hits.length = plain.length ∧
      ((m.idsOf (corpus.chosen components)).length ≤ limit →
        ∀ id, id ∈ hits.map (·.id) ↔ id ∈ plain.map (·.id)) := by
  rcases start_unindexed catalog request with ⟨error, hs, hs'⟩ | ⟨s, t, hs, hs'⟩
  · refine .inl ⟨error, ?_, ?_⟩
    · simp only [collect, session, ht, hs]
    · simp only [collect, session, ht, hs']
  · right
    obtain ⟨corpus, limit, components, hits, hc, hl, he, hcol, hlen, hids⟩ :=
      collect_chosen hb (MemoryEngine.like_refl hm) ht hs
    obtain ⟨bare, limit', components', plain, hc', hl', he', hcol', hlen', hids'⟩ :=
      collect_chosen (build_unindexed hb request.corpus) hn ht hs'
    rw [corpus?_unindexed, hc] at hc'
    cases hc'
    cases hl.symm.trans hl'
    cases he.symm.trans he'
    exact ⟨corpus, limit, components, hits, plain, hc, hl, he, hcol, hcol', hlen.trans hlen'.symm,
      fun hroom id => (hids hroom id).trans (hids' hroom id).symm⟩

def sampleIndexed : Corpus where
  id := "c"
  shards := [⟨"db", 1, "C", none⟩, ⟨"db", 1, "A", some 2⟩, ⟨"db", 2, "B", none⟩]
  groups := [⟨"g", "", ["B", "A"]⟩]
  multiple := true
  metadata := []
  index := some ⟨[("npdet%_hd%n", ["A", "C", "A"])]⟩

def sampleSelecting : Request where
  corpus := "c"
  components := ["g", "A"]
  pattern := "//node[@cat=\"np\" and node[@rel=\"det\"] and node[@rel=\"hd\" and @pt=\"n\"]]"

theorem collect_unindexed_sample :
    ∃ catalog hits plain, build {} [sampleIndexed] = .ok catalog ∧
      Session.sampleEngine.switchedOff = false ∧
      Session.sampleEngine.Like Session.sampleEngine ∧ sampleSelecting.token = none ∧
      (catalog.collect MemoryEngine.engine sampleSelecting Session.sampleEngine).1 = .ok hits ∧
      ((catalog.unindexed "c").collect MemoryEngine.engine sampleSelecting
        Session.sampleEngine).1 = .ok plain ∧
      hits.length = plain.length ∧ ∀ id, id ∈ hits.map (·.id) ↔ id ∈ plain.map (·.id) := by
  have hb : build {} [sampleIndexed] = .ok ⟨{}, [sampleIndexed]⟩ := rfl
  have hn : Session.sampleEngine.Like Session.sampleEngine := MemoryEngine.like_refl rfl
  have hs : (⟨{}, [sampleIndexed]⟩ : Catalog).start sampleSelecting = .ok _ := rfl
  have ht : sampleSelecting.token = none := rfl
  rcases collect_unindexed hb rfl hn ht with
    ⟨error, h, _⟩ | ⟨corpus, limit, components, hits, plain, hc, hl, he, h, h', hlen, hids⟩
  · have hses : (⟨{}, [sampleIndexed]⟩ : Catalog).session sampleSelecting = .ok _ := hs
    have hcol := collect_of_session Session.sampleEngine.engine_holds hn (fun h => by cases h) hses
    cases hcol.symm.trans h
  · cases hc.symm.trans (rfl : _ = some sampleIndexed)
    cases hl.symm.trans (rfl : _ = some 500)
    cases he.symm.trans (rfl : _ = Except.ok ["B", "A"])
    exact ⟨_, hits, plain, hb, rfl, hn, ht, h, h', hlen, hids (by decide)⟩

end Catalog
end TreebankSearch
