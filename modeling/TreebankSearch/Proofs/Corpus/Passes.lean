import TreebankSearch.Proofs.Corpus.Expansion

/-!
# The passes of a plan

What a session can rely on when it follows a plan. The shards are those of the corpus. A pruned pass visits
the selected components of an index entry, in the order of the entry, and the pass behind it the selected
shards of the corpus, each once, among them all of the pruned pass. Without an index there is one pass,
in the order in which the selection first names its components.
-/

namespace TreebankSearch

def Plan.names (shards : List Shard) : List String := shards.map (·.component)

/-- The first pass is pruned by an index. -/
structure Plan.Pruned (plan : Plan) (corpus : Corpus) (signature : Option Signature) : Prop where
  nonempty : plan.shards ≠ []
  covered : ∀ shard ∈ plan.shards, shard ∈ plan.fallback
  sublist : plan.fallback.Sublist corpus.shards
  nodup : plan.fallback.Nodup
  entry : ∃ index entry, corpus.index = some index ∧ signature.bind index.components? = some entry ∧
    names plan.shards = entry.filter fun component => component ∈ names plan.fallback

structure Plan.Named (plan : Plan) (corpus : Corpus) (named : List String) : Prop where
  nodup : plan.shards.Nodup
  mem : named ≠ [] → ∀ component, component ∈ names plan.shards ↔ component ∈ named
  order : named ≠ [] → (names plan.shards).Pairwise fun a b => named.idxOf a < named.idxOf b
  whole : named = [] → plan.shards = corpus.shards

structure Plan.WellFormed (plan : Plan) (corpus : Corpus) (signature : Option Signature)
    (selection : List String) : Prop where
  own : ∀ shard ∈ plan.shards ++ plan.fallback, corpus.shard? shard.component = some shard
  single : plan.axis = .anywhere → plan.fallback = []
  pruned : plan.axis = .root → plan.Pruned corpus signature
  named : corpus.index = none → plan.Named corpus (selection.flatMap corpus.named)

namespace Corpus

variable {corpus : Corpus} {components : List String} {signature : Option Signature}

theorem nodup_of_names {shards : List Shard} (h : (Plan.names shards).Nodup) : shards.Nodup :=
  List.Pairwise.of_map Shard.component (fun _ _ hne he => hne (congrArg _ he)) h

theorem names_filterMap_shard? (hn : corpus.components.Nodup)
    (h : ∀ c ∈ components, c ∈ corpus.components) :
    Plan.names (components.filterMap corpus.shard?) = components := by
  induction components with
  | nil => rfl
  | cons component components ih =>
    obtain ⟨hc, hrest⟩ := List.forall_mem_cons.1 h
    obtain ⟨shard, hm, rfl⟩ := List.mem_map.1 hc
    rw [List.filterMap_cons_some (shard?_of_mem hn hm), Plan.names, List.map_cons]
    exact congrArg _ (ih hrest)

theorem mem_names_chosen {component : String} (h : component ∈ corpus.components) :
    component ∈ Plan.names (corpus.chosen components) ↔ allows components component = true := by
  rw [Plan.names, List.mem_map]
  constructor
  · rintro ⟨shard, hm, rfl⟩
    exact (List.mem_filter.1 hm).2
  · intro ha
    obtain ⟨shard, hm, rfl⟩ := List.mem_map.1 h
    exact ⟨shard, List.mem_filter.2 ⟨hm, ha⟩, rfl⟩

theorem names_indexed (hn : corpus.components.Nodup) {index : ShapeIndex} {entry : List String}
    (he : signature.bind index.components? = some entry) (hl : ∀ c ∈ entry, c ∈ corpus.components) :
    Plan.names (corpus.indexed index signature components) =
      entry.filter fun component => component ∈ Plan.names (corpus.chosen components) := by
  rw [indexed, he, Option.getD_some,
    names_filterMap_shard? hn fun c hc => hl c (List.mem_filter.1 hc).1]
  refine List.filter_congr fun c hc => ?_
  rw [Bool.eq_iff_iff, decide_eq_true_eq]
  exact (mem_names_chosen (hl c hc)).symm

theorem pruned_planFor (hn : corpus.components.Nodup)
    (hl : ∀ index ∈ corpus.index, ∀ signature entry, index.components? signature = some entry →
      ∀ c ∈ entry, c ∈ corpus.components)
    (h : (corpus.planFor signature components).axis = .root) :
    (corpus.planFor signature components).Pruned corpus signature := by
  unfold planFor at h ⊢
  cases hi : corpus.index with
  | none =>
    rw [hi] at h
    cases h
  | some index =>
    simp only [hi] at h ⊢
    cases hs : corpus.indexed index signature components with
    | nil =>
      rw [hs] at h
      cases h
    | cons first rest =>
      simp only
      rw [← hs]
      have hne : corpus.indexed index signature components ≠ [] := by
        rw [hs]
        exact List.cons_ne_nil _ _
      cases he : signature.bind index.components? with
      | none =>
        rw [indexed, he] at hne
        exact absurd rfl hne
      | some entry =>
        obtain ⟨key, _, hentry⟩ := Option.bind_eq_some_iff.1 he
        exact {
          nonempty := hne
          covered := fun _ => mem_indexed
          sublist := List.filter_sublist
          nodup := (nodup_of_names hn).filter _
          entry := ⟨index, entry, hi, he, names_indexed hn he (hl index hi key entry hentry)⟩ }

theorem named_planFor (hn : corpus.components.Nodup) {named : List String}
    (hk : ∀ c ∈ named.eraseDups, c ∈ corpus.components) (hi : corpus.index = none) :
    (corpus.planFor signature named.eraseDups).Named corpus named := by
  unfold planFor
  rw [hi]
  simp only [Plan.full]
  by_cases hnil : named = []
  · subst named
    exact ⟨nodup_of_names hn, fun h => absurd rfl h, fun h => absurd rfl h, fun _ => rfl⟩
  · have hne : ¬ named.eraseDups.isEmpty = true := by
      obtain ⟨first, rest, rfl⟩ := List.exists_cons_of_ne_nil hnil
      simp [List.eraseDups_cons]
    rw [if_neg hne]
    have hnames := names_filterMap_shard? hn hk
    refine ⟨nodup_of_names ?_, fun _ component => ?_, fun _ => ?_, fun h => absurd h hnil⟩
    · rw [hnames]
      exact nodup_eraseDups named
    · rw [hnames, List.mem_eraseDups]
    · rw [hnames]
      exact pairwise_idxOf_eraseDups named

end Corpus

namespace Catalog

variable {limits : Limits} {corpora : List Corpus} {catalog : Catalog} {corpus : Corpus}
variable {signature : Option Signature} {selection : List String} {plan : Plan}

theorem wellFormed_of_plan (hb : build limits corpora = .ok catalog) (hm : corpus ∈ catalog.corpora)
    (hp : corpus.plan signature selection = .ok plan) : plan.WellFormed corpus signature selection := by
  obtain ⟨components, he, rfl⟩ := Corpus.plan_eq_ok hp
  have hn := components_nodup hb corpus hm
  have hknown := Corpus.expand_known (fun _ => members_known hb hm) he
  obtain ⟨_, rfl⟩ := Corpus.expand_eq_ok_iff.1 he
  exact {
    own := fun shard hs => Corpus.shard?_of_mem hn (Corpus.mem_planFor hn hs)
    single := corpus.fallback_planFor signature _
    pruned := Corpus.pruned_planFor hn fun index hi key entry => listed_known hb hm hi
    named := Corpus.named_planFor hn hknown }

def sampleEntry : Corpus where
  id := "c"
  shards := [⟨"db", 1, "C", none⟩, ⟨"db", 1, "A", none⟩, ⟨"db", 2, "B", some 7⟩]
  groups := [⟨"g", "", ["B", "A"]⟩]
  multiple := true
  metadata := []
  index := some ⟨[("npdet%_hd%n", ["C", "B", "A", "B"])]⟩

theorem wellFormed_of_plan_sample :
    ∃ catalog plan, build {} [sampleEntry] = .ok catalog ∧ sampleEntry ∈ catalog.corpora ∧
      sampleEntry.plan (some ⟨"npdet%_hd%n"⟩) ["g"] = .ok plan ∧ plan.axis = .root ∧
      Plan.names plan.shards = ["B", "A", "B"] ∧ Plan.names plan.fallback = ["A", "B"] ∧
      plan.WellFormed sampleEntry (some ⟨"npdet%_hd%n"⟩) ["g"] := by
  have hb : build {} [sampleEntry] = .ok ⟨{}, [sampleEntry]⟩ := rfl
  have hm : sampleEntry ∈ [sampleEntry] := List.mem_singleton_self _
  have hp : sampleEntry.plan (some ⟨"npdet%_hd%n"⟩) ["g"] = .ok _ := rfl
  exact ⟨_, _, hb, hm, hp, rfl, rfl, rfl, wellFormed_of_plan hb hm hp⟩

end Catalog
end TreebankSearch
