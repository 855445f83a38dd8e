import TreebankSearch.Proofs.Corpus.Expansion
import TreebankSearch.Proofs.Session.Tour

/-!
# What a selection searches

The ids of a selection stand for components: a group for its members, and any other id for itself. A
search over a corpus visits the components that its selection stands for, as long as there are any. A
selection that stands for none is taken for no selection at all, and the whole corpus is searched, even
where the selection names groups.
-/

namespace TreebankSearch

def Plan.Searches (plan : Plan) (component : String) : Prop :=
  ∃ shard ∈ plan.shards ++ plan.fallback, shard.component = component

theorem Plan.searches_of_sends {σ : Type} {engine : Engine σ} {flush limit : Nat} {plan : Plan}
    {corpus pattern original : String} {mode : Mode} {context : Bool} {world between : σ}
    {turns : List Session.Turn} {s : Session} {before : List Exchange} {query : ShardQuery}
    (hr : Session.Run engine flush
      (Session.start corpus pattern original plan limit mode context) world turns s between)
    (hs : Session.Sends engine flush s between before query) :
    plan.Searches query.shard.component := by
  have ht := (Session.tours_start corpus pattern original plan limit mode context).run hr
  obtain ⟨spot, _, hq⟩ := Option.bind_eq_some_iff.1 (ht.sends hs)
  obtain ⟨shard, hshard, rfl⟩ := Option.map_eq_some_iff.1 hq
  have hm := List.mem_of_getElem? hshard
  refine ⟨shard, List.mem_append.2 ?_, rfl⟩
  unfold Plan.queue at hm
  split at hm
  · exact .inl hm
  · split at hm
    · exact .inr hm
    · cases hm

namespace Corpus

variable {corpus : Corpus} {selection components : List String} {component : String}

/-- A selected id stands for the members of its group, or else for the component of that name. -/
def StandsFor (corpus : Corpus) (id component : String) : Prop :=
  match corpus.group? id with
  | some group => component ∈ group.components
  | none => component = id

def Selects (corpus : Corpus) (selection : List String) (component : String) : Prop :=
  ∃ id ∈ selection, corpus.StandsFor id component

theorem mem_named_iff {id : String} : component ∈ corpus.named id ↔ corpus.StandsFor id component := by
  rw [named, StandsFor]
  cases corpus.group? id with
  | some group => exact Iff.rfl
  | none => exact List.mem_singleton

theorem mem_expand (h : corpus.expand selection = .ok components) :
    component ∈ components ↔ corpus.Selects selection component := by
  obtain ⟨_, rfl⟩ := expand_eq_ok_iff.1 h
  rw [List.mem_eraseDups, List.mem_flatMap]
  exact exists_congr fun id => and_congr_right fun _ => mem_named_iff

theorem searches_planFor (hn : corpus.components.Nodup) {signature : Option Signature} :
    (corpus.planFor signature components).Searches component ↔
      component ∈ corpus.components ∧ allows components component = true := by
  unfold Plan.Searches
  rw [← visits_planFor]
  constructor
  · rintro ⟨shard, hm, rfl⟩
    obtain ⟨hs, ha⟩ := List.mem_filter.1 ((mem_visits_planFor hn).1 hm)
    exact ⟨List.mem_map_of_mem hs, ha⟩
  · rintro ⟨hc, ha⟩
    obtain ⟨shard, hs, rfl⟩ := List.mem_map.1 hc
    exact ⟨shard, (mem_visits_planFor hn).2 (List.mem_filter.2 ⟨hs, ha⟩), rfl⟩

end Corpus

namespace Catalog

variable {limits : Limits} {corpora : List Corpus} {catalog : Catalog} {corpus : Corpus}
variable {signature : Option Signature} {selection : List String} {plan : Plan}

/-- A plan searches the components that its selection stands for, if there are any, and else all that
the corpus has. A session over the plan sends its queries to these components and to no others. -/
theorem searches_iff_selects (hb : build limits corpora = .ok catalog) (hm : corpus ∈ catalog.corpora)
    (hp : corpus.plan signature selection = .ok plan) :
    ((∀ component, ¬ corpus.Selects selection component) →
      ∀ component, plan.Searches component ↔ component ∈ corpus.components) ∧
    ((∃ component, corpus.Selects selection component) →
      ∀ component, plan.Searches component ↔ corpus.Selects selection component) ∧
    ∀ {σ : Type} (engine : Engine σ) flush id pattern original limit mode context world turns s
      between before query,
      Session.Run engine flush (Session.start id pattern original plan limit mode context) world
        turns s between →
      Session.Sends engine flush s between before query → plan.Searches query.shard.component := by
  obtain ⟨components, he, rfl⟩ := Corpus.plan_eq_ok hp
  have hn := components_nodup hb corpus hm
  have hknown := Corpus.expand_known (fun _ => members_known hb hm) he
  refine ⟨fun hnone component => ?_, fun ⟨first, hfirst⟩ component => ?_, ?_⟩
  · have hnil : components = [] :=
      List.eq_nil_iff_forall_not_mem.2 fun c hc => hnone c ((Corpus.mem_expand he).1 hc)
    rw [Corpus.searches_planFor hn, hnil]
    exact and_iff_left rfl
  · have hne : components.isEmpty = false :=
      List.isEmpty_eq_false_iff_exists_mem.2 ⟨first, (Corpus.mem_expand he).2 hfirst⟩
    rw [Corpus.searches_planFor hn, Corpus.allows, hne, Bool.false_or, List.contains_iff_mem,
      ← Corpus.mem_expand he]
    exact and_iff_right_of_imp (hknown component)
  · intro σ engine flush id pattern original limit mode context world turns s between before query hr hs
    exact Plan.searches_of_sends hr hs

def sampleGrouped : Corpus where
  id := "c"
  shards := [⟨"db", 1, "C", none⟩, ⟨"db", 1, "A", none⟩, ⟨"db", 2, "B", none⟩]
  groups := [⟨"g", "", ["B", "A"]⟩, ⟨"none", "", []⟩]
  multiple := true
  metadata := []
  index := some ⟨[("npdet%_hd%n", ["A", "C"])]⟩

theorem searches_iff_selects_sample :
    ∃ catalog plan, build {} [sampleGrouped] = .ok catalog ∧ sampleGrouped ∈ catalog.corpora ∧
      sampleGrouped.plan (some ⟨"npdet%_hd%n"⟩) ["none", "g"] = .ok plan ∧ plan.axis = .root ∧
      sampleGrouped.Selects ["none", "g"] "B" ∧
      ∀ component, plan.Searches component ↔ sampleGrouped.Selects ["none", "g"] component := by
  have hb : build {} [sampleGrouped] = .ok ⟨{}, [sampleGrouped]⟩ := rfl
  have hm : sampleGrouped ∈ [sampleGrouped] := List.mem_singleton_self _
  have hp : sampleGrouped.plan (some ⟨"npdet%_hd%n"⟩) ["none", "g"] = .ok _ := rfl
  have hs : sampleGrouped.Selects ["none", "g"] "B" :=
    ⟨"g", List.mem_cons_of_mem _ List.mem_cons_self, List.mem_cons_self⟩
  exact ⟨_, _, hb, hm, hp, rfl, hs, (searches_iff_selects hb hm hp).2.1 ⟨"B", hs⟩⟩

/-- The selection names a group without members, and all components are searched. -/
theorem searches_of_empty_group :
    ∃ catalog plan, build {} [sampleGrouped] = .ok catalog ∧ sampleGrouped ∈ catalog.corpora ∧
      sampleGrouped.plan none ["none"] = .ok plan ∧ plan.Searches "A" ∧
      ∀ component, ¬ sampleGrouped.Selects ["none"] component := by
  refine ⟨⟨{}, [sampleGrouped]⟩, .full sampleGrouped.shards, rfl, List.mem_singleton_self _, rfl,
    ⟨⟨"db", 1, "A", none⟩, by decide, rfl⟩, ?_⟩
  rintro component ⟨id, hid, hc⟩
  rw [List.mem_singleton.1 hid] at hc
  exact absurd hc List.not_mem_nil

end Catalog
end TreebankSearch
