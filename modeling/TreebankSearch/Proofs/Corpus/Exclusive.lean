import TreebankSearch.Proofs.Corpus.Selection

/-!
# Corpora with one component at a time

A corpus can ask that its components are searched one at a time. A plan over it is confined to one
component as soon as its selection stands for any. A selection that stands for none is let through and
searches the whole corpus: the components are counted before none of them comes to mean all.
-/

namespace TreebankSearch

/-- The passes of the plan search no two components. -/
def Plan.Single (plan : Plan) : Prop :=
  ∀ first second, plan.Searches first → plan.Searches second → first = second

theorem length_le_one_iff_of_nodup {xs : List String} (h : xs.Nodup) :
    xs.length ≤ 1 ↔ ∀ x ∈ xs, ∀ y ∈ xs, x = y := by
  match xs with
  | [] => simp
  | [_] => simp
  | x :: y :: xs =>
    have hne : x ≠ y := fun he => (List.nodup_cons.1 h).1 (he ▸ List.mem_cons_self)
    constructor
    · intro hl
      simp at hl
    · intro heq
      exact absurd (heq x List.mem_cons_self y (List.mem_cons_of_mem x List.mem_cons_self)) hne

namespace Corpus

variable {corpus : Corpus} {selection components : List String}

theorem expand_eq_nil_iff (h : corpus.expand selection = .ok components) :
    components = [] ↔ ¬ ∃ component, corpus.Selects selection component := by
  rw [List.eq_nil_iff_forall_not_mem, not_exists]
  exact forall_congr' fun component => not_congr (mem_expand h)

theorem single_planFor_nil (hn : corpus.components.Nodup) {signature : Option Signature} :
    (corpus.planFor signature []).Single ↔ corpus.components.length ≤ 1 := by
  have hall : ∀ component, (corpus.planFor signature []).Searches component ↔
      component ∈ corpus.components := fun component =>
    (searches_planFor hn).trans (and_iff_left rfl)
  rw [length_le_one_iff_of_nodup hn]
  constructor
  · intro h first hf second hs
    exact h first second ((hall first).2 hf) ((hall second).2 hs)
  · intro h first second hf hs
    exact h first ((hall first).1 hf) second ((hall second).1 hs)

theorem single_planFor_singleton (hn : corpus.components.Nodup) {signature : Option Signature}
    (component : String) : (corpus.planFor signature [component]).Single := by
  have honly : ∀ other, (corpus.planFor signature [component]).Searches other → other = component := by
    intro other hs
    simpa [allows] using ((searches_planFor hn).1 hs).2
  intro first second hf hs
  rw [honly first hf, honly second hs]

end Corpus

namespace Catalog

variable {limits : Limits} {corpora : List Corpus} {catalog : Catalog} {corpus : Corpus}
variable {signature : Option Signature} {selection : List String} {plan : Plan}

/-- Where components exclude each other, a plan is confined to one of them just if its selection stands for
a component, or if the corpus has no two. -/
theorem single_iff_of_exclusive (hb : build limits corpora = .ok catalog)
    (hm : corpus ∈ catalog.corpora) (hx : corpus.multiple = false)
    (hp : corpus.plan signature selection = .ok plan) :
    plan.Single ↔
      (∃ component, corpus.Selects selection component) ∨ corpus.components.length ≤ 1 := by
  obtain ⟨components, he, hone, rfl⟩ := Corpus.plan_eq_ok_iff.1 hp
  have hn := components_nodup hb corpus hm
  have hnil := Corpus.expand_eq_nil_iff he
  match components with
  | [] =>
    rw [Corpus.single_planFor_nil hn]
    exact (or_iff_right (hnil.1 rfl)).symm
  | [component] =>
    have hs : corpus.Selects selection component := (Corpus.mem_expand he).1 List.mem_cons_self
    exact iff_of_true (Corpus.single_planFor_singleton hn component) (.inl ⟨component, hs⟩)
  | _ :: _ :: _ =>
    have hl := hone hx
    simp at hl

def sampleExclusive : Corpus where
  id := "c"
  shards := [⟨"db", 1, "C", none⟩, ⟨"db", 1, "A", none⟩, ⟨"db", 2, "B", none⟩]
  groups := [⟨"g", "", ["A"]⟩]
  multiple := false
  metadata := []
  index := some ⟨[("npdet%_hd%n", ["A", "C"])]⟩

theorem single_iff_of_exclusive_sample :
    ∃ catalog plan, build {} [sampleExclusive] = .ok catalog ∧ sampleExclusive ∈ catalog.corpora ∧
      sampleExclusive.multiple = false ∧
      sampleExclusive.plan (some ⟨"npdet%_hd%n"⟩) ["g", "A"] = .ok plan ∧ plan.axis = .root ∧
      sampleExclusive.Selects ["g", "A"] "A" ∧ plan.Single := by
  have hb : build {} [sampleExclusive] = .ok ⟨{}, [sampleExclusive]⟩ := rfl
  have hm : sampleExclusive ∈ [sampleExclusive] := List.mem_singleton_self _
  have hp : sampleExclusive.plan (some ⟨"npdet%_hd%n"⟩) ["g", "A"] = .ok _ := rfl
  have hs : sampleExclusive.Selects ["g", "A"] "A" := ⟨"g", List.mem_cons_self, List.mem_cons_self⟩
  exact ⟨_, _, hb, hm, rfl, hp, rfl, hs, (single_iff_of_exclusive hb hm rfl hp).2 (.inl ⟨"A", hs⟩)⟩

/-- Without a selection, the corpus is searched on all of its components. -/
theorem exclusive_searches_all :
    ∃ catalog plan, build {} [sampleExclusive] = .ok catalog ∧ sampleExclusive ∈ catalog.corpora ∧
      sampleExclusive.multiple = false ∧ sampleExclusive.plan none [] = .ok plan ∧
      plan.Searches "A" ∧ plan.Searches "B" ∧ ¬ plan.Single := by
  have ha : (Plan.full sampleExclusive.shards).Searches "A" := ⟨⟨"db", 1, "A", none⟩, by decide, rfl⟩
  have hb : (Plan.full sampleExclusive.shards).Searches "B" := ⟨⟨"db", 2, "B", none⟩, by decide, rfl⟩
  refine ⟨⟨{}, [sampleExclusive]⟩, .full sampleExclusive.shards, rfl, List.mem_singleton_self _, rfl,
    rfl, ha, hb, fun hs => ?_⟩
  exact absurd (hs "A" "B" ha hb) (by decide)

end Catalog
end TreebankSearch
