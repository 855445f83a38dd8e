import Mathlib.Data.List.Basic
import TreebankSearch.Corpus.Plan

/-!
# The shards of a plan

A catalog that has been built has no corpus with a component twice, so that a shard of a plan is the one
that its corpus has for the component. A plan visits the shards that are selected, whatever the shape
index says, and is no longer than what it is taken from: the shards of the corpus or an entry of the
index.
-/

namespace TreebankSearch

def Plan.visits (plan : Plan) : List Shard :=
  plan.shards ++
    match plan.axis with
    | .root => plan.fallback
    | .anywhere => []

theorem idxOf_filter_lt_iff {xs : List String} {p : String → Bool} {x y : String} (hx : p x = true)
    (hy : p y = true) : (xs.filter p).idxOf x < (xs.filter p).idxOf y ↔ xs.idxOf x < xs.idxOf y := by
  induction xs with
  | nil => rfl
  | cons z xs ih =>
    by_cases hzx : z = x
    · subst z
      by_cases hxy : x = y
      · subst y
        simp only [Nat.lt_irrefl]
      · simp [hx, List.idxOf_cons_ne _ hxy]
    · by_cases hzy : z = y
      · subst z
        simp [hy]
      · cases hz : p z <;> simp [hz, List.idxOf_cons_ne _ hzx, List.idxOf_cons_ne _ hzy, ih]

theorem pairwise_idxOf_eraseDups (xs : List String) :
    xs.eraseDups.Pairwise fun x y => xs.idxOf x < xs.idxOf y := by
  induction hn : xs.length using Nat.strongRecOn generalizing xs with
  | ind n ih =>
    cases xs with
    | nil => exact .nil
    | cons z xs =>
      have hl : (xs.filter fun y => !y == z).length < n := by
        rw [← hn, List.length_cons]
        exact Nat.lt_succ_of_le (List.length_filter_le _ _)
      have hother : ∀ y ∈ (xs.filter fun y => !y == z).eraseDups, (!y == z) = true := fun y hy =>
        (List.mem_filter.1 (List.mem_eraseDups.1 hy)).2
      have hne : ∀ y ∈ (xs.filter fun y => !y == z).eraseDups, z ≠ y := fun y hy he => by
        simpa [he] using hother y hy
      rw [List.eraseDups_cons, List.pairwise_cons]
      refine ⟨fun y hy => ?_, (ih _ hl _ rfl).imp_of_mem fun {x y} hx hy h => ?_⟩
      · rw [List.idxOf_cons_self, List.idxOf_cons_ne _ (hne y hy)]
        exact Nat.succ_pos _
      · rw [List.idxOf_cons_ne _ (hne x hx), List.idxOf_cons_ne _ (hne y hy)]
        exact Nat.succ_lt_succ ((idxOf_filter_lt_iff (hother x hx) (hother y hy)).1 h)

theorem nodup_eraseDups (xs : List String) : xs.eraseDups.Nodup := by
  refine (pairwise_idxOf_eraseDups xs).imp fun {x y} hlt he => ?_
  rw [he] at hlt
  exact Nat.lt_irrefl _ hlt

theorem filter_key_eq {α : Type} {key : α → String} {xs : List α} (h : (xs.map key).Nodup) {x : α}
    (hm : x ∈ xs) : xs.filter (fun y => key y = key x) = [x] := by
  induction xs with
  | nil => cases hm
  | cons y xs ih =>
    rw [List.map_cons, List.nodup_cons] at h
    rw [List.filter_cons]
    rcases List.mem_cons.1 hm with rfl | hm
    · have hnone : xs.filter (fun y => key y = key x) = [] :=
        List.filter_eq_nil_iff.2 fun y hy he => h.1 (of_decide_eq_true he ▸ List.mem_map_of_mem hy)
      rw [if_pos (decide_eq_true rfl), hnone]
    · have hne : ¬ decide (key y = key x) = true := fun he =>
        h.1 (of_decide_eq_true he ▸ List.mem_map_of_mem hm)
      rw [if_neg hne, ih h.2 hm]

namespace Corpus

variable {corpus : Corpus} {components : List String}

theorem shard?_eq_some {component : String} {shard : Shard}
    (h : corpus.shard? component = some shard) :
    shard ∈ corpus.shards ∧ shard.component = component :=
  ⟨List.mem_of_find?_eq_some h, by simpa using List.find?_some h⟩

theorem shard?_of_mem (h : corpus.components.Nodup) {shard : Shard} (hm : shard ∈ corpus.shards) :
    corpus.shard? shard.component = some shard := by
  rw [shard?, ← List.head?_filter, filter_key_eq h hm, List.head?_cons]

theorem length_filterMap_shard?_le {components : List String} (h : components.Nodup) :
    (components.filterMap corpus.shard?).length ≤ corpus.shards.length := by
  have hsub : ((components.filterMap corpus.shard?).map (·.component)).Sublist components := by
    induction components with
    | nil => exact List.Sublist.refl _
    | cons component components ih =>
      have ih := ih (List.nodup_cons.1 h).2
      cases hc : corpus.shard? component with
      | none => rw [List.filterMap_cons_none hc]; exact ih.cons _
      | some shard =>
        rw [List.filterMap_cons_some hc, List.map_cons, (shard?_eq_some hc).2]
        exact ih.cons_cons _
  have hmem : (components.filterMap corpus.shard?).map (·.component) ⊆ corpus.components := by
    intro component hm
    obtain ⟨shard, hs, rfl⟩ := List.mem_map.1 hm
    obtain ⟨_, _, hc⟩ := List.mem_filterMap.1 hs
    exact List.mem_map_of_mem (shard?_eq_some hc).1
  have hl := (hsub.nodup h).length_le_of_subset hmem
  rwa [List.length_map, Corpus.components, List.length_map] at hl

theorem expand_nodup {selection components : List String}
    (h : corpus.expand selection = .ok components) : components.Nodup := by
  unfold expand at h
  cases hs : selection.mapM corpus.selected with
  | error e => rw [hs] at h; cases h
  | ok parts => rw [hs] at h; cases h; exact nodup_eraseDups _

theorem length_indexed_le {index : ShapeIndex} (signature : Option Signature)
    (components : List String) {bound : Nat}
    (h : ∀ entry ∈ index.entries, entry.2.length ≤ bound) :
    (corpus.indexed index signature components).length ≤ bound := by
  have hl : ((signature.bind index.components?).getD []).length ≤ bound := by
    cases hc : signature.bind index.components? with
    | none => exact Nat.zero_le _
    | some listed =>
      obtain ⟨_, _, hf⟩ := Option.bind_eq_some_iff.1 hc
      obtain ⟨entry, hm, rfl⟩ := Table.mem_of_find? hf
      exact h entry hm
  exact Nat.le_trans (List.length_filterMap_le _ _)
    (Nat.le_trans (List.length_filter_le _ _) hl)

def chosen (corpus : Corpus) (components : List String) : List Shard :=
  corpus.shards.filter fun shard => allows components shard.component

theorem mem_indexed {index : ShapeIndex} {signature : Option Signature} {shard : Shard}
    (h : shard ∈ corpus.indexed index signature components) : shard ∈ corpus.chosen components := by
  obtain ⟨component, hm, hc⟩ := List.mem_filterMap.1 h
  obtain ⟨hs, rfl⟩ := shard?_eq_some hc
  exact List.mem_filter.2 ⟨hs, (List.mem_filter.1 hm).2⟩

theorem mem_filterMap_shard? (hn : corpus.components.Nodup) {shard : Shard} :
    shard ∈ components.filterMap corpus.shard? ↔
      shard ∈ corpus.shards ∧ shard.component ∈ components := by
  rw [List.mem_filterMap]
  constructor
  · rintro ⟨component, hm, hc⟩
    obtain ⟨hs, rfl⟩ := shard?_eq_some hc
    exact ⟨hs, hm⟩
  · rintro ⟨hs, hm⟩
    exact ⟨shard.component, hm, shard?_of_mem hn hs⟩

/-- Whatever the index says, a plan visits the selected shards and no other ones. -/
theorem mem_visits_planFor (hn : corpus.components.Nodup) {signature : Option Signature}
    {shard : Shard} :
    shard ∈ (corpus.planFor signature components).visits ↔ shard ∈ corpus.chosen components := by
  unfold planFor
  cases corpus.index with
  | none =>
    simp only [Plan.full, Plan.visits, List.append_nil]
    cases components with
    | nil => simp [chosen, allows]
    | cons component components =>
      rw [if_neg (by simp), mem_filterMap_shard? hn, chosen, List.mem_filter]
      simp [allows]
  | some index =>
    simp only
    cases hi : corpus.indexed index signature components with
    | nil => simp [Plan.full, Plan.visits, chosen]
    | cons first rest =>
      simp only [Plan.visits]
      rw [← hi, List.mem_append]
      constructor
      · rintro (h | h)
        · exact mem_indexed h
        · exact h
      · exact .inr

theorem visits_planFor (corpus : Corpus) (signature : Option Signature) (components : List String) :
    (corpus.planFor signature components).visits =
      (corpus.planFor signature components).shards ++
        (corpus.planFor signature components).fallback := by
  unfold planFor
  cases corpus.index with
  | none => rfl
  | some index =>
    simp only
    cases corpus.indexed index signature components with
    | nil => rfl
    | cons first rest => rfl

theorem fallback_planFor (corpus : Corpus) (signature : Option Signature)
    (components : List String) (h : (corpus.planFor signature components).axis = .anywhere) :
    (corpus.planFor signature components).fallback = [] := by
  revert h
  unfold planFor
  cases corpus.index with
  | none => exact fun _ => rfl
  | some index =>
    simp only
    cases corpus.indexed index signature components with
    | nil => exact fun _ => rfl
    | cons first rest => exact fun h => nomatch h

theorem mem_planFor (hn : corpus.components.Nodup) {signature : Option Signature} {shard : Shard}
    (h : shard ∈ (corpus.planFor signature components).shards ++
      (corpus.planFor signature components).fallback) : shard ∈ corpus.shards := by
  rw [← visits_planFor, mem_visits_planFor hn] at h
  exact (List.mem_filter.1 h).1

theorem length_planFor_le (signature : Option Signature) {components : List String}
    (hn : components.Nodup) {bound : Nat} (hs : corpus.shards.length ≤ bound)
    (he : ∀ index ∈ corpus.index, ∀ entry ∈ index.entries, entry.2.length ≤ bound) :
    (corpus.planFor signature components).shards.length ≤ bound ∧
      (corpus.planFor signature components).fallback.length ≤ bound := by
  have hall : (corpus.shards.filter fun shard => allows components shard.component).length ≤ bound :=
    Nat.le_trans (List.length_filter_le _ _) hs
  unfold planFor
  split
  · refine ⟨?_, Nat.zero_le _⟩
    simp only [Plan.full]
    split
    · exact hs
    · exact Nat.le_trans (length_filterMap_shard?_le hn) hs
  · next index hi =>
    simp only
    split
    · exact ⟨hall, Nat.zero_le _⟩
    · next hl =>
      exact ⟨hl ▸ length_indexed_le signature components (he index hi), hall⟩

theorem plan_eq_ok_iff {signature : Option Signature} {selection : List String} {plan : Plan} :
    corpus.plan signature selection = .ok plan ↔
      ∃ components, corpus.expand selection = .ok components ∧
        (corpus.multiple = false → components.length ≤ 1) ∧
        plan = corpus.planFor signature components := by
  unfold Corpus.plan
  cases corpus.expand selection with
  | error e => simp [bind, Except.bind]
  | ok components =>
    simp only [bind, Except.bind]
    split
    · next h =>
      rw [Bool.and_eq_true, Bool.not_eq_true', decide_eq_true_eq] at h
      constructor
      · exact fun he => nomatch he
      · rintro ⟨_, he, hone, _⟩
        cases he
        exact absurd (hone h.1) (Nat.not_le_of_lt h.2)
    · next h =>
      rw [Bool.and_eq_true, Bool.not_eq_true', decide_eq_true_eq, not_and, Nat.not_lt] at h
      constructor
      · intro he
        cases he
        exact ⟨components, rfl, h, rfl⟩
      · rintro ⟨_, he, _, rfl⟩
        cases he
        rfl

theorem plan_eq_ok {signature : Option Signature} {selection : List String} {plan : Plan}
    (h : corpus.plan signature selection = .ok plan) :
    ∃ components, corpus.expand selection = .ok components ∧
      plan = corpus.planFor signature components := by
  obtain ⟨components, he, _, rfl⟩ := plan_eq_ok_iff.1 h
  exact ⟨components, he, rfl⟩

end Corpus

namespace Catalog

theorem fault?_eq_none {seen : List String} {corpora : List Corpus}
    (h : fault? seen corpora = none) : ∀ corpus ∈ corpora, corpus.fault? = none := by
  induction corpora generalizing seen with
  | nil => exact fun _ hm => absurd hm List.not_mem_nil
  | cons first corpora ih =>
    unfold fault? at h
    split at h
    · cases h
    · next hf =>
      split at h
      · cases h
      · exact List.forall_mem_cons.2 ⟨hf, ih h⟩

theorem no_fault_of_build {limits : Limits} {corpora : List Corpus} {catalog : Catalog}
    (h : build limits corpora = .ok catalog) : ∀ corpus ∈ catalog.corpora, corpus.fault? = none := by
  unfold build at h
  split at h
  · cases h
  split at h
  · cases h
  · next hf =>
    cases h
    exact fault?_eq_none hf

theorem components_nodup {limits : Limits} {corpora : List Corpus} {catalog : Catalog}
    (h : build limits corpora = .ok catalog) :
    ∀ corpus ∈ catalog.corpora, corpus.components.Nodup := by
  intro corpus hm
  have hc := no_fault_of_build h corpus hm
  unfold Corpus.fault? at hc
  split at hc
  · cases hc
  · next hr => exact (firstRepeated?_eq_none_iff.1 hr).1

theorem mentioned_known {limits : Limits} {corpora : List Corpus} {catalog : Catalog}
    (h : build limits corpora = .ok catalog) {corpus : Corpus} (hm : corpus ∈ catalog.corpora)
    {mention : Mention × List String} (hmention : mention ∈ corpus.mentions) :
    ∀ component ∈ mention.2, component ∈ corpus.components := by
  have hc := no_fault_of_build h corpus hm
  unfold Corpus.fault? at hc
  split at hc
  · cases hc
  · have hnone := List.findSome?_eq_none_iff.1 (Option.map_eq_none_iff.1 hc) _ hmention
    have hfind := List.find?_eq_none.1 (Option.map_eq_none_iff.1 hnone)
    exact fun component hcomponent => by simpa using hfind component hcomponent

theorem members_known {limits : Limits} {corpora : List Corpus} {catalog : Catalog}
    (h : build limits corpora = .ok catalog) {corpus : Corpus} (hm : corpus ∈ catalog.corpora)
    {group : ComponentGroup} (hg : group ∈ corpus.groups) :
    ∀ component ∈ group.components, component ∈ corpus.components :=
  mentioned_known h hm (List.mem_append_left _ (List.mem_map_of_mem hg))

theorem listed_known {limits : Limits} {corpora : List Corpus} {catalog : Catalog}
    (h : build limits corpora = .ok catalog) {corpus : Corpus} (hm : corpus ∈ catalog.corpora)
    {index : ShapeIndex} (hi : corpus.index = some index) {signature : Signature} {entry : List String}
    (he : index.components? signature = some entry) :
    ∀ component ∈ entry, component ∈ corpus.components := by
  obtain ⟨⟨key, listed⟩, hentry, rfl⟩ := Table.mem_of_find? he
  have hmention : (.shape key, listed) ∈ corpus.mentions := by
    refine List.mem_append_right _ ?_
    rw [hi]
    exact List.mem_map_of_mem hentry
  exact mentioned_known h hm hmention

end Catalog
end TreebankSearch
