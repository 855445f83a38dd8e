import Mathlib.Logic.Relation
import TreebankSearch.Proofs.Corpus.Plan

/-!
# The expansion of a selection

A selection is expanded id by id, a group to its members and any other id to itself. It fails for its first
id that is neither a group nor a component, and otherwise comes to the components it names, each at the
place where it is named first. So one selection has several spellings: a group may be named or its members,
and an id that has been named may be named again.
-/

namespace TreebankSearch

namespace Corpus

variable {corpus : Corpus} {selection selection' components : List String} {id component : String}

def named (corpus : Corpus) (id : String) : List String :=
  match corpus.group? id with
  | some group => group.components
  | none => [id]

def isUnknown (corpus : Corpus) (id : String) : Bool :=
  (corpus.group? id).isNone && (corpus.shard? id).isNone

theorem selected_of_known (h : corpus.isUnknown id = false) :
    corpus.selected id = .ok (corpus.named id) := by
  rw [selected, named]
  cases hg : corpus.group? id with
  | some group => rfl
  | none =>
    cases hs : corpus.shard? id with
    | some shard => rfl
    | none => simp [isUnknown, hg, hs] at h

theorem selected_of_unknown (h : corpus.isUnknown id = true) :
    corpus.selected id = .error (.unknownComponent corpus.id id) := by
  rw [isUnknown, Bool.and_eq_true, Option.isNone_iff_eq_none, Option.isNone_iff_eq_none] at h
  rw [selected, h.1, h.2]

theorem mapM_selected (corpus : Corpus) (selection : List String) :
    selection.mapM corpus.selected =
      match selection.find? corpus.isUnknown with
      | some id => .error (.unknownComponent corpus.id id)
      | none => .ok (selection.map corpus.named) := by
  induction selection with
  | nil => rfl
  | cons id selection ih =>
    rw [List.mapM_cons, List.find?_cons, ih]
    cases hu : corpus.isUnknown id with
    | true =>
      rw [selected_of_unknown hu]
      rfl
    | false =>
      rw [selected_of_known hu]
      cases selection.find? corpus.isUnknown <;> rfl

theorem expand_eq (corpus : Corpus) (selection : List String) :
    corpus.expand selection =
      match selection.find? corpus.isUnknown with
      | some id => .error (.unknownComponent corpus.id id)
      | none => .ok (selection.flatMap corpus.named).eraseDups := by
  rw [expand, mapM_selected]
  cases selection.find? corpus.isUnknown with
  | some id => rfl
  | none =>
    rw [List.flatMap_def]
    rfl

theorem expand_eq_ok_iff :
    corpus.expand selection = .ok components ↔
      (∀ id ∈ selection, corpus.isUnknown id = false) ∧
        (selection.flatMap corpus.named).eraseDups = components := by
  rw [expand_eq]
  cases hf : selection.find? corpus.isUnknown with
  | some id =>
    have hu := List.find?_some hf
    refine iff_of_false (nomatch ·) fun h => ?_
    rw [h.1 id (List.mem_of_find?_eq_some hf)] at hu
    cases hu
  | none =>
    have hknown : ∀ id ∈ selection, corpus.isUnknown id = false := by
      simpa using List.find?_eq_none.1 hf
    rw [Except.ok.injEq, and_iff_right hknown]

theorem expand_known (hg : ∀ group ∈ corpus.groups, ∀ c ∈ group.components, c ∈ corpus.components)
    (h : corpus.expand selection = .ok components) : ∀ c ∈ components, c ∈ corpus.components := by
  obtain ⟨hknown, rfl⟩ := expand_eq_ok_iff.1 h
  intro c hc
  obtain ⟨id, hid, hc⟩ := List.mem_flatMap.1 (List.mem_eraseDups.1 hc)
  have hu := hknown id hid
  rw [named] at hc
  cases hgroup : corpus.group? id with
  | some group =>
    rw [hgroup] at hc
    exact hg group (List.mem_of_find?_eq_some hgroup) c hc
  | none =>
    rw [hgroup] at hc
    rw [isUnknown, hgroup, Option.isNone_none, Bool.true_and, Option.isNone_eq_false_iff] at hu
    obtain ⟨shard, hs⟩ := Option.isSome_iff_exists.1 hu
    obtain ⟨hm, he⟩ := shard?_eq_some hs
    rw [List.mem_singleton.1 hc, ← he]
    exact List.mem_map_of_mem hm

/-- One step from a spelling of a selection to another. -/
inductive Respelled (corpus : Corpus) : List String → List String → Prop
  | opened (front rest : List String) {id : String} {group : ComponentGroup} :
      corpus.group? id = some group → group.components ≠ [] →
      (∀ other ∈ corpus.groups, other.id ∉ group.components) →
      Respelled corpus (front ++ id :: rest) (front ++ group.components ++ rest)
  | again (front rest : List String) {id : String} :
      id ∈ front → Respelled corpus (front ++ rest) (front ++ id :: rest)

theorem isUnknown_of_mem (h : component ∈ corpus.components) : corpus.isUnknown component = false := by
  obtain ⟨shard, hm, rfl⟩ := List.mem_map.1 h
  have hs : (corpus.shard? shard.component).isSome := List.find?_isSome.2 ⟨shard, hm, by simp⟩
  rw [isUnknown, Option.isNone_eq_false_iff.2 hs, Bool.and_false]

theorem group?_eq_none_iff : corpus.group? id = none ↔ ∀ group ∈ corpus.groups, group.id ≠ id := by
  simp [group?, List.find?_eq_none]

theorem flatMap_named (h : ∀ id ∈ selection, corpus.group? id = none) :
    selection.flatMap corpus.named = selection := by
  induction selection with
  | nil => rfl
  | cons id selection ih =>
    obtain ⟨hid, hrest⟩ := List.forall_mem_cons.1 h
    rw [List.flatMap_cons, ih hrest, named, hid]
    rfl

theorem eraseDups_append_again {front again : List String} (h : ∀ x ∈ again, x ∈ front)
    (rest : List String) : (front ++ (again ++ rest)).eraseDups = (front ++ rest).eraseDups := by
  have hnil : again.filter (fun x => !front.elem x) = [] :=
    List.filter_eq_nil_iff.2 fun x hx => by simp [h x hx]
  rw [List.eraseDups_append, List.eraseDups_append, List.removeAll, List.removeAll, List.filter_append,
    hnil, List.nil_append]

theorem Respelled.expand (hg : ∀ group ∈ corpus.groups, ∀ c ∈ group.components, c ∈ corpus.components)
    (h : corpus.Respelled selection selection') :
    corpus.expand selection = corpus.expand selection' := by
  rw [expand_eq, expand_eq]
  cases h with
  | @opened front rest id group hid _ hflat =>
    have hmembers : group.components.find? corpus.isUnknown = none :=
      List.find?_eq_none.2 fun c hc => by
        simp [isUnknown_of_mem (hg group (List.mem_of_find?_eq_some hid) c hc)]
    have hknown : corpus.isUnknown id = false := by rw [isUnknown, hid]; rfl
    have hnamed : group.components.flatMap corpus.named = corpus.named id := by
      rw [flatMap_named fun c hc => group?_eq_none_iff.2 fun other ho he => hflat other ho (he ▸ hc),
        named, hid]
    simp only [List.find?_append, List.find?_cons, hknown, hmembers, Option.none_or, List.flatMap_append,
      List.flatMap_cons, hnamed, List.append_assoc]
  | @again front rest id hid =>
    cases hf : front.find? corpus.isUnknown with
    | some first => simp only [List.find?_append, hf, Option.some_or]
    | none =>
      have hknown : corpus.isUnknown id = false := by simpa using List.find?_eq_none.1 hf id hid
      have hagain : ∀ c ∈ corpus.named id, c ∈ front.flatMap corpus.named := fun c hc =>
        List.mem_flatMap.2 ⟨id, hid, hc⟩
      simp only [List.find?_append, List.find?_cons, hf, hknown, List.flatMap_append, List.flatMap_cons,
        eraseDups_append_again hagain]

end Corpus

namespace Catalog

variable {limits : Limits} {corpora : List Corpus} {catalog : Catalog} {corpus : Corpus}
variable {selection selection' : List String}

/-- All spellings of a selection have the same plan, or fail in the same way. -/
theorem plan_eq_of_respelled (hb : build limits corpora = .ok catalog) (hm : corpus ∈ catalog.corpora)
    (signature : Option Signature) (h : Relation.EqvGen corpus.Respelled selection selection') :
    corpus.plan signature selection = corpus.plan signature selection' := by
  have hexpand : corpus.expand selection = corpus.expand selection' := by
    induction h with
    | rel _ _ h => exact h.expand fun _ => members_known hb hm
    | refl _ => rfl
    | symm _ _ _ ih => exact ih.symm
    | trans _ _ _ _ _ ih ih' => exact ih.trans ih'
  rw [Corpus.plan, Corpus.plan, hexpand]

def sampleOverlapping : Corpus where
  id := "c"
  shards := [⟨"db", 1, "C", none⟩, ⟨"db", 1, "A", none⟩, ⟨"db", 2, "B", none⟩]
  groups := [⟨"g", "", ["B", "A"]⟩, ⟨"h", "", ["A", "C"]⟩]
  multiple := false
  metadata := []
  index := none

theorem plan_eq_of_respelled_sample :
    ∃ catalog, build {} [sampleOverlapping] = .ok catalog ∧ sampleOverlapping ∈ catalog.corpora ∧
      Relation.EqvGen sampleOverlapping.Respelled ["g", "h"] ["B", "A", "h", "g"] ∧
      sampleOverlapping.plan none ["g", "h"] = .error (.exclusiveComponents "c" 3) ∧
      sampleOverlapping.plan none ["B", "A", "h", "g"] = .error (.exclusiveComponents "c" 3) := by
  have hb : build {} [sampleOverlapping] = .ok ⟨{}, [sampleOverlapping]⟩ := rfl
  have hm : sampleOverlapping ∈ [sampleOverlapping] := List.mem_singleton_self _
  have hagain : sampleOverlapping.Respelled ["g", "h"] ["g", "h", "g"] :=
    .again ["g", "h"] [] List.mem_cons_self
  have hg : sampleOverlapping.group? "g" = some ⟨"g", "", ["B", "A"]⟩ := rfl
  have hopened : sampleOverlapping.Respelled ["g", "h", "g"] ["B", "A", "h", "g"] :=
    .opened [] ["h", "g"] hg (by decide) (by decide)
  have hspelled := (Relation.EqvGen.rel _ _ hagain).trans _ _ _ (.rel _ _ hopened)
  have hplan : sampleOverlapping.plan none ["g", "h"] = .error (.exclusiveComponents "c" 3) := rfl
  exact ⟨_, hb, hm, hspelled, hplan, (plan_eq_of_respelled hb hm none hspelled).symm.trans hplan⟩

end Catalog
end TreebankSearch
